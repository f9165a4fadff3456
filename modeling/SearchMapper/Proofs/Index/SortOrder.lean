import Mathlib.Data.List.Chain
import SearchMapper.Index.Search
import SearchMapper.Proofs.Text.Scanning

namespace SearchMapper

open Index (SortTerm)

namespace Number.Binary

variable {F : Format}

theorem compare?_swap (x y : Binary F) : (x.compare? y).map Ordering.swap = y.compare? x := by
  cases x with
  | finite s m q _ =>
    cases y with
    | finite t n r _ =>
      simp only [compare?, Option.map_some, Int.min_comm r q]
      rw [← Std.OrientedCmp.eq_swap]
    | infinite t => cases t <;> rfl
    | nan => rfl
  | infinite s =>
    cases y with
    | finite => cases s <;> rfl
    | infinite t => cases s <;> cases t <;> rfl
    | nan => rfl
  | nan => cases y <;> rfl

end Number.Binary

namespace Index

section Comparisons

theorem compareText_swap (a b : String) : (compareText a b).swap = compareText b a := by
  unfold compareText
  split
  · next h =>
    have hn : ¬b < a := String.lt_asymm h
    have hne : b ≠ a := fun he => String.lt_irrefl a (he ▸ h)
    rw [if_neg hn, if_neg hne]
    rfl
  · next h =>
    split
    · next he =>
      subst he
      rw [if_neg h, if_pos rfl]
      rfl
    · next hne =>
      have hlt : b < a := by
        refine Decidable.not_not.1 fun hba => hne ?_
        exact String.le_antisymm (String.not_lt.1 hba) (String.not_lt.1 h)
      rw [if_pos hlt]
      rfl

theorem compareValues_swap (a b : String) : (compareValues a b).swap = compareValues b a := by
  unfold compareValues
  cases ha : number? a with
  | none => cases number? b <;> exact compareText_swap a b
  | some x =>
    cases hb : number? b with
    | none => exact compareText_swap a b
    | some y =>
      simp only
      rw [← x.compare?_swap y]
      cases x.compare? y <;> rfl

theorem compareOptional_swap (descending : Bool) (a b : Option String) :
    (compareOptional descending a b).swap = compareOptional descending b a := by
  cases a <;> cases b <;> cases descending <;> simp [compareOptional, compareValues_swap]

theorem compareRecords_swap (a b : Record) (terms : List SortTerm) :
    (compareRecords a b terms).swap = compareRecords b a terms := by
  induction terms with
  | nil => rfl
  | cons term terms ih =>
    rw [compareRecords, compareRecords, Ordering.swap_then, compareOptional_swap, ih]

end Comparisons

section Arrangements

variable {α : Type} {precedes : α → α → Bool}

theorem place_perm (x : α) (placed : List α) :
    (place precedes x placed).Perm (x :: placed) := by
  induction placed with
  | nil => exact .refl _
  | cons y ys ih =>
    rw [place]
    split
    · exact (ih.cons y).trans (.swap x y ys)
    · exact .refl _

theorem arrange_perm (xs : List α) : (arrange precedes xs).Perm xs := by
  have hfold (placed : List α) :
      (xs.foldl (fun placed x => place precedes x placed) placed).Perm (xs ++ placed) := by
    induction xs generalizing placed with
    | nil => exact .refl _
    | cons x xs ih =>
      exact (ih _).trans (((place_perm x placed).append_left xs).trans List.perm_middle)
  have hall := hfold []
  rw [List.append_nil] at hall
  exact (List.reverse_perm _).trans hall

theorem arrange_eq_self (hnone : ∀ a b, precedes a b = false) (xs : List α) :
    arrange precedes xs = xs := by
  have hplace (x : α) (placed : List α) : place precedes x placed = x :: placed := by
    cases placed with
    | nil => rfl
    | cons y ys => simp [place, hnone]
  simp [arrange, hplace]

theorem cons_sublist_place (x : α) {group placed : List α} (hgroup : group.Sublist placed)
    (hx : ∀ y ∈ group, precedes x y = false) : (x :: group).Sublist (place precedes x placed) := by
  induction placed with
  | nil =>
    rw [List.sublist_nil.1 hgroup]
    exact .refl _
  | cons y ys ih =>
    rw [place]
    split
    · next hp =>
      cases hgroup with
      | cons _ hys => exact (ih hys).cons y
      | cons_cons _ hys =>
        rw [hx y List.mem_cons_self] at hp
        cases hp
    · exact hgroup.cons_cons x

theorem sublist_place (x : α) (placed : List α) : placed.Sublist (place precedes x placed) := by
  induction placed with
  | nil => exact List.nil_sublist _
  | cons y ys ih =>
    rw [place]
    split
    · exact ih.cons_cons y
    · exact .cons x (.refl _)

/-- Items that stand in order among themselves keep it, whatever stands between them. -/
theorem sublist_arrange {group xs : List α} (hgroup : group.Sublist xs)
    (h : group.Pairwise fun a b => precedes b a = false) :
    group.Sublist (arrange precedes xs) := by
  have hfold (before placed : List α) (hbefore : before.Sublist placed)
      (hacross : ∀ a ∈ group, ∀ b ∈ before, precedes a b = false) :
      (group.reverse ++ before).Sublist
        (xs.foldl (fun placed x => place precedes x placed) placed) := by
    induction hgroup generalizing before placed with
    | slnil => exact hbefore
    | cons x _ ih => exact ih h before _ (hbefore.trans (sublist_place x placed)) hacross
    | cons_cons x _ ih =>
      obtain ⟨hx, h⟩ := List.pairwise_cons.1 h
      obtain ⟨hfirst, hacross⟩ := List.forall_mem_cons.1 hacross
      rw [List.reverse_cons, List.append_assoc]
      refine ih h (x :: before) _ (cons_sublist_place x hbefore hfirst) fun a ha => ?_
      exact List.forall_mem_cons.2 ⟨hx a ha, hacross a ha⟩
  have hall := hfold [] [] (.refl _) (by simp)
  rw [List.append_nil] at hall
  exact List.reverse_sublist.1 (by simpa [arrange] using hall)

theorem place_isChain (hasymm : ∀ a b, precedes a b = true → precedes b a = false) (x : α)
    {placed : List α} (h : placed.IsChain fun a b => precedes a b = false) :
    (place precedes x placed).IsChain fun a b => precedes a b = false := by
  induction placed with
  | nil => exact .singleton x
  | cons y ys ih =>
    rw [place]
    split
    · next hp =>
      have hys := ih h.tail
      cases ys with
      | nil => exact .cons_cons (hasymm x y hp) hys
      | cons z zs =>
        rw [place] at hys ⊢
        split
        · next hz =>
          rw [if_pos hz] at hys
          exact .cons_cons h.rel hys
        · next hz =>
          rw [if_neg hz] at hys
          exact .cons_cons (hasymm x y hp) hys
    · next hp => exact .cons_cons (by simpa using hp) h

theorem arrange_isChain (hasymm : ∀ a b, precedes a b = true → precedes b a = false)
    (xs : List α) : (arrange precedes xs).IsChain fun a b => precedes b a = false := by
  have hfold (placed : List α) (h : placed.IsChain fun a b => precedes a b = false) :
      (xs.foldl (fun placed x => place precedes x placed) placed).IsChain
        fun a b => precedes a b = false := by
    induction xs generalizing placed with
    | nil => exact h
    | cons x xs ih => exact ih _ (place_isChain hasymm x h)
  exact List.isChain_reverse.2 (hfold [] .nil)

theorem pairwise_of_isChain {R : α → α → Prop} {xs : List α} (h : xs.IsChain R)
    (htrans : ∀ a ∈ xs, ∀ b ∈ xs, ∀ c ∈ xs, R a b → R b c → R a c) : xs.Pairwise R := by
  induction xs with
  | nil => exact .nil
  | cons x xs ih =>
    have hxs := ih h.tail fun a ha b hb c hc =>
      htrans a (.tail x ha) b (.tail x hb) c (.tail x hc)
    refine .cons ?_ hxs
    cases xs with
    | nil => simp
    | cons y ys =>
      intro z hz
      rcases List.mem_cons.1 hz with rfl | hz
      · exact h.rel
      · exact htrans x (by simp) y (by simp) z (by simp [hz]) h.rel
          (List.rel_of_pairwise_cons hxs hz)

end Arrangements

/-- Values that are partly numbers may compare in a circle; here none do. -/
def Consistent (terms : List SortTerm) (records : List Record) : Prop :=
  ∀ a ∈ records, ∀ b ∈ records, ∀ c ∈ records, compareRecords a b terms ≠ .gt →
    compareRecords b c terms ≠ .gt → compareRecords a c terms ≠ .gt

instance (terms : List SortTerm) (records : List Record) : Decidable (Consistent terms records) :=
  inferInstanceAs (Decidable (∀ a ∈ records, ∀ b ∈ records, ∀ c ∈ records,
    compareRecords a b terms ≠ .gt → compareRecords b c terms ≠ .gt →
      compareRecords a c terms ≠ .gt))

theorem consistent_nil (records : List Record) : Consistent [] records :=
  fun _ _ _ _ _ _ _ _ => nofun

/-- The hits in the order of the terms. Those that no term tells apart stay as they were. -/
structure IsSorted (terms : List SortTerm) (hits sorted : List Record) : Prop where
  perm : sorted.Perm hits
  inOrder : sorted.Pairwise fun a b => compareRecords a b terms ≠ .gt
  stable : ∀ group : List Record, group.Sublist hits →
    (group.Pairwise fun a b => compareRecords a b terms = .eq) → group.Sublist sorted

section Sorting

variable {terms : List SortTerm} {hits : List Record}

theorem compareRecords_self (a : Record) (terms : List SortTerm) :
    compareRecords a a terms = .eq := by
  have h := compareRecords_swap a a terms
  cases hc : compareRecords a a terms with
  | eq => rfl
  | lt | gt =>
    rw [hc] at h
    cases h

theorem compareRecords_eq_symm {a b : Record} (h : compareRecords a b terms = .eq) :
    compareRecords b a terms = .eq := by
  rw [← compareRecords_swap, h]
  rfl

theorem compareRecords_eq_of_ne_gt {a b : Record} (hab : compareRecords a b terms ≠ .gt)
    (hba : compareRecords b a terms ≠ .gt) : compareRecords a b terms = .eq := by
  rw [← compareRecords_swap] at hba
  cases h : compareRecords a b terms with
  | eq => rfl
  | lt => exact absurd (by rw [h]; rfl) hba
  | gt => exact absurd h hab

theorem sortHits_perm (terms : List SortTerm) (hits : List Record) :
    (sortHits terms hits).Perm hits :=
  arrange_perm hits

theorem sortHits_nil (hits : List Record) : sortHits [] hits = hits :=
  arrange_eq_self (fun _ _ => rfl) hits

theorem sortHits_isChain (terms : List SortTerm) (hits : List Record) :
    (sortHits terms hits).IsChain fun a b => compareRecords a b terms ≠ .gt := by
  have hasymm (a b : Record) (h : decide (compareRecords a b terms = .lt) = true) :
      decide (compareRecords b a terms = .lt) = false := by
    rw [decide_eq_true_eq] at h
    rw [← compareRecords_swap, h]
    rfl
  refine (arrange_isChain hasymm hits).imp fun a b h => ?_
  rw [decide_eq_false_iff_not, ← compareRecords_swap] at h
  intro hgt
  exact h (by rw [hgt]; rfl)

theorem sortHits_pairwise (h : Consistent terms hits) :
    (sortHits terms hits).Pairwise fun a b => compareRecords a b terms ≠ .gt := by
  have hmem {a : Record} (ha : a ∈ sortHits terms hits) : a ∈ hits :=
    (sortHits_perm terms hits).mem_iff.1 ha
  exact pairwise_of_isChain (sortHits_isChain terms hits) fun a ha b hb c hc =>
    h a (hmem ha) b (hmem hb) c (hmem hc)

theorem sublist_sortHits {group : List Record} (hgroup : group.Sublist hits)
    (htied : group.Pairwise fun a b => compareRecords a b terms = .eq) :
    group.Sublist (sortHits terms hits) := by
  refine sublist_arrange hgroup (htied.imp fun h => ?_)
  rw [compareRecords_eq_symm h]
  rfl

theorem sortHits_isSorted (h : Consistent terms hits) :
    IsSorted terms hits (sortHits terms hits) where
  perm := sortHits_perm terms hits
  inOrder := sortHits_pairwise h
  stable _ := sublist_sortHits

namespace IsSorted

variable {sorted sorted' : List Record}

theorem filter_eq (h : IsSorted terms hits sorted) (hc : Consistent terms hits) {a : Record}
    (ha : a ∈ hits) :
    sorted.filter (fun b => compareRecords a b terms = .eq) =
      hits.filter fun b => compareRecords a b terms = .eq := by
  have hle {b c : Record} (hb : b ∈ hits) (hc' : c ∈ hits) (hab : compareRecords a b terms = .eq)
      (hac : compareRecords a c terms = .eq) : compareRecords b c terms ≠ .gt :=
    hc b hb a ha c hc' (by simp [compareRecords_eq_symm hab]) (by simp [hac])
  have htied : (hits.filter fun b => compareRecords a b terms = .eq).Pairwise
      fun b c => compareRecords b c terms = .eq := by
    refine List.pairwise_of_forall_mem_list fun b hb c hc' => ?_
    simp only [List.mem_filter, decide_eq_true_eq] at hb hc'
    exact compareRecords_eq_of_ne_gt (hle hb.1 hc'.1 hb.2 hc'.2) (hle hc'.1 hb.1 hc'.2 hb.2)
  have hsub := (h.stable _ List.filter_sublist htied).filter fun b => compareRecords a b terms = .eq
  rw [List.filter_filter] at hsub
  simp only [Bool.and_self] at hsub
  exact (hsub.eq_of_length (h.perm.filter _).length_eq.symm).symm

theorem head_ne_gt {x y : Record} {xs : List Record}
    (h : (x :: xs).Pairwise fun a b => compareRecords a b terms ≠ .gt) (hy : y ∈ x :: xs) :
    compareRecords x y terms ≠ .gt := by
  rcases List.mem_cons.1 hy with rfl | hy
  · simp [compareRecords_self]
  · exact List.rel_of_pairwise_cons h hy

theorem eq_of_filter_eq {xs ys : List Record} (hperm : xs.Perm ys)
    (hxs : xs.Pairwise fun a b => compareRecords a b terms ≠ .gt)
    (hys : ys.Pairwise fun a b => compareRecords a b terms ≠ .gt)
    (hfilter : ∀ a ∈ xs, xs.filter (fun b => compareRecords a b terms = .eq) =
      ys.filter fun b => compareRecords a b terms = .eq) : xs = ys := by
  induction xs generalizing ys with
  | nil => exact hperm.nil_eq
  | cons x xs ih =>
    obtain ⟨y, ys, rfl⟩ := List.exists_cons_of_ne_nil fun hnil : ys = [] => by simp [hnil] at hperm
    have hxy := head_ne_gt hxs (hperm.mem_iff.2 List.mem_cons_self)
    have hyx := head_ne_gt hys (hperm.mem_iff.1 List.mem_cons_self)
    -- Both heads are least, so they tie, and each is the first of those that do.
    have hheads := hfilter x List.mem_cons_self
    simp only [List.filter_cons, compareRecords_self, compareRecords_eq_of_ne_gt hxy hyx,
      decide_true, if_true] at hheads
    obtain ⟨rfl, -⟩ := List.cons.inj hheads
    refine congrArg (x :: ·) (ih hperm.cons_inv hxs.tail hys.tail fun a ha => ?_)
    have ha' := hfilter a (List.mem_cons_of_mem x ha)
    rw [List.filter_cons, List.filter_cons] at ha'
    split at ha'
    · exact (List.cons.inj ha').2
    · exact ha'

/-- A consistent comparison leaves one order, whichever stable sort finds it. -/
theorem unique (hc : Consistent terms hits) (h : IsSorted terms hits sorted)
    (h' : IsSorted terms hits sorted') : sorted = sorted' := by
  refine eq_of_filter_eq (h.perm.trans h'.perm.symm) h.inOrder h'.inOrder fun a ha => ?_
  have hmem := h.perm.mem_iff.1 ha
  exact (h.filter_eq hc hmem).trans (h'.filter_eq hc hmem).symm

theorem exists_first (h : IsSorted terms hits sorted) (hne : hits ≠ []) :
    ∃ a ∈ hits, ∀ b ∈ hits, compareRecords b a terms ≠ .lt := by
  obtain ⟨a, later, rfl⟩ := List.exists_cons_of_ne_nil fun hnil : sorted = [] =>
    hne (hnil ▸ h.perm).nil_eq.symm
  refine ⟨a, h.perm.mem_iff.1 List.mem_cons_self, fun b hb hlt => ?_⟩
  apply head_ne_gt h.inOrder (h.perm.mem_iff.2 hb)
  rw [← compareRecords_swap, hlt]
  rfl

end IsSorted

end Sorting

section Terms

theorem nextWord?_append {word rest : List Char} (hne : word ≠ [])
    (hw : ∀ c ∈ word, Text.isBlank c = false) (hr : ∀ c ∈ rest.head?, Text.isBlank c = true) :
    Text.nextWord? (word ++ rest) = some (word, rest) := by
  obtain ⟨c, r, rfl⟩ := List.exists_cons_of_ne_nil hne
  have hc := hw c List.mem_cons_self
  have hs : Text.span (fun c => !Text.isBlank c) ((c :: r) ++ rest) = (c :: r, rest) :=
    Text.span_append (fun d hd => by simp [hw d hd]) (fun d hd => by simp [hr d hd])
  unfold Text.nextWord?
  rw [List.cons_append, Text.trimStart_eq_self (by simpa using hc)]
  exact congrArg some hs

/-- The text of a sort key is read back as the key, unless a blank cuts its name. -/
theorem sortTerm?_key (key : SortKey) (h : Text.hasBlank key.field.name = false) :
    sortTerm? (key.field.name ++ " " ++ key.direction.word) =
      some (key.field.name, decide (key.direction = .desc)) := by
  obtain ⟨⟨name, hv⟩, direction⟩ := key
  have hname : ∀ c ∈ name.toList, Text.isBlank c = false := by
    simpa [Text.hasBlank] using h
  have hne : name.toList ≠ [] := by
    intro he
    simp [Text.isBlankText, he] at hv
  have htext : (name ++ " " ++ direction.word).toList =
      name.toList ++ ' ' :: direction.word.toList := by simp
  have hrest : Text.nextWord? (' ' :: direction.word.toList) =
      some (direction.word.toList, []) := by
    cases direction <;> rfl
  simp only [sortTerm?]
  rw [htext, nextWord?_append hne hname (by simp [Text.isBlank_space]), Option.map_some]
  simp only [hrest, String.ofList_toList]
  cases direction <;> rfl

end Terms

end Index

end SearchMapper
