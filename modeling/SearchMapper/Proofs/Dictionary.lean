import Mathlib.Data.Set.Card
import Mathlib.Data.String.Basic
import Mathlib.Logic.Function.Basic
import SearchMapper.Dictionary

namespace SearchMapper.Dictionary

variable {α β : Type} {d : Dictionary α} {m : String → Option α} {entry : String × α}

instance (d : Dictionary α) : Decidable d.Sorted :=
  inferInstanceAs (Decidable (List.Pairwise _ d))

theorem mem_insert {key : String} {value : α} (h : entry ∈ insert key value d) :
    entry = (key, value) ∨ entry ∈ d := by
  induction d with
  | nil => exact .inl (List.mem_singleton.1 h)
  | cons first d ih =>
    obtain ⟨k, v⟩ := first
    simp only [insert] at h
    split at h
    · exact (List.mem_cons.1 h).imp_right (List.mem_cons_of_mem _)
    · split at h
      · exact List.mem_cons.1 h
      · obtain rfl | h := List.mem_cons.1 h
        · exact .inr List.mem_cons_self
        · exact (ih h).imp_right (List.mem_cons_of_mem _)

theorem Sorted.insert (h : Sorted d) (key : String) (value : α) :
    Sorted (Dictionary.insert key value d) := by
  induction d with
  | nil => exact List.pairwise_singleton _ _
  | cons first d ih =>
    obtain ⟨k, v⟩ := first
    obtain ⟨hfirst, hd⟩ := List.pairwise_cons.1 h
    simp only [Dictionary.insert]
    split
    · next hk =>
      subst hk
      exact List.pairwise_cons.2 ⟨hfirst, hd⟩
    · next hne =>
      split
      · next hlt =>
        refine List.pairwise_cons.2 ⟨fun entry hm => ?_, h⟩
        obtain rfl | hm := List.mem_cons.1 hm
        · exact hlt
        · exact lt_trans hlt (hfirst entry hm)
      · next hnlt =>
        refine List.pairwise_cons.2 ⟨fun entry hm => ?_, ih hd⟩
        obtain rfl | hm := mem_insert hm
        · exact lt_of_le_of_ne (not_lt.1 hnlt) hne
        · exact hfirst entry hm

theorem find?_eq_none {key : String} (h : ∀ entry ∈ d, entry.1 ≠ key) : d.find? key = none := by
  induction d with
  | nil => rfl
  | cons first d ih =>
    obtain ⟨k, v⟩ := first
    have hk : k ≠ key := h (k, v) List.mem_cons_self
    rw [find?, if_neg hk]
    exact ih fun entry hm => h entry (List.mem_cons_of_mem _ hm)

/-- Without the order an entry that is filtered away could uncover another one with its key. -/
theorem Sorted.find?_filter (h : Sorted d) (p : String × α → Bool) (key : String) :
    find? key (d.filter p) = (d.find? key).filter fun value => p (key, value) := by
  induction d with
  | nil => rfl
  | cons first d ih =>
    obtain ⟨k, v⟩ := first
    obtain ⟨hfirst, hd⟩ := List.pairwise_cons.1 h
    by_cases hk : k = key
    · subst hk
      have hrest : find? k (d.filter p) = none := find?_eq_none fun entry hm =>
        (hfirst entry (List.mem_filter.1 hm).1).ne'
      by_cases hp : p (k, v) <;> simp [find?, hp, hrest, Option.filter_some]
    · have hrest := ih hd
      by_cases hp : p (k, v) <;> simp [find?, hp, hk, hrest]

theorem mem_of_find? {key : String} {value : α} (h : d.find? key = some value) :
    (key, value) ∈ d := by
  induction d with
  | nil => cases h
  | cons first d ih =>
    obtain ⟨k, v⟩ := first
    rw [find?] at h
    split at h
    · next hk =>
      subst hk
      cases h
      exact List.mem_cons_self
    · exact List.mem_cons_of_mem _ (ih h)

theorem Sorted.mem_iff (h : Sorted d) {key : String} {value : α} :
    (key, value) ∈ d ↔ d.find? key = some value := by
  refine ⟨fun hm => ?_, mem_of_find?⟩
  induction d with
  | nil => cases hm
  | cons first d ih =>
    obtain ⟨k, v⟩ := first
    obtain ⟨hfirst, hd⟩ := List.pairwise_cons.1 h
    rw [find?]
    obtain heq | hm := List.mem_cons.1 hm
    · cases heq
      exact if_pos rfl
    · rw [if_neg (hfirst _ hm).ne]
      exact ih hd hm

theorem Sorted.mem_values (h : Sorted d) {value : α} :
    value ∈ d.values ↔ ∃ key, d.find? key = some value := by
  simp [values, ← h.mem_iff]

theorem Sorted.find?_values (h : Sorted d) {q : α → Bool} {value : α}
    (hv : d.values.find? q = some value) :
    ∃ key, d.find? key = some value ∧ ∀ key' other, d.find? key' = some other → q other = true →
      key ≤ key' := by
  rw [values, List.find?_map, Option.map_eq_some_iff] at hv
  obtain ⟨⟨key, _⟩, hv, rfl⟩ := hv
  obtain ⟨-, front, back, rfl, hfront⟩ := List.find?_eq_some_iff_append.1 hv
  refine ⟨key, h.mem_iff.1 (by simp), fun key' other ho hq => ?_⟩
  obtain hm | hm := List.mem_append.1 (mem_of_find? ho)
  · simpa [hq] using hfront _ hm
  · obtain heq | hm := List.mem_cons.1 hm
    · cases heq
      exact le_rfl
    · have hback := (List.pairwise_append.1 h).2.1
      exact ((List.pairwise_cons.1 hback).1 _ hm).le

theorem Sorted.filter_key (h : Sorted d) (key : String) :
    values (d.filter fun entry => entry.1 = key) = (d.find? key).toList := by
  induction d with
  | nil => rfl
  | cons first d ih =>
    obtain ⟨k, v⟩ := first
    obtain ⟨hfirst, hd⟩ := List.pairwise_cons.1 h
    by_cases hk : k = key
    · subst hk
      have hrest : find? k d = none := find?_eq_none fun entry hm => (hfirst entry hm).ne'
      have hnil := ih hd
      rw [hrest] at hnil
      rw [List.filter_cons_of_pos (by simp), find?, if_pos rfl]
      exact congrArg (v :: ·) hnil
    · rw [List.filter_cons_of_neg (by simpa using hk), find?, if_neg hk]
      exact ih hd

theorem Sorted.ext {d' : Dictionary α} (h : Sorted d) (h' : Sorted d')
    (heq : ∀ key, d.find? key = d'.find? key) : d = d' := by
  have hperm : d.Perm d' := by
    refine (List.perm_ext_iff_of_nodup (h.imp fun hlt he => ?_) (h'.imp fun hlt he => ?_)).2 ?_
    · exact hlt.ne (congrArg Prod.fst he)
    · exact hlt.ne (congrArg Prod.fst he)
    · rintro ⟨key, value⟩
      rw [h.mem_iff, h'.mem_iff, heq]
  exact hperm.eq_of_pairwise (fun a b _ _ hab hba => absurd hab hba.asymm) h h'

theorem Sorted.find?_filterMap (h : Sorted d) (f : String → α → Option β) (key : String) :
    find? key (d.filterMap fun entry => (f entry.1 entry.2).map (entry.1, ·)) =
      (d.find? key).bind (f key) := by
  induction d with
  | nil => rfl
  | cons first d ih =>
    obtain ⟨k, v⟩ := first
    obtain ⟨hfirst, hd⟩ := List.pairwise_cons.1 h
    rw [List.filterMap_cons, find?]
    by_cases hk : k = key
    · subst hk
      have hnone : find? k d = none := find?_eq_none fun entry hm => (hfirst entry hm).ne'
      cases hf : f k v with
      | none => simp [hf, ih hd, hnone]
      | some w => simp [hf, find?]
    · cases hf : f k v with
      | none => simp [hk, ih hd]
      | some w => simp [find?, hk, ih hd]

theorem Sorted.filterMap (h : Sorted d) (f : String → α → Option β) :
    Sorted (d.filterMap fun entry => (f entry.1 entry.2).map (entry.1, ·)) := by
  refine List.Pairwise.filterMap _ (fun a b hlt c hc e he => ?_) h
  obtain ⟨-, -, rfl⟩ := Option.map_eq_some_iff.1 hc
  obtain ⟨-, -, rfl⟩ := Option.map_eq_some_iff.1 he
  exact hlt

theorem find?_insertAll (entries : List (String × α)) (d : Dictionary α) (key : String) :
    (insertAll entries d).find? key =
      ((entries.reverse.find? fun entry => entry.1 = key).map Prod.snd).or (d.find? key) := by
  induction entries generalizing d with
  | nil => rfl
  | cons entry entries ih =>
    have hstep : (d.insert entry.1 entry.2).find? key =
        (([entry].find? fun entry => entry.1 = key).map Prod.snd).or (d.find? key) := by
      rw [find?_insert]
      by_cases hk : entry.1 = key <;> simp [hk]
    have hall : insertAll (entry :: entries) d = insertAll entries (d.insert entry.1 entry.2) := rfl
    rw [hall, ih, hstep, List.reverse_cons, List.find?_append, Option.map_or, Option.or_assoc]

theorem insertAll_append (front back : List (String × α)) (d : Dictionary α) :
    insertAll (front ++ back) d = insertAll back (insertAll front d) :=
  List.foldl_append

theorem insert_insert (key : String) (value value' : α) (d : Dictionary α) :
    insert key value (insert key value' d) = insert key value d := by
  induction d with
  | nil => simp [insert]
  | cons first d ih =>
    obtain ⟨k, v⟩ := first
    by_cases hk : k = key
    · simp [insert, hk]
    · by_cases hlt : key < k <;> simp [insert, hk, hlt, ih]

theorem Sorted.insert_eq_self_iff (h : Sorted d) {key : String} {value : α} :
    Dictionary.insert key value d = d ↔ d.find? key = some value := by
  constructor
  · intro he
    rw [← he, find?_insert, if_pos rfl]
  · intro hv
    refine (h.insert key value).ext h fun key' => ?_
    rw [find?_insert]
    split
    · next hk => rw [← hk, hv]
    · rfl

theorem find?_ofList_iff_last {entries : List (String × α)} {key : String} {value : α} :
    (ofList entries).find? key = some value ↔
      ∃ front back, entries = front ++ (key, value) :: back ∧ ∀ entry ∈ back, entry.1 ≠ key := by
  rw [ofList, find?_insertAll, find?_nil, Option.or_none, Option.map_eq_some_iff]
  constructor
  · rintro ⟨⟨k, v⟩, hfind, rfl⟩
    obtain ⟨hk, back, front, hentries, hback⟩ := List.find?_eq_some_iff_append.1 hfind
    obtain rfl : k = key := by simpa using hk
    refine ⟨front.reverse, back.reverse, ?_, fun entry hm => ?_⟩
    · rw [← List.reverse_reverse entries, hentries]
      simp
    · simpa using hback entry (List.mem_reverse.1 hm)
  · rintro ⟨front, back, rfl, hback⟩
    refine ⟨(key, value), List.find?_eq_some_iff_append.2 ⟨by simp, back.reverse, front.reverse, ?_,
      fun entry hm => ?_⟩, rfl⟩
    · simp
    · simpa using hback entry (List.mem_reverse.1 hm)

/-- If the entries with a key agree, none of them hides another one. -/
theorem find?_ofList_eq_some_iff {entries : List (String × α)} {key : String}
    (h : ∀ v w, (key, v) ∈ entries → (key, w) ∈ entries → v = w) {value : α} :
    (ofList entries).find? key = some value ↔ (key, value) ∈ entries := by
  rw [ofList, find?_insertAll, find?_nil, Option.or_none]
  cases hfind : entries.reverse.find? fun entry => entry.1 = key with
  | none =>
    refine ⟨nofun, fun hm => ?_⟩
    simpa using List.find?_eq_none.1 hfind _ (List.mem_reverse.2 hm)
  | some entry =>
    obtain ⟨k, v⟩ := entry
    have hk : k = key := by simpa using List.find?_some hfind
    subst hk
    have hv : (k, v) ∈ entries := List.mem_reverse.1 (List.mem_of_find?_eq_some hfind)
    rw [Option.map_some, Option.some.injEq]
    constructor
    · rintro rfl
      exact hv
    · exact h v value hv

theorem sorted_ofList (entries : List (String × α)) : Sorted (ofList entries) := by
  have hfrom (d : Dictionary α) (h : Sorted d) : Sorted (insertAll entries d) := by
    induction entries generalizing d with
    | nil => exact h
    | cons entry entries ih => exact ih _ (h.insert entry.1 entry.2)
  exact hfrom [] List.Pairwise.nil

theorem Sorted.ofList_eq (h : Sorted d) {entries : List (String × α)} (hperm : entries.Perm d) :
    ofList entries = d := by
  apply (sorted_ofList entries).ext h
  intro key
  apply Option.ext
  intro value
  rw [find?_ofList_eq_some_iff, hperm.mem_iff, h.mem_iff]
  intro v w hv hw
  rw [hperm.mem_iff, h.mem_iff] at hv hw
  exact Option.some.inj (hv.symm.trans hw)

theorem find?_map (f : String → α → β) (d : Dictionary α) (key : String) :
    find? key (d.map fun entry => (entry.1, f entry.1 entry.2)) = (d.find? key).map (f key) := by
  induction d with
  | nil => rfl
  | cons first d ih =>
    obtain ⟨k, v⟩ := first
    by_cases hk : k = key
    · subst hk
      simp [find?]
    · simp [find?, hk, ih]

theorem Sorted.map (h : Sorted d) (f : String → α → β) :
    Sorted (d.map fun entry => (entry.1, f entry.1 entry.2)) :=
  List.pairwise_map.2 h

theorem isSome_find?_iff {key : String} : (d.find? key).isSome ↔ key ∈ d.map Prod.fst := by
  induction d with
  | nil => simp
  | cons first d ih =>
    obtain ⟨k, v⟩ := first
    by_cases hk : k = key
    · simp [find?, hk]
    · simp [find?, hk, Ne.symm hk, ← ih]

theorem contains_insert_eq_false_iff {key key' : String} {value : α} :
    (insert key value d).contains key' = false ↔ key ≠ key' ∧ d.contains key' = false := by
  by_cases hk : key = key' <;> simp [contains, find?_insert, hk]

/-- Sorted entries that hold what a partial function does. -/
structure Represents (d : Dictionary α) (m : String → Option α) : Prop where
  sorted : d.Sorted
  find?_eq : ∀ key, d.find? key = m key

namespace Represents

theorem nil : Represents ([] : Dictionary α) fun _ => none :=
  ⟨List.Pairwise.nil, fun _ => rfl⟩

theorem insert (h : d.Represents m) (key : String) (value : α) :
    Represents (Dictionary.insert key value d) (Function.update m key (some value)) := by
  refine ⟨h.sorted.insert key value, fun k => ?_⟩
  rw [find?_insert, h.find?_eq, Function.update_apply]
  simp only [eq_comm]

theorem erase (h : d.Represents m) (key : String) :
    Represents (Dictionary.erase key d) (Function.update m key none) := by
  refine ⟨List.Pairwise.filter _ h.sorted, fun k => ?_⟩
  rw [find?_erase, h.find?_eq, Function.update_apply]
  simp only [eq_comm]

theorem filter (h : d.Represents m) (p : α → Bool) :
    Represents (d.filter fun entry => p entry.2) fun key => (m key).filter p := by
  refine ⟨List.Pairwise.filter _ h.sorted, fun key => ?_⟩
  rw [h.sorted.find?_filter, h.find?_eq]

theorem length_eq (h : d.Represents m) :
    d.length = Set.ncard {key | (m key).isSome} := by
  have hkeys : {key | (m key).isSome} = ↑(d.map Prod.fst).toFinset := by
    ext key
    simp only [Set.mem_ofPred_eq, ← h.find?_eq, isSome_find?_iff, List.coe_toFinset]
  have hnodup : (d.map Prod.fst).Nodup :=
    List.pairwise_map.2 (h.sorted.imp fun hlt => hlt.ne)
  rw [hkeys, Set.ncard_coe_finset, List.toFinset_card_of_nodup hnodup, List.length_map]

end Represents

end SearchMapper.Dictionary
