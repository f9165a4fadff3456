import Mathlib.Data.List.Infix
import SearchMapper.Proofs.Text.Scanning
import SearchMapper.Text.LetterCase

namespace SearchMapper.Text

/-- A word ends in front of the text: it stops there, or goes on with a capital. -/
def WordEnd (s : List Char) : Prop :=
  s = [] ∨ startsUpper s = true

def Begins (word s : List Char) : Prop :=
  ∃ rest, s = word ++ rest ∧ WordEnd rest

/-- The word stands somewhere in the text, with a capital or nothing behind it. -/
def StandsIn (word s : List Char) : Prop :=
  ∃ t, t <:+ s ∧ Begins word t

instance (s : List Char) : Decidable (WordEnd s) :=
  inferInstanceAs (Decidable (_ ∨ _))

variable {k c : Char} {ks word s a b : List Char}

theorem ne_nil_of_startsUpper (h : startsUpper s = true) : s ≠ [] := by
  rintro rfl
  cases h

theorem startsUpper_append (h : startsUpper a = true) (b : List Char) :
    startsUpper (a ++ b) = true := by
  cases a with
  | nil => cases h
  | cons c a => exact h

theorem wordEnd_append (hb : WordEnd b) : WordEnd (a ++ b) ↔ WordEnd a := by
  cases a with
  | nil => exact ⟨fun _ => .inl rfl, fun _ => hb⟩
  | cons c a => simp [WordEnd, startsUpper]

theorem WordEnd.notMem_of_head? (hb : WordEnd b) (hks : ks.any isUpper = false) :
    ∀ d ∈ b.head?, d ∉ ks := by
  intro d hd hm
  obtain ⟨rest, rfl⟩ := List.head?_eq_some_iff.1 hd
  obtain hnil | hupper := hb
  · cases hnil
  · exact List.any_eq_false.1 hks d hm hupper

theorem begins_iff : Begins word s ↔ ∃ rest, after? word s = some rest ∧ WordEnd rest := by
  simp only [Begins, after?_eq_some_iff]

instance (word s : List Char) : Decidable (Begins word s) :=
  decidable_of_iff (∃ rest ∈ after? word s, WordEnd rest) begins_iff.symm

instance (word s : List Char) : Decidable (StandsIn word s) :=
  decidable_of_iff (∃ t ∈ s.tails, Begins word t) (by simp only [StandsIn, List.mem_tails])

theorem standsIn_cons : StandsIn word (c :: s) ↔ Begins word (c :: s) ∨ StandsIn word s := by
  simp only [StandsIn, List.suffix_cons_iff, or_and_right, exists_or, exists_eq_left]

theorem after?_append_of_notMem (hb : ∀ d ∈ b.head?, d ∉ word) (a : List Char) :
    after? word (a ++ b) = (after? word a).map (· ++ b) := by
  cases b with
  | nil => simp
  | cons d b => exact after?_append_cons (hb d rfl) a b

theorem after?_cons_append (hb : ∀ d ∈ b.head?, d ∉ ks) (c : Char) (a : List Char) :
    after? (k :: ks) (c :: a ++ b) = (after? (k :: ks) (c :: a)).map (· ++ b) := by
  rw [List.cons_append, after?, after?]
  split
  · exact after?_append_of_notMem hb a
  · rfl

theorem begins_append (hks : ks.any isUpper = false) (hb : WordEnd b) (c : Char)
    (a : List Char) : Begins (k :: ks) (c :: a ++ b) ↔ Begins (k :: ks) (c :: a) := by
  rw [begins_iff, begins_iff, after?_cons_append (hb.notMem_of_head? hks)]
  constructor
  · rintro ⟨_, hmap, hend⟩
    obtain ⟨rest, hrest, rfl⟩ := Option.map_eq_some_iff.1 hmap
    exact ⟨rest, hrest, (wordEnd_append hb).1 hend⟩
  · rintro ⟨rest, hrest, hend⟩
    exact ⟨rest ++ b, by rw [hrest]; rfl, (wordEnd_append hb).2 hend⟩

theorem not_standsIn_append (hks : ks.any isUpper = false) (hb : WordEnd b)
    (ha : ¬StandsIn (k :: ks) a) (hsb : ¬StandsIn (k :: ks) b) : ¬StandsIn (k :: ks) (a ++ b) := by
  induction a with
  | nil => exact hsb
  | cons c a ih =>
    rw [standsIn_cons, not_or] at ha
    rw [List.cons_append, standsIn_cons, not_or, ← List.cons_append, begins_append hks hb]
    exact ⟨ha.1, ih ha.2⟩

theorem cut?_eq_none_iff : cut? word s = none ↔ ¬word <:+: s := by
  induction s with
  | nil => cases word <;> simp [cut?, after?]
  | cons c s ih =>
    rw [List.infix_cons_iff, not_or, ← ih]
    cases h : after? word (c :: s) with
    | none =>
      have hbegins : ¬word <+: c :: s := by
        rintro ⟨rest, hrest⟩
        rw [← hrest, after?_append] at h
        cases h
      rw [cut?_cons s h, Option.map_eq_none_iff]
      exact (and_iff_right hbegins).symm
    | some rest =>
      have hbegins : word <+: c :: s := ⟨rest, (eq_append_of_after? h).symm⟩
      rw [cut?, h]
      simp [hbegins]

theorem cut?_append_of_not_infix (hk : k ∉ ks) (h : ¬k :: ks <:+: a) (back : List Char) :
    cut? (k :: ks) (a ++ (k :: ks ++ back)) = some (a, back) := by
  induction a with
  | nil => exact cut?_self_append _ _
  | cons c a ih =>
    have hnone := cut?_eq_none_iff.2 h
    have hb : ∀ d ∈ (k :: ks ++ back).head?, d ∉ ks := by
      rintro d hd
      cases hd
      exact hk
    have ha : after? (k :: ks) (c :: a ++ (k :: ks ++ back)) = none := by
      rw [after?_cons_append hb, after?_eq_none_of_cut? hnone]
      rfl
    rw [List.cons_append] at ha ⊢
    rw [cut?_cons _ ha, ih (cut?_eq_none_iff.1 (cut?_eq_none_of_cons hnone))]
    rfl

theorem not_infix_of_cut? {front rest : List Char} (hne : word ≠ [])
    (h : cut? word s = some (front, rest)) : ¬word <:+: front := by
  induction s generalizing front with
  | nil =>
    obtain ⟨back, hback, he⟩ := Option.map_eq_some_iff.1 h
    cases he
    simpa using hne
  | cons c s ih =>
    rw [cut?] at h
    split at h
    · cases h
      simpa using hne
    · next hafter =>
      obtain ⟨⟨front', rest'⟩, hcut, he⟩ := Option.map_eq_some_iff.1 h
      cases he
      rw [List.infix_cons_iff, not_or]
      refine ⟨?_, ih hcut⟩
      rintro ⟨back, hback⟩
      rw [eq_append_of_cut? hcut, ← List.cons_append, ← hback, List.append_assoc,
        after?_append] at hafter
      cases hafter

theorem occursIn_iff_infix : occursIn word s = true ↔ word <:+: s := by
  rw [occursIn, Option.isSome_iff_ne_none, ne_eq, cut?_eq_none_iff, not_not]

theorem intercalate_induction {P : List Char → Prop} {separator : List Char}
    (hstep : ∀ p s, P p → P s → P (p ++ (separator ++ s))) {pieces : List (List Char)}
    (hne : pieces ≠ []) (h : ∀ p ∈ pieces, P p) : P (separator.intercalate pieces) := by
  induction pieces with
  | nil => exact absurd rfl hne
  | cons p pieces ih =>
    obtain ⟨hp, hpieces⟩ := List.forall_mem_cons.1 h
    cases pieces with
    | nil => simpa using hp
    | cons q pieces =>
      rw [List.intercalate_cons_cons, List.append_assoc]
      exact hstep _ _ hp (ih (by simp) hpieces)

end SearchMapper.Text
