import Mathlib.Data.Set.Basic
import SearchMapper.Proofs.Index.SortedHits

namespace SearchMapper.Index

def TransitiveOn (values : Set String) : Prop :=
  ∀ a ∈ values, ∀ b ∈ values, ∀ c ∈ values, compareValues a b ≠ .gt → compareValues b c ≠ .gt →
    compareValues a c ≠ .gt

def numbersOf (values : Set String) : Set String :=
  {v ∈ values | (number? v).isSome}

/-- A text stands between two numbers only if these ascend, and a `nan` only beside numbers that
are all equal. -/
structure Compatible (values : Set String) : Prop where
  texts : ∀ t ∈ values, number? t = none → ∀ a ∈ numbersOf values, ∀ b ∈ numbersOf values,
    a < t → t < b → compareValues a b = .lt
  nans : ∀ n ∈ values, number? n = some .nan → ∀ a ∈ numbersOf values, ∀ b ∈ numbersOf values,
    compareValues a b = .eq

variable {values : Set String} {a b c : String}

theorem compareValues_self (a : String) : compareValues a a = .eq := by
  have hswap := compareValues_swap a a
  cases h : compareValues a a <;> simp [h] at hswap ⊢

theorem compareValues_eq_gt_iff : compareValues a b = .gt ↔ compareValues b a = .lt := by
  rw [← compareValues_swap b a]
  cases compareValues b a <;> simp

theorem compareValues_of_text (h : number? a = none ∨ number? b = none) :
    compareValues a b = cmp a b := by
  rw [← compareText_eq_cmp, compareValues]
  obtain h | h := h
  · rw [h]
  · rw [h]
    cases number? a <;> rfl

theorem le_of_compareValues (h : number? a = none ∨ number? b = none)
    (hab : compareValues a b ≠ .gt) : a ≤ b := by
  rw [compareValues_of_text h] at hab
  exact not_lt.1 (mt (cmp_eq_gt_iff a b).2 hab)

theorem compareValues_of_nan (ha : number? a = some .nan) (hb : (number? b).isSome) :
    compareValues a b = .eq := by
  obtain ⟨x, hx⟩ := Option.isSome_iff_exists.1 hb
  rw [compareValues, ha, hx]
  rfl

theorem ne_of_number (ha : (number? a).isSome) (hb : number? b = none) : a ≠ b := by
  rintro rfl
  simp [hb] at ha

theorem compareValues_trans_of_numbers (h : ∀ v ∈ [a, b, c], ∃ x, number? v = some x ∧ x ≠ .nan)
    (hab : compareValues a b ≠ .gt) (hbc : compareValues b c ≠ .gt) : compareValues a c ≠ .gt := by
  have hcmp {v w : String} (hv : v ∈ [a, b, c]) (hw : w ∈ [a, b, c]) :
      compareValues v w ≠ .gt ↔ rankOf v ≤ rankOf w := by
    rw [compareValues_eq_cmp (.inl h) hv hw, Ne, cmp_eq_gt_iff, not_lt]
  rw [hcmp (by simp) (by simp)] at hab hbc ⊢
  exact hab.trans hbc

theorem Compatible.trans_of_numbers (h : Compatible values) (ha : a ∈ numbersOf values)
    (hb : b ∈ numbersOf values) (hc : c ∈ numbersOf values) (hab : compareValues a b ≠ .gt)
    (hbc : compareValues b c ≠ .gt) : compareValues a c ≠ .gt := by
  have hall : ∀ v ∈ [a, b, c], v ∈ numbersOf values := by simp [ha, hb, hc]
  by_cases hnan : ∃ v ∈ [a, b, c], number? v = some .nan
  · obtain ⟨v, hv, hnan⟩ := hnan
    rw [h.nans v (hall v hv).1 hnan a ha c hc]
    decide
  · refine compareValues_trans_of_numbers (fun v hv => ?_) hab hbc
    obtain ⟨x, hx⟩ := Option.isSome_iff_exists.1 (hall v hv).2
    exact ⟨x, hx, fun he => hnan ⟨v, hv, he ▸ hx⟩⟩

theorem Compatible.transitiveOn (h : Compatible values) : TransitiveOn values := by
  intro a ha b hb c hc hab hbc
  have hnumber {v : String} (hv : v ∈ values) (hn : number? v ≠ none) : v ∈ numbersOf values :=
    ⟨hv, Option.isSome_iff_ne_none.2 hn⟩
  by_cases hb' : number? b = none
  · have hle := le_of_compareValues (.inr hb') hab
    have hle' := le_of_compareValues (.inl hb') hbc
    by_cases hac : number? a = none ∨ number? c = none
    · rw [compareValues_of_text hac, Ne, cmp_eq_gt_iff, not_lt]
      exact hle.trans hle'
    · obtain ⟨ha', hc'⟩ := not_or.1 hac
      -- two numbers around a text
      have hlt : a < b := hle.lt_of_ne (ne_of_number (hnumber ha ha').2 hb')
      have hlt' : b < c := hle'.lt_of_ne' (ne_of_number (hnumber hc hc').2 hb')
      rw [h.texts b hb hb' a (hnumber ha ha') c (hnumber hc hc') hlt hlt']
      decide
  · intro hgt
    by_cases ha' : number? a = none
    · have hle := le_of_compareValues (.inl ha') hab
      have hlt : c < a := (cmp_eq_gt_iff a c).1 (by rw [← compareValues_of_text (.inl ha'), hgt])
      by_cases hc' : number? c = none
      · exact absurd (hle.trans (le_of_compareValues (.inr hc') hbc)) hlt.not_ge
      · have hlt' : a < b := hle.lt_of_ne' (ne_of_number (hnumber hb hb').2 ha')
        have hcb := h.texts a ha ha' c (hnumber hc hc') b (hnumber hb hb') hlt hlt'
        exact hbc (compareValues_eq_gt_iff.2 hcb)
    · by_cases hc' : number? c = none
      · have hlt : b < c :=
          (le_of_compareValues (.inr hc') hbc).lt_of_ne (ne_of_number (hnumber hb hb').2 hc')
        have hlt' : c < a := (cmp_eq_gt_iff a c).1 (by rw [← compareValues_of_text (.inr hc'), hgt])
        have hba := h.texts c hc hc' b (hnumber hb hb') a (hnumber ha ha') hlt hlt'
        exact hab (compareValues_eq_gt_iff.2 hba)
      · exact h.trans_of_numbers (hnumber ha ha') (hnumber hb hb') (hnumber hc hc') hab hbc hgt

theorem TransitiveOn.compatible (h : TransitiveOn values) : Compatible values where
  texts t ht htext a ha b hb hat htb := by
    have hat' : compareValues a t = .lt := by
      rw [compareValues_of_text (.inr htext), (cmp_eq_lt_iff a t).2 hat]
    have htb' : compareValues t b = .lt := by
      rw [compareValues_of_text (.inl htext), (cmp_eq_lt_iff t b).2 htb]
    -- were they equal, the larger text would not be above the smaller one
    cases hab : compareValues a b with
    | lt => rfl
    | gt => exact absurd hab (h a ha.1 t ht b hb.1 (by simp [hat']) (by simp [htb']))
    | eq =>
      have hba : compareValues b a = .eq := by rw [← compareValues_swap, hab]; rfl
      have hbt := h b hb.1 a ha.1 t ht (by simp [hba]) (by simp [hat'])
      exact absurd (compareValues_eq_gt_iff.2 htb') hbt
  nans n hn hnan a ha b hb := by
    have hna : compareValues n a = .eq := compareValues_of_nan hnan ha.2
    have hnb : compareValues n b = .eq := compareValues_of_nan hnan hb.2
    have han : compareValues a n = .eq := by rw [← compareValues_swap, hna]; rfl
    have hbn : compareValues b n = .eq := by rw [← compareValues_swap, hnb]; rfl
    have hab := h a ha.1 n hn b hb.1 (by simp [han]) (by simp [hnb])
    have hba := h b hb.1 n hn a ha.1 (by simp [hbn]) (by simp [hna])
    rw [Ne, compareValues_eq_gt_iff] at hba
    cases he : compareValues a b with
    | eq => rfl
    | lt => exact absurd he hba
    | gt => exact absurd he hab

/-- All values are equal to themselves and compare the same from both sides. What they lack of an
order is that a text may stand between numbers that do not ascend, and a `nan` beside numbers that
differ; on all values where neither is so, the comparison is transitive. -/
theorem compareValues_transitiveOn_iff (values : Set String) :
    (∀ a, compareValues a a = .eq) ∧ (∀ a b, compareValues b a = (compareValues a b).swap) ∧
      (TransitiveOn values ↔ Compatible values) :=
  ⟨compareValues_self, fun a b => (compareValues_swap a b).symm,
    TransitiveOn.compatible, Compatible.transitiveOn⟩

theorem compareValues_transitiveOn_rooms : TransitiveOn {"9", "10", "attic"} := by
  have hnine : (number? "9").any (· ≠ .nan) = true := by decide
  have hten : (number? "10").any (· ≠ .nan) = true := by decide
  have hattic : (number? "attic").isNone = true := by decide
  have hlast : ∀ b ∈ ({"9", "10", "attic"} : Set String), ¬"attic" < b := by
    rintro b (rfl | rfl | rfl) <;> decide
  refine (compareValues_transitiveOn_iff _).2.2.2 ⟨?_, ?_⟩
  · rintro t (rfl | rfl | rfl) htext a - b hb - htb
    · simp [htext] at hnine
    · simp [htext] at hten
    · exact absurd htb (hlast b hb.1)
  · rintro n (rfl | rfl | rfl) hnan
    · simp [hnan] at hnine
    · simp [hnan] at hten
    · simp [hnan] at hattic

/-- As a text `1a` stands between `10` and `2`, which are the other way round as numbers. So a range
up to `1a` holds `10`, and one up to `2` holds `1a` but not `10`. -/
theorem compareValues_circle :
    compareValues "10" "1a" = .lt ∧ compareValues "1a" "2" = .lt ∧ compareValues "10" "2" = .gt ∧
      (Test.range none (some "1a") true true).holds ["10"] = true ∧
      (Test.range none (some "2") true true).holds ["1a"] = true ∧
      (Test.range none (some "2") true true).holds ["10"] = false := by
  decide

end SearchMapper.Index
