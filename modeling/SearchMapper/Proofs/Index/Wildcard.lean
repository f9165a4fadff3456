import SearchMapper.Index.Wildcard
import SearchMapper.Proofs.Text.Scanning

namespace SearchMapper.Index.Wildcard

open Text (pieces)

/-- The value is the pattern with some text, empty or not, in the place of each star. -/
inductive Filled : List Char → List Char → Prop
  | nil : Filled [] []
  | char {c : Char} {pattern value : List Char} (hc : c ≠ '*') (h : Filled pattern value) :
      Filled (c :: pattern) (c :: value)
  | star (gap : List Char) {pattern value : List Char} (h : Filled pattern value) :
      Filled ('*' :: pattern) (gap ++ value)

/-- The text is made of the pieces in their order, with a gap in front of each and none behind the
last. -/
inductive Spaced : List (List Char) → List Char → Prop
  | nil : Spaced [] []
  | cons (gap piece : List Char) {rest : List (List Char)} {value : List Char}
      (h : Spaced rest value) : Spaced (piece :: rest) (gap ++ (piece ++ value))

variable {pattern value piece : List Char} {sought rest : List (List Char)}

theorem spaced_nil : Spaced [] value ↔ value = [] := by
  constructor
  · rintro ⟨⟩
    rfl
  · rintro rfl
    exact .nil

theorem Spaced.append_left (h : Spaced (piece :: rest) value) (front : List Char) :
    Spaced (piece :: rest) (front ++ value) := by
  cases h with
  | cons gap piece h =>
    rw [← List.append_assoc]
    exact .cons (front ++ gap) piece h

theorem matchesFrom_iff_spaced (hne : sought ≠ []) :
    matchesFrom sought value = true ↔ Spaced sought value := by
  fun_induction matchesFrom sought value with
  | case1 => exact absurd rfl hne
  | case2 last value =>
    rw [Option.isSome_iff_exists]
    constructor
    · rintro ⟨gap, hgap⟩
      rw [Text.before?_eq_some_iff.1 hgap, ← List.append_nil last]
      simpa using Spaced.cons gap last .nil
    · intro h
      cases h with
      | cons gap last h =>
        rw [spaced_nil.1 h, List.append_nil]
        exact ⟨gap, Text.before?_eq_some_iff.2 rfl⟩
  | case3 piece next rest value before behind hcut ih =>
    rw [ih (List.cons_ne_nil next rest)]
    constructor
    · intro h
      rw [Text.eq_append_of_cut? hcut]
      exact .cons before piece h
    · intro h
      cases h with
      | cons gap piece h =>
        -- The piece may occur earlier; the next gap then grows by what lies between.
        obtain ⟨front, space, hfirst⟩ := Text.exists_cut?_append gap piece _
        obtain ⟨-, rfl⟩ := Prod.mk.inj (Option.some.inj (hcut.symm.trans hfirst))
        exact h.append_left space
  | case4 piece next rest value hcut =>
    refine iff_of_false Bool.false_ne_true fun h => ?_
    cases h with
    | cons gap piece h =>
      obtain ⟨front, space, hfirst⟩ := Text.exists_cut?_append gap piece _
      rw [hcut] at hfirst
      cases hfirst

theorem filled_iff_spaced (hpieces : pieces '*' pattern = piece :: rest) :
    Filled pattern value ↔ ∃ behind, value = piece ++ behind ∧ Spaced rest behind := by
  induction pattern generalizing piece rest value with
  | nil =>
    obtain ⟨rfl, rfl⟩ := List.cons.inj hpieces
    constructor
    · rintro ⟨⟩
      exact ⟨[], rfl, .nil⟩
    · rintro ⟨behind, rfl, h⟩
      rw [spaced_nil.1 h]
      exact .nil
  | cons c pattern ih =>
    obtain ⟨p, ps, hp⟩ := List.exists_cons_of_ne_nil (Text.pieces_ne_nil '*' pattern)
    by_cases hc : c = '*'
    · -- A star begins a piece, and what the star stands for is the gap in front of it.
      subst hc
      rw [pieces, if_pos rfl, hp] at hpieces
      obtain ⟨rfl, rfl⟩ := List.cons.inj hpieces
      constructor
      · intro h
        cases h with
        | char hc _ => exact absurd rfl hc
        | star gap h =>
          obtain ⟨behind, rfl, hspaced⟩ := (ih hp).1 h
          exact ⟨_, rfl, .cons gap p hspaced⟩
      · rintro ⟨behind, rfl, h⟩
        cases h with
        | cons gap piece h => exact .star gap ((ih hp).2 ⟨_, rfl, h⟩)
    · rw [pieces, if_neg hc, hp] at hpieces
      obtain ⟨rfl, rfl⟩ := List.cons.inj hpieces
      constructor
      · intro h
        cases h with
        | char _ h =>
          obtain ⟨behind, rfl, hspaced⟩ := (ih hp).1 h
          exact ⟨behind, rfl, hspaced⟩
        | star gap h => exact absurd rfl hc
      · rintro ⟨behind, rfl, h⟩
        exact .char hc ((ih hp).2 ⟨behind, rfl, h⟩)

/-- A pattern matches exactly the texts that fill its stars. -/
theorem matchesText_iff_filled (pattern value : List Char) :
    matchesText pattern value = true ↔ Filled pattern value := by
  by_cases hstar : '*' ∈ pattern
  · obtain ⟨first, next, rest, hpieces⟩ := Text.exists_pieces_of_mem hstar
    rw [filled_iff_spaced hpieces, matchesText, hpieces]
    constructor
    · intro h
      dsimp only at h
      split at h
      · next behind hafter =>
        exact ⟨behind, Text.eq_append_of_after? hafter,
          (matchesFrom_iff_spaced (List.cons_ne_nil next rest)).1 h⟩
      · cases h
    · rintro ⟨behind, rfl, h⟩
      simp only [Text.after?_append]
      exact (matchesFrom_iff_spaced (List.cons_ne_nil next rest)).2 h
  · have hpieces := Text.pieces_eq_singleton hstar
    rw [filled_iff_spaced hpieces, matchesText, hpieces]
    simp [spaced_nil, eq_comm]

example : matchesText ['a', '*', 'a'] ['a'] = false := by
  decide

end SearchMapper.Index.Wildcard
