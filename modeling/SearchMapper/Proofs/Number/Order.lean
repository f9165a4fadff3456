import Mathlib
import SearchMapper.Number.Binary

namespace SearchMapper.Number.Binary

variable {F : Format}

/-- A rational, or one of the infinities. -/
abbrev Extended := WithBot (WithTop ℚ)

def signed (negative : Bool) (m : Nat) : Int :=
  if negative then -m else m

def value? : Binary F → Option Extended
  | finite s m q _ => some ((signed s m * 2 ^ q : ℚ) : WithTop ℚ)
  | infinite s => some (if s then ⊥ else ((⊤ : WithTop ℚ) : Extended))
  | nan => none

theorem value?_eq_none_iff {x : Binary F} : x.value? = none ↔ x = nan := by
  cases x <;> simp [value?]

theorem multiple_eq (s : Bool) (m : Nat) {q e : Int} (h : e ≤ q) :
    (multiple s m q e : ℚ) * 2 ^ e = signed s m * 2 ^ q := by
  have hpow : (2 : ℚ) ^ q = 2 ^ (q - e).toNat * 2 ^ e := by
    rw [← zpow_natCast, ← zpow_add₀ two_ne_zero, Int.toNat_of_nonneg (by omega), sub_add_cancel]
  rw [hpow, ← mul_assoc]
  congr 1
  cases s <;> simp [multiple, signed]

theorem strictMono_scaled (e : Int) :
    StrictMono fun n : Int => (((n * 2 ^ e : ℚ) : WithTop ℚ) : Extended) := by
  intro n k h
  have hpos : (0 : ℚ) < 2 ^ e := zpow_pos two_pos e
  have hlt : (n * 2 ^ e : ℚ) < k * 2 ^ e := mul_lt_mul_of_pos_right (Int.cast_lt.2 h) hpos
  exact WithBot.coe_lt_coe.2 (WithTop.coe_lt_coe.2 hlt)

theorem cmp_infinite (s : Bool) (r : ℚ) :
    cmp (if s then ⊥ else ((⊤ : WithTop ℚ) : Extended)) ((r : WithTop ℚ) : Extended) =
      if s then .lt else .gt := by
  cases s with
  | false => exact (cmp_eq_gt_iff _ _).2 (WithBot.coe_lt_coe.2 (WithTop.coe_lt_top r))
  | true => exact (cmp_eq_lt_iff _ _).2 (WithBot.bot_lt_coe _)

theorem compare?_eq_cmp {x y : Binary F} {u w : Extended} (hx : x.value? = some u)
    (hy : y.value? = some w) : x.compare? y = some (cmp u w) := by
  cases x with
  | nan => cases hx
  | infinite s =>
    cases hx
    cases y with
    | nan => cases hy
    | infinite t =>
      cases hy
      cases s <;> cases t <;> simp [compare?, cmp, cmpUsing] <;> rfl
    | finite =>
      cases hy
      rw [compare?, cmp_infinite]
  | finite s m q =>
    cases hx
    cases y with
    | nan => cases hy
    | infinite t =>
      cases hy
      rw [compare?, ← cmp_swap, cmp_infinite]
      cases t <;> rfl
    | finite t n r =>
      cases hy
      rw [compare?, ← multiple_eq s m (min_le_left q r), ← multiple_eq t n (min_le_right q r),
        (strictMono_scaled (min q r)).cmp_map_eq, cmp_eq_compare]

end SearchMapper.Number.Binary
