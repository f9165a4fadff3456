import Mathlib.Order.Bounds.Defs
import Mathlib.Order.MinMax
import SearchMapper.Index.Expr

namespace SearchMapper.Index.EditDistance

/-- One character comes in, goes out or gives way to another, anywhere in the text. -/
inductive Edit : List Char → List Char → Prop
  | insertion (front : List Char) (c : Char) (back : List Char) :
      Edit (front ++ back) (front ++ c :: back)
  | deletion (front : List Char) (c : Char) (back : List Char) :
      Edit (front ++ c :: back) (front ++ back)
  | substitution (front : List Char) (c d : Char) (back : List Char) :
      Edit (front ++ c :: back) (front ++ d :: back)

/-- So many edits, one after the other, turn the first text into the second. -/
inductive Edits : Nat → List Char → List Char → Prop
  | refl (a : List Char) : Edits 0 a a
  | step {n : Nat} {a b c : List Char} (h : Edit a b) (hs : Edits n b c) : Edits (n + 1) a c

variable {n : Nat} {a b : List Char}

section Scripts

theorem Edit.cons (c : Char) (h : Edit a b) : Edit (c :: a) (c :: b) := by
  cases h with
  | insertion front d back => exact .insertion (c :: front) d back
  | deletion front d back => exact .deletion (c :: front) d back
  | substitution front d e back => exact .substitution (c :: front) d e back

theorem Edit.reverse (h : Edit a b) : Edit a.reverse b.reverse := by
  cases h with
  | insertion front c back => simpa using Edit.insertion back.reverse c front.reverse
  | deletion front c back => simpa using Edit.deletion back.reverse c front.reverse
  | substitution front c d back => simpa using Edit.substitution back.reverse c d front.reverse

theorem Edits.cons (c : Char) (h : Edits n a b) : Edits n (c :: a) (c :: b) := by
  induction h with
  | refl a => exact .refl (c :: a)
  | step h _ ih => exact .step (h.cons c) ih

theorem Edits.reverse (h : Edits n a b) : Edits n a.reverse b.reverse := by
  induction h with
  | refl a => exact .refl a.reverse
  | step h _ ih => exact .step h.reverse ih

end Scripts

/-- The least cost of making the texts equal, character by character from their starts. -/
def cost : List Char → List Char → Nat
  | [], b => b.length
  | _ :: a, [] => a.length + 1
  | c :: a, d :: b =>
    min (cost a b + if c = d then 0 else 1) (min (cost a (d :: b) + 1) (cost (c :: a) b + 1))
termination_by a b => a.length + b.length

section Recurrence

@[simp]
theorem cost_nil_left (b : List Char) : cost [] b = b.length := by
  rw [cost]

@[simp]
theorem cost_nil_right (a : List Char) : cost a [] = a.length := by
  cases a <;> simp [cost]

theorem cost_cons_cons (c d : Char) (a b : List Char) :
    cost (c :: a) (d :: b) =
      min (cost a b + if c = d then 0 else 1)
        (min (cost a (d :: b) + 1) (cost (c :: a) b + 1)) := by
  rw [cost]

theorem cost_self (a : List Char) : cost a a = 0 := by
  induction a with
  | nil => rw [cost_nil_left, List.length_nil]
  | cons c a ih => simp [cost_cons_cons, ih]

theorem edits_cost (a b : List Char) : Edits (cost a b) a b := by
  fun_induction cost a b with
  | case1 b =>
    induction b with
    | nil => exact .refl []
    | cons d b ih => exact .step (.insertion [] d []) (ih.cons d)
  | case2 c a =>
    induction a generalizing c with
    | nil => exact .step (.deletion [] c []) (.refl [])
    | cons d a ih => exact .step (.deletion [] c (d :: a)) (ih d)
  | case3 c a d b ihboth ihleft ihright =>
    have hboth : Edits (cost a b + if c = d then 0 else 1) (c :: a) (d :: b) := by
      split
      · next hc => exact hc ▸ ihboth.cons c
      · exact .step (.substitution [] c d a) (ihboth.cons d)
    have hleft : Edits (cost a (d :: b) + 1) (c :: a) (d :: b) := .step (.deletion [] c a) ihleft
    have hright : Edits (cost (c :: a) b + 1) (c :: a) (d :: b) :=
      .step (.insertion [] d (c :: a)) (ihright.cons d)
    exact min_rec' (Edits · (c :: a) (d :: b)) hboth
      (min_rec' (Edits · (c :: a) (d :: b)) hleft hright)

theorem cost_cons_left_le (c : Char) (a b : List Char) : cost (c :: a) b ≤ cost a b + 1 := by
  cases b with
  | nil => simp
  | cons d b =>
    rw [cost_cons_cons]
    omega

theorem cost_cons_right_le (d : Char) (a b : List Char) : cost a (d :: b) ≤ cost a b + 1 := by
  cases a with
  | nil => simp
  | cons c a =>
    rw [cost_cons_cons]
    omega

theorem cost_le_cons_left (c : Char) (a b : List Char) : cost a b ≤ cost (c :: a) b + 1 := by
  induction b with
  | nil =>
    rw [cost_nil_right, cost_nil_right, List.length_cons]
    omega
  | cons d b ih =>
    have hright := cost_cons_right_le d a b
    rw [cost_cons_cons c d]
    omega

theorem cost_cons_le_cons (c d : Char) (a b : List Char) :
    cost (c :: a) b ≤ cost (d :: a) b + 1 := by
  induction b with
  | nil => simp
  | cons e b ih =>
    rw [cost_cons_cons, cost_cons_cons]
    split <;> split <;> omega

theorem cost_append_le (front : List Char) (h : ∀ target, cost a target ≤ cost b target + 1)
    (target : List Char) : cost (front ++ a) target ≤ cost (front ++ b) target + 1 := by
  induction front generalizing target with
  | nil => exact h target
  | cons c front ih =>
    -- Each of the three cells that the new one comes from differs by one at most.
    induction target with
    | nil => simpa using ih []
    | cons d target iht =>
      have hboth := ih target
      have hleft := ih (d :: target)
      simp only [List.cons_append] at iht ⊢
      rw [cost_cons_cons, cost_cons_cons]
      omega

theorem Edit.cost_le (h : Edit a b) (target : List Char) : cost a target ≤ cost b target + 1 := by
  cases h with
  | insertion front c back => exact cost_append_le front (cost_le_cons_left c back) target
  | deletion front c back => exact cost_append_le front (cost_cons_left_le c back) target
  | substitution front c d back => exact cost_append_le front (cost_cons_le_cons c d back) target

theorem Edits.cost_le (h : Edits n a b) : cost a b ≤ n := by
  induction h with
  | refl a => exact (cost_self a).le
  | step h _ ih => exact (h.cost_le _).trans (Nat.succ_le_succ ih)

end Recurrence

section Table

/-- The costs of `a` against the fronts of a text that reach into `b`, where `front` stands before
it. The table reads from the left what the recurrence takes from the right, so that `a` and `front`
stand last character first. -/
def costsIn (a front : List Char) : List Char → List Nat
  | [] => []
  | d :: b => cost a (d :: front) :: costsIn a (d :: front) b

def row (a b : List Char) : List Nat :=
  cost a [] :: costsIn a [] b

theorem cells_costsIn (c : Char) (a front b : List Char) :
    cells c (cost (c :: a) front) (cost a front) b (costsIn a front b) =
      costsIn (c :: a) front b := by
  induction b generalizing front with
  | nil => rfl
  | cons d b ih => simp only [costsIn, cells, ← cost_cons_cons, ih]

theorem nextRow_row (c : Char) (a b : List Char) : nextRow b (row a b) c = row (c :: a) b := by
  have hfirst : cost (c :: a) [] = cost a [] + 1 := by simp
  rw [row, nextRow, row, ← hfirst, cells_costsIn]

theorem foldl_nextRow (s a b : List Char) :
    s.foldl (nextRow b) (row a b) = row (s.reverse ++ a) b := by
  induction s generalizing a with
  | nil => rfl
  | cons c s ih =>
    rw [List.foldl_cons, nextRow_row, ih, List.reverse_cons, List.append_assoc]
    rfl

theorem costsIn_nil (front b : List Char) :
    costsIn [] front b = List.range' (front.length + 1) b.length := by
  induction b generalizing front with
  | nil => rfl
  | cons d b ih => simp [costsIn, ih, List.range'_succ]

theorem row_nil (b : List Char) : row [] b = List.range (b.length + 1) := by
  rw [row, cost_nil_left, costsIn_nil, List.range_eq_range', List.range'_succ]
  rfl

theorem getLast?_cons_costsIn (a front b : List Char) :
    (cost a front :: costsIn a front b).getLast? = some (cost a (b.reverse ++ front)) := by
  induction b generalizing front with
  | nil => rfl
  | cons d b ih =>
    rw [costsIn, List.getLast?_cons_cons, ih, List.reverse_cons, List.append_assoc]
    rfl

theorem distance_eq_cost (a b : List Char) : distance a b = cost a.reverse b.reverse := by
  rw [distance, ← row_nil, foldl_nextRow, row, getLast?_cons_costsIn]
  simp

end Table

theorem isLeast_distance (a b : List Char) : IsLeast {n | Edits n a b} (distance a b) := by
  rw [distance_eq_cost]
  -- Read from the end, a script is a script again, of the same length.
  constructor
  · have h := (edits_cost a.reverse b.reverse).reverse
    rwa [List.reverse_reverse, List.reverse_reverse] at h
  · intro n h
    exact (Edits.reverse h).cost_le

theorem distance_le_iff : distance a b ≤ n ↔ ∃ m ≤ n, Edits m a b := by
  obtain ⟨hscript, hleast⟩ := isLeast_distance a b
  constructor
  · intro h
    exact ⟨distance a b, h, hscript⟩
  · rintro ⟨m, hm, h⟩
    exact (hleast h).trans hm

/-- The distance is the least number of edits, so that a fuzzy test asks for a value that at most
two of them turn into its term. -/
theorem isLeast_distance_and_fuzzy_iff (a b : List Char) (term : String) (values : List String) :
    IsLeast {n | Edits n a b} (distance a b) ∧
      ((Test.fuzzy term).holds values = true ↔
        ∃ value ∈ values, ∃ n ≤ 2, Edits n (Text.lower value.toList) (Text.lower term.toList)) := by
  refine ⟨isLeast_distance a b, ?_⟩
  rw [Test.holds, List.any_eq_true]
  refine exists_congr fun value => and_congr_right fun _ => ?_
  rw [Test.holdsOf, decide_eq_true_eq, distance_le_iff]

end SearchMapper.Index.EditDistance
