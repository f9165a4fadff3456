import Mathlib.Data.List.Forall2

namespace SearchMapper

variable {ε α β : Type}

theorem exists_of_bind_eq_ok {x : Except ε α} {f : α → Except ε β} {b : β}
    (h : (x >>= f) = .ok b) : ∃ a, x = .ok a ∧ f a = .ok b := by
  cases x with
  | error cause => cases h
  | ok a => exact ⟨a, rfl, h⟩

theorem map_eq_ok_iff {x : Except ε α} {f : α → β} {b : β} :
    f <$> x = .ok b ↔ ∃ a, x = .ok a ∧ f a = b := by
  cases x <;> simp [Functor.map, Except.map]

theorem map_eq_error_iff {x : Except ε α} {f : α → β} {cause : ε} :
    f <$> x = .error cause ↔ x = .error cause := by
  cases x <;> simp [Functor.map, Except.map]

theorem mapError_eq_ok_iff {ε' : Type} {f : ε → ε'} {x : Except ε α} {a : α} :
    x.mapError f = .ok a ↔ x = .ok a := by
  cases x <;> simp [Except.mapError]

theorem bind_eq_error_iff {x : Except ε α} {f : α → Except ε β} {cause : ε} :
    (x >>= f) = .error cause ↔ x = .error cause ∨ ∃ a, x = .ok a ∧ f a = .error cause := by
  cases x <;> simp [bind, Except.bind]

theorem error_eq_iff_some_eq {failure cause : ε} :
    (Except.error failure : Except ε α) = .error cause ↔ some failure = some cause := by
  rw [Except.error.injEq, Option.some.injEq]

theorem mapM_eq_ok_iff {f : α → Except ε β} {xs : List α} {ys : List β} :
    xs.mapM f = .ok ys ↔ List.Forall₂ (fun x y => f x = .ok y) xs ys := by
  induction xs generalizing ys with
  | nil =>
    rw [List.mapM_nil, List.forall₂_nil_left_iff]
    exact ⟨fun h => (Except.ok.inj h).symm, fun h => h ▸ rfl⟩
  | cons x xs ih =>
    rw [List.mapM_cons, List.forall₂_cons_left_iff]
    constructor
    · intro h
      obtain ⟨y, hy, h⟩ := exists_of_bind_eq_ok h
      obtain ⟨ys', hys, h⟩ := exists_of_bind_eq_ok h
      exact ⟨y, ys', hy, ih.1 hys, (Except.ok.inj h).symm⟩
    · rintro ⟨y, ys', hy, hys, rfl⟩
      rw [hy, ih.2 hys]
      rfl

theorem eq_of_forall₂_ok {f : α → Except ε β} {xs : List α} {ys zs : List β}
    (hy : List.Forall₂ (fun x y => f x = .ok y) xs ys)
    (hz : List.Forall₂ (fun x z => f x = .ok z) xs zs) : ys = zs :=
  Except.ok.inj ((mapM_eq_ok_iff.2 hy).symm.trans (mapM_eq_ok_iff.2 hz))

theorem map_length_eq {R : α → β → Prop} {xs : List (List α)} {ys : List (List β)}
    (h : List.Forall₂ (List.Forall₂ R) xs ys) : xs.map List.length = ys.map List.length := by
  induction h with
  | nil => rfl
  | cons hx _ ih => rw [List.map_cons, List.map_cons, hx.length_eq, ih]

theorem exists_of_forall₂_mem {R : α → β → Prop} {xs : List α} {ys : List β}
    (h : List.Forall₂ R xs ys) {y : β} (hy : y ∈ ys) : ∃ x ∈ xs, R x y := by
  induction h with
  | nil => cases hy
  | cons hx _ ih =>
    rcases List.mem_cons.1 hy with rfl | hy
    · exact ⟨_, List.mem_cons_self, hx⟩
    · obtain ⟨x, hm, h⟩ := ih hy
      exact ⟨x, List.mem_cons_of_mem _ hm, h⟩

theorem exists_of_mapM_mem {f : α → Except ε β} {xs : List α} {ys : List β}
    (h : xs.mapM f = .ok ys) {y : β} (hy : y ∈ ys) : ∃ x ∈ xs, f x = .ok y :=
  exists_of_forall₂_mem (mapM_eq_ok_iff.1 h) hy

theorem exists_mapM_eq_ok_iff {f : α → Except ε β} {xs : List α} :
    (∃ ys, xs.mapM f = .ok ys) ↔ ∀ x ∈ xs, ∃ y, f x = .ok y := by
  simp only [mapM_eq_ok_iff]
  induction xs with
  | nil => simp
  | cons x xs ih =>
    rw [List.forall_mem_cons, ← ih]
    constructor
    · rintro ⟨ys, hys⟩
      obtain ⟨y, ys', hy, hys', rfl⟩ := List.forall₂_cons_left_iff.1 hys
      exact ⟨⟨y, hy⟩, ys', hys'⟩
    · rintro ⟨⟨y, hy⟩, ys, hys⟩
      exact ⟨y :: ys, .cons hy hys⟩

theorem mapM_eq_error_iff {f : α → Except ε β} {xs : List α} {cause : ε} :
    xs.mapM f = .error cause ↔ ∃ before x behind, xs = before ++ x :: behind ∧
      (∀ y ∈ before, ∃ z, f y = .ok z) ∧ f x = .error cause := by
  induction xs with
  | nil => simp [pure, Except.pure]
  | cons x xs ih =>
    rw [List.mapM_cons]
    constructor
    · intro h
      obtain hx | ⟨z, hx, h⟩ := bind_eq_error_iff.1 h
      · exact ⟨[], x, xs, rfl, nofun, hx⟩
      · obtain hxs | ⟨zs, -, h⟩ := bind_eq_error_iff.1 h
        · obtain ⟨before, y, behind, rfl, hbefore, hy⟩ := ih.1 hxs
          exact ⟨x :: before, y, behind, rfl, List.forall_mem_cons.2 ⟨⟨z, hx⟩, hbefore⟩, hy⟩
        · cases h
    · rintro ⟨before, y, behind, heq, hbefore, hy⟩
      cases before with
      | nil =>
        obtain ⟨rfl, rfl⟩ := List.cons.inj heq
        rw [hy]
        rfl
      | cons first before =>
        obtain ⟨rfl, rfl⟩ := List.cons.inj heq
        obtain ⟨⟨z, hz⟩, hbefore⟩ := List.forall_mem_cons.1 hbefore
        rw [hz, ih.2 ⟨before, y, behind, rfl, hbefore, hy⟩]
        rfl

theorem mapM_eq_error {f : α → Except ε β} {xs : List α} {cause : ε}
    (hcause : ∀ x ∈ xs, ∀ failure, f x = .error failure → failure = cause)
    (hfails : ∃ x ∈ xs, ∀ y, f x ≠ .ok y) : xs.mapM f = .error cause := by
  cases h : xs.mapM f with
  | ok ys =>
    obtain ⟨bad, hm, hbad⟩ := hfails
    obtain ⟨y, hy⟩ := exists_mapM_eq_ok_iff.1 ⟨ys, h⟩ bad hm
    exact absurd hy (hbad y)
  | error failure =>
    obtain ⟨before, x, behind, rfl, -, hx⟩ := mapM_eq_error_iff.1 h
    rw [hcause x (by simp) failure hx]

end SearchMapper
