namespace SearchMapper.Text

def after? : List Char → List Char → Option (List Char)
  | [], s => some s
  | _ :: _, [] => none
  | p :: ps, c :: s => if p = c then after? ps s else none

def cut? (p : List Char) : List Char → Option (List Char × List Char)
  | [] => (after? p []).map ([], ·)
  | c :: s =>
    match after? p (c :: s) with
    | some rest => some ([], rest)
    | none => (cut? p s).map fun (front, rest) => (c :: front, rest)

def occursIn (p s : List Char) : Bool :=
  (cut? p s).isSome

def before? (p s : List Char) : Option (List Char) :=
  (after? p.reverse s.reverse).map List.reverse

/-- The texts between the separators; there is one more of them than there are separators. -/
def pieces (separator : Char) : List Char → List (List Char)
  | [] => [[]]
  | c :: s =>
    if c = separator then [] :: pieces separator s
    else match pieces separator s with
      | [] => [[c]]
      | p :: ps => (c :: p) :: ps

def span (p : Char → Bool) (s : List Char) : List Char × List Char :=
  (s.takeWhile p, s.dropWhile p)

theorem eq_append_of_span {p : Char → Bool} {s front rest : List Char}
    (h : span p s = (front, rest)) : s = front ++ rest := by
  simp only [span, Prod.mk.injEq] at h
  rw [← h.1, ← h.2, List.takeWhile_append_dropWhile]

theorem eq_append_of_after? {p s rest : List Char} (h : after? p s = some rest) :
    s = p ++ rest := by
  fun_induction after? p s with
  | case1 => simpa using h
  | case2 => simp at h
  | case3 p ps s ih => simp [ih h]
  | case4 => simp at h

theorem after?_append (p rest : List Char) : after? p (p ++ rest) = some rest := by
  induction p with
  | nil => rfl
  | cons c p ih => simpa [after?] using ih

theorem after?_eq_some_iff {p s rest : List Char} : after? p s = some rest ↔ s = p ++ rest :=
  ⟨eq_append_of_after?, fun h => h ▸ after?_append p rest⟩

theorem length_le_of_after? {p s rest : List Char} (h : after? p s = some rest) :
    rest.length ≤ s.length := by
  simp [eq_append_of_after? h]

end SearchMapper.Text
