namespace SearchMapper.Text

structure Taken (α : Type) (s : List Char) where
  value : α
  rest : List Char
  shorter : rest.length < s.length

namespace Taken

variable {α β : Type} {s : List Char}

def map (f : α → β) (t : Taken α s) : Taken β s :=
  ⟨f t.value, t.rest, t.shorter⟩

def within {r : List Char} (t : Taken α r) (h : r.length ≤ s.length) : Taken α s :=
  ⟨t.value, t.rest, Nat.lt_of_lt_of_le t.shorter h⟩

end Taken

theorem length_dropWhile_le (p : Char → Bool) (s : List Char) :
    (s.dropWhile p).length ≤ s.length :=
  (List.dropWhile_suffix p).length_le

end SearchMapper.Text
