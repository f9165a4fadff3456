import SearchMapper.Error

namespace SearchMapper

structure Window where
  offset : Nat
  size : Nat
  size_pos : 0 < size
deriving DecidableEq

namespace Window

def ofOffset (offset size : Nat) : Except Error Window :=
  if h : 0 < size then .ok ⟨offset, size, h⟩ else .error .emptyPage

/-- The page of a number that counts from zero. Offsets have 64 bits. -/
def page (number size : Nat) : Except Error Window :=
  if size = 0 then .error .emptyPage
  else if number * size < UInt64.size then ofOffset (number * size) size
  else .error .offsetOverflow

def number (w : Window) : Nat :=
  w.offset / w.size

def next (w : Window) : Window :=
  { w with offset := w.offset + w.size }

end Window

end SearchMapper
