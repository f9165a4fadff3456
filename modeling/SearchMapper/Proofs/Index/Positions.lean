import SearchMapper.Index.Cursor
import SearchMapper.Proofs.Index.Rests

namespace SearchMapper.Index.Cursor

open Reading (Reads bound endsRange endsToken position tokenTest)
open Text (Taken isBlank trimStart)

variable {α β : Type} {chars s r rest : List Char} {size : Nat}

section Positions

theorem position_self (s : List Char) : position s.length s = 0 :=
  Nat.sub_self _

theorem exists_position {pos : Nat} (h : pos ≤ chars.length) :
    ∃ s, s <:+ chars ∧ position chars.length s = pos := by
  refine ⟨chars.drop pos, List.drop_suffix pos chars, ?_⟩
  rw [position, List.length_drop]
  omega

theorem getElem?_position (h : s <:+ chars) : chars[position chars.length s]? = s.head? := by
  obtain ⟨front, rfl⟩ := h
  simp [position, List.head?_eq_getElem?, List.getElem?_append_right]

theorem position_lt {c : Char} (h : c :: s <:+ chars) :
    position chars.length (c :: s) < chars.length := by
  have := h.length_le
  simp only [position, List.length_cons] at *
  omega

theorem position_succ {c : Char} (h : c :: s <:+ chars) :
    position chars.length (c :: s) + 1 = position chars.length s := by
  have := h.length_le
  simp only [position, List.length_cons] at *
  omega

theorem scan_position {p : Char → Bool} (h : s <:+ chars) :
    scan p chars (position chars.length s) = position chars.length (s.dropWhile p) := by
  induction s with
  | nil => rw [scan, getElem?_position h, List.head?_nil, List.dropWhile_nil]
  | cons c s ih =>
    rw [scan, getElem?_position h]
    simp only [List.head?_cons, position_succ h, ih (suffix_of_cons h), List.dropWhile_cons]
    split <;> rfl

theorem slice_position {front : List Char} (h : front ++ rest <:+ chars) :
    slice chars (position chars.length (front ++ rest)) (position chars.length rest) =
      pure front := by
  obtain ⟨before, rfl⟩ := h
  have hstart : position (before ++ (front ++ rest)).length (front ++ rest) = before.length := by
    simp [position]
  have hstop : position (before ++ (front ++ rest)).length rest = (before ++ front).length := by
    simp [position]
    omega
  rw [hstart, hstop, slice, if_pos (by simp)]
  simp

theorem span_position {p : Char → Bool} {front back : List Char} (h : s <:+ chars)
    (hs : Text.span p s = (front, back)) :
    scan p chars (position chars.length s) = position chars.length back ∧
      slice chars (position chars.length s) (position chars.length back) = pure front ∧
      back <:+ chars := by
  have hsplit := Text.eq_append_of_span hs
  obtain ⟨rfl, rfl⟩ := Prod.mk.inj hs
  have hslice := @slice_position chars (s.dropWhile p) (s.takeWhile p)
  rw [← hsplit] at hslice
  exact ⟨scan_position h, hslice h, (List.dropWhile_suffix p).trans h⟩

end Positions

section Tokens

theorem skipBlanks_position (h : s <:+ chars) :
    skipBlanks chars (position chars.length s) = position chars.length (trimStart s) :=
  scan_position h

theorem skipBoost_position (h : s <:+ chars) :
    skipBoost chars (position chars.length s) = position chars.length (Reading.skipBoost s) := by
  unfold skipBoost
  rw [getElem?_position h]
  unfold Reading.skipBoost
  split
  · next hhead =>
    obtain ⟨r, rfl⟩ := List.head?_eq_some_iff.1 hhead
    rw [position_succ h, scan_position (suffix_of_cons h)]
    rfl
  · next hhead =>
    split
    · exact absurd rfl hhead
    · rfl

theorem keyword_position {word : List Char} (h : s <:+ chars) :
    keyword word chars (position chars.length s) =
      match Reading.keyword? word s with
      | some rest => pure (true, position chars.length rest)
      | none => pure (false, position chars.length (trimStart s)) := by
  have ht : trimStart s <:+ chars := (trimStart_suffix s).trans h
  have hlen := ht.length_le
  simp only [keyword, skipBlanks_position h]
  unfold Reading.keyword?
  split
  · next hshort =>
    have hnone : Text.after? word (trimStart s) = none := by
      refine Option.eq_none_iff_forall_not_mem.2 fun rest ha => ?_
      have := congrArg List.length (Text.eq_append_of_after? ha)
      simp only [position, List.length_append] at *
      omega
    rw [hnone]
  · next hfits =>
    obtain ⟨front, back, hsplit, hfront⟩ : ∃ front back, trimStart s = front ++ back ∧
        front.length = word.length := by
      refine ⟨_, _, (List.take_append_drop word.length _).symm, ?_⟩
      simp only [position, List.length_take] at *
      omega
    rw [hsplit] at ht ⊢
    have hstop : position chars.length (front ++ back) + word.length =
        position chars.length back := by
      have := ht.length_le
      simp only [position, List.length_append] at *
      omega
    have hback : back <:+ chars := (List.suffix_append front back).trans ht
    rw [hstop, slice_position ht, getElem?_position hback]
    by_cases hw : front = word
    · subst hw
      rw [Text.after?_append]
      cases back with
      | nil => simp
      | cons c back =>
        cases hc : isBlank c <;> simp [hc]
    · have hnone : Text.after? word (front ++ back) = none := by
        refine Option.eq_none_iff_forall_not_mem.2 fun rest ha => hw ?_
        exact (List.append_inj_left (Text.eq_append_of_after? ha) hfront)
      simp [hnone, hw]

theorem phrase?_position (h : s <:+ chars) :
    phrase? chars (position chars.length s) = (Reading.phrase? s).map fun (text, rest) =>
      (text, position chars.length rest) := by
  fun_induction Reading.phrase? s with
  | case1 =>
    rw [phrase?, getElem?_position h]
    rfl
  | case2 rest =>
    rw [phrase?, getElem?_position h]
    simp only [List.head?_cons, position_succ h]
    rfl
  | case3 =>
    -- the step over the escaped character leads behind the end
    have hend : chars[position chars.length ['\\'] + 2]? = none := by
      rw [List.getElem?_eq_none_iff, position, List.length_singleton]
      omega
    rw [phrase?, getElem?_position h]
    simp only [List.head?_cons]
    rw [phrase?, hend]
    rfl
  | case4 c rest ih =>
    have hrest := suffix_of_cons h
    have hnext : chars[position chars.length ('\\' :: c :: rest) + 1]? = some c := by
      rw [position_succ h, getElem?_position hrest, List.head?_cons]
    have hpos : position chars.length ('\\' :: c :: rest) + 2 = position chars.length rest := by
      rw [← position_succ hrest, ← position_succ h]
    rw [phrase?, getElem?_position h]
    simp only [List.head?_cons, hnext, hpos, ih (suffix_of_cons hrest), Option.map_map]
    rfl
  | case5 c rest hquote hescape hlast ih =>
    rw [phrase?, getElem?_position h]
    split
    · next hnone => cases hnone
    · next hhead => exact (hquote (Option.some.inj hhead)).elim
    · next hhead =>
      cases rest with
      | nil => exact (hescape (Option.some.inj hhead) rfl).elim
      | cons d rest => exact (hlast d rest (Option.some.inj hhead) rfl).elim
    · next hhead =>
      obtain rfl := Option.some.inj hhead
      simp only [position_succ h, ih (suffix_of_cons h), Option.map_map]
      rfl

theorem phrase_position (h : s <:+ chars) :
    phrase chars (position chars.length s) =
      match Reading.phrase? s with
      | none => refuse .openPhrase
      | some (text, rest) => pure (.exact (String.ofList text), position chars.length rest) := by
  rw [phrase, phrase?_position h]
  cases Reading.phrase? s <;> rfl

theorem range_position {includeLower : Bool} (h : s <:+ chars) :
    range includeLower chars (position chars.length s) =
      match Reading.range includeLower s with
      | .error cause => refuse cause
      | .ok (test, rest) => pure (test, position chars.length rest) := by
  obtain ⟨body, back, hs⟩ : ∃ body back, Text.span (fun c => !endsRange c) s = (body, back) :=
    ⟨_, _, rfl⟩
  obtain ⟨hscan, hslice, hback⟩ := span_position h hs
  rw [range, hscan]
  simp only [getElem?_position hback, hslice, Reading.range, hs]
  cases back with
  | nil => rfl
  | cons close back =>
    simp only [List.head?_cons, pure_bind, position_succ hback]
    cases Text.cut? " TO ".toList body <;> rfl

theorem token_position (h : s <:+ chars) :
    token chars (position chars.length s) =
      match Text.span (fun c => !endsToken c) s with
      | ([], _) => refuse (.valueExpected (position chars.length s))
      | (c :: text, rest) => pure (tokenTest (c :: text), position chars.length rest) := by
  obtain ⟨text, back, hs⟩ : ∃ text back, Text.span (fun c => !endsToken c) s = (text, back) :=
    ⟨_, _, rfl⟩
  obtain ⟨hscan, hslice, -⟩ := span_position h hs
  rw [token, hscan, hslice, pure_bind, hs]
  cases text <;> rfl

end Tokens

section Values

/-- The outcome of a reader, with its rest as the position where that starts. -/
def told (size : Nat) : Except ReadError (Taken α s) → Run (α × Nat)
  | .error cause => refuse cause
  | .ok t => pure (t.value, position size t.rest)

theorem told_ok (t : Taken α s) : told size (.ok t) = pure (t.value, position size t.rest) :=
  rfl

theorem told_eq_pure {reading : Except ReadError (Taken α s)} {a : α}
    (h : Reads reading a rest) : told size reading = pure (a, position size rest) := by
  obtain ⟨_, rfl⟩ := h.eq_ok
  rfl

theorem told_map {r : List Char} {reading : Except ReadError (Taken α r)}
    {f : Taken α r → Taken β s} {g : α → β} (hvalue : ∀ t, (f t).value = g t.value)
    (hrest : ∀ t, (f t).rest = t.rest) :
    told size (f <$> reading) = told size reading >>= fun (a, stop) => pure (g a, stop) := by
  cases reading with
  | error cause => rfl
  | ok t =>
    show pure ((f t).value, position size (f t).rest) = _
    rw [hvalue, hrest]
    rfl

theorem told_value_phrase : told size (Reading.value size ('"' :: r)) =
    match Reading.phrase? r with
    | none => refuse .openPhrase
    | some (text, rest) =>
      pure (.exact (String.ofList text), position size (Reading.skipBoost rest)) := by
  simp only [Reading.value]
  split <;> next hread => simp only [told, hread]

theorem told_value_range (includeLower : Bool) :
    told size (Reading.value size ((if includeLower then '[' else '\x7b') :: r)) =
      match Reading.range includeLower r with
      | .error cause => refuse cause
      | .ok (test, rest) => pure (test, position size (Reading.skipBoost rest)) := by
  cases includeLower with
  | true =>
    rw [if_pos rfl, Reading.value]
    split <;> next hread => simp only [told, hread]
  | false =>
    rw [if_neg Bool.false_ne_true, Reading.value]
    split <;> next hread => simp only [told, hread]

theorem told_value_token (hh : ∀ c ∈ s.head?, c ∉ ['"', '[', '\x7b']) :
    told size (Reading.value size s) =
      match Text.span (fun c => !endsToken c) s with
      | ([], _) => refuse (.valueExpected (position size s))
      | (c :: text, rest) =>
        pure (tokenTest (c :: text), position size (Reading.skipBoost rest)) := by
  unfold Reading.value
  split
  · simp at hh
  · simp at hh
  · simp at hh
  · split <;> next hs => simp only [told, hs]

theorem rangeValue_position (includeLower : Bool) (h : r <:+ chars) :
    (range includeLower chars (position chars.length r) >>= fun (test, stop) =>
        pure (test, skipBoost chars stop)) =
      told chars.length
        (Reading.value chars.length ((if includeLower then '[' else '\x7b') :: r)) := by
  rw [range_position h, told_value_range]
  cases hread : Reading.range includeLower r with
  | error cause => rfl
  | ok t => simp only [pure_bind, skipBoost_position ((Reading.range_suffix hread).trans h)]

theorem value_position (h : s <:+ chars) :
    value chars (position chars.length s) = told chars.length (Reading.value chars.length s) := by
  rw [value, getElem?_position h]
  split
  · next hhead =>
    obtain ⟨r, rfl⟩ := List.head?_eq_some_iff.1 hhead
    have hr := suffix_of_cons h
    rw [position_succ h, phrase_position hr, told_value_phrase]
    cases hread : Reading.phrase? r with
    | none => rfl
    | some t => simp only [pure_bind, skipBoost_position ((Reading.phrase?_suffix hread).trans hr)]
  · next hhead =>
    obtain ⟨r, rfl⟩ := List.head?_eq_some_iff.1 hhead
    rw [position_succ h]
    exact rangeValue_position true (suffix_of_cons h)
  · next hhead =>
    obtain ⟨r, rfl⟩ := List.head?_eq_some_iff.1 hhead
    rw [position_succ h]
    exact rangeValue_position false (suffix_of_cons h)
  · next hphrase hclosed hopen =>
    have hh : ∀ c ∈ s.head?, c ∉ ['"', '[', '\x7b'] := by
      intro c hc hm
      simp only [List.mem_cons, List.not_mem_nil, or_false] at hm
      rcases hm with rfl | rfl | rfl
      · exact hphrase hc
      · exact hclosed hc
      · exact hopen hc
    obtain ⟨text, back, hs⟩ : ∃ text back, Text.span (fun c => !endsToken c) s = (text, back) :=
      ⟨_, _, rfl⟩
    obtain ⟨-, -, hback⟩ := span_position h hs
    rw [token_position h, told_value_token hh, hs]
    cases text with
    | nil => rfl
    | cons c text => simp only [pure_bind, skipBoost_position hback]

end Values

end SearchMapper.Index.Cursor
