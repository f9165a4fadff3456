import SearchMapper.Proofs.Repository.CatalogText

namespace SearchMapper.Catalog

open Text (before? isBlank trim trimEnd trimStart)

/-- What lines leave open: the text of an entry whose last line so far ends in a backslash. -/
def openText (pending : List Char) : List (List Char) → List Char
  | [] => pending
  | line :: rest =>
    if pending = [] ∧ isComment (trimStart line) then openText [] rest
    else match before? ['\\'] (trimStart line) with
      | some continued => openText (pending ++ continued) rest
      | none => openText [] rest

def IsEnded (s : List Char) : Prop :=
  s.getLast? ∈ [none, some '\n']

instance (s : List Char) : Decidable (IsEnded s) :=
  inferInstanceAs (Decidable (_ ∈ _))

def ended (s : List Char) : List Char :=
  if IsEnded s then s else s ++ ['\n']

/-- The entry that is open at the end of a text. -/
def leftOpen? (s : List Char) : Option (String × String) :=
  entryOf? (openText [] (lines [] (ended s)))

variable {s t line read pending x : List Char}

section Lines

theorem IsEnded.eq_nil_or (h : IsEnded s) : s = [] ∨ ∃ front, s = front ++ ['\n'] := by
  simp only [IsEnded, List.mem_cons, List.not_mem_nil, or_false] at h
  exact h.imp List.getLast?_eq_none_iff.1 List.getLast?_eq_some_iff.1

theorem lines_append_newline_append (front s t : List Char) :
    lines front (s ++ '\n' :: t) = lines front (s ++ ['\n']) ++ lines [] t := by
  induction s generalizing front with
  | nil =>
    obtain ⟨read, hread, -⟩ := lines_newline front.reverse
    rw [List.reverse_reverse] at hread
    rw [List.nil_append, List.nil_append, hread, hread]
    rfl
  | cons c s ih =>
    by_cases hc : c = '\n'
    · subst hc
      obtain ⟨read, hread, -⟩ := lines_newline front.reverse
      rw [List.reverse_reverse] at hread
      rw [List.cons_append, List.cons_append, hread, hread, ih, List.cons_append]
    · rw [List.cons_append, List.cons_append, lines_cons_of_ne hc, lines_cons_of_ne hc, ih]

theorem IsEnded.lines_append (h : IsEnded s) (t : List Char) :
    lines [] (s ++ t) = lines [] s ++ lines [] t := by
  obtain rfl | ⟨front, rfl⟩ := h.eq_nil_or
  · rfl
  · rw [List.append_assoc, List.singleton_append, lines_append_newline_append]

theorem exists_lastLine (s : List Char) :
    ∃ front line, s = front ++ line ∧ IsEnded front ∧ '\n' ∉ line := by
  induction s with
  | nil => exact ⟨[], [], rfl, by decide, List.not_mem_nil⟩
  | cons c s ih =>
    obtain ⟨front, line, rfl, hfront, hline⟩ := ih
    obtain rfl | ⟨front, rfl⟩ := hfront.eq_nil_or
    · by_cases hc : c = '\n'
      · exact ⟨[c], line, rfl, by simp [IsEnded, hc], hline⟩
      · exact ⟨[], c :: line, rfl, by decide, by simp [hline, Ne.symm hc]⟩
    · refine ⟨(c :: front) ++ ['\n'], line, rfl, ?_, hline⟩
      rw [IsEnded, List.getLast?_concat]
      decide

theorem lines_of_notMem (hn : '\n' ∉ line) (hne : line ≠ []) : lines [] line = [line] := by
  have hread := lines_append hn [] []
  rw [List.append_nil, List.append_nil] at hread
  rw [hread, lines, if_neg (by simpa using hne), List.reverse_reverse]

theorem lines_line_newline (hn : '\n' ∉ line) (t : List Char) :
    ∃ read, lines [] (line ++ '\n' :: t) = read :: lines [] t ∧
      (line = read ∨ line = read ++ ['\r']) := by
  obtain ⟨read, hread, hline⟩ : ∃ read,
      (∀ t, lines line.reverse ('\n' :: t) = read :: lines [] t) ∧
        (line = read ∨ line = read ++ ['\r']) := by
    by_cases hr : line.getLast? = some '\r'
    · obtain ⟨front, rfl⟩ := List.getLast?_eq_some_iff.1 hr
      exact ⟨front, fun t => by simp [lines], .inr rfl⟩
    · obtain ⟨read, hread, -, heq⟩ := lines_newline line
      exact ⟨read, hread, .inl (heq hr).symm⟩
  exact ⟨read, by rw [lines_append hn, List.append_nil, hread], hline⟩

end Lines

section Entries

theorem entries_append (pending : List Char) (front back : List (List Char)) :
    entries pending (front ++ back) =
      entries pending front ++ entries (openText pending front) back := by
  induction front generalizing pending with
  | nil => rfl
  | cons line front ih =>
    rw [List.cons_append, entries, entries, openText]
    split
    · exact ih []
    · cases before? ['\\'] (trimStart line) with
      | some continued => exact ih _
      | none => rw [ih, List.append_assoc]

theorem openText_append (pending : List Char) (front back : List (List Char)) :
    openText pending (front ++ back) = openText (openText pending front) back := by
  induction front generalizing pending with
  | nil => rfl
  | cons line front ih =>
    rw [List.cons_append, openText, openText]
    split
    · exact ih []
    · cases before? ['\\'] (trimStart line) with
      | some continued => exact ih _
      | none => exact ih []

theorem entries_cons_nil (pending : List Char) (rest : List (List Char)) :
    entries pending ([] :: rest) = (entryOf? pending).toList ++ entries [] rest := by
  by_cases hp : pending = []
  · rw [entries, if_pos ⟨hp, rfl⟩, hp]
    rfl
  · have hnil : trimStart [] = [] := rfl
    rw [entries_ended hnil (by decide) (absurd · hp), List.append_nil]

theorem entries_replicate_nil (pending : List Char) (n : Nat) :
    entries pending (List.replicate (n + 1) []) = (entryOf? pending).toList := by
  induction n generalizing pending with
  | zero => rw [List.replicate_one, entries_cons_nil, entries, List.append_nil]
  | succ n ih =>
    rw [List.replicate_succ, entries_cons_nil, ih]
    exact List.append_nil _

end Entries

section Returns

theorem trim_append_blank {c : Char} (hc : isBlank c = true) (s : List Char) :
    trim (s ++ [c]) = trim s := by
  by_cases hs : trimStart s = []
  · rw [trim, Text.trimStart_append_of_eq_nil hs, Text.trimStart_blank_cons hc, trim, hs]
    rfl
  · rw [trim, Text.trimStart_append hs, trim, trimEnd, trimEnd, List.reverse_append,
      List.reverse_singleton, List.singleton_append, List.dropWhile_cons_of_pos hc]

theorem entryOf?_append (x : List Char) {y : List Char} (hy : ∀ c ∈ y, c ∉ ['=', ':']) :
    (entryOf? x = none ∧ entryOf? (x ++ y) = none) ∨
      ∃ key rest, entryOf? x = some (key, String.ofList (trim rest)) ∧
        entryOf? (x ++ y) = some (key, String.ofList (trim (rest ++ y))) := by
  cases hspan : Text.span (fun c => !(c = '=' || c = ':')) x with
  | mk front rest =>
    rw [entryOf?, entryOf?, hspan]
    cases rest with
    | nil =>
      have hfront : ∀ c ∈ x ++ y, (!(c = '=' || c = ':')) = true := by
        rw [Text.span, Prod.mk.injEq, List.dropWhile_eq_nil_iff] at hspan
        exact List.forall_mem_append.2 ⟨hspan.2, fun c hc => by simpa using hy c hc⟩
      have hall : Text.span (fun c => !(c = '=' || c = ':')) (x ++ y ++ []) = (x ++ y, []) :=
        Text.span_append hfront (by simp)
      rw [List.append_nil] at hall
      rw [hall]
      exact .inl ⟨rfl, rfl⟩
    | cons c rest =>
      rw [Text.span_append_of_span hspan (by simp)]
      dsimp only [List.cons_append]
      split
      · exact .inl ⟨rfl, rfl⟩
      · exact .inr ⟨_, rest, rfl, rfl⟩

theorem entryOf?_append_return (x : List Char) : entryOf? (x ++ ['\r']) = entryOf? x := by
  obtain ⟨hx, hy⟩ | ⟨key, rest, hx, hy⟩ := entryOf?_append x (y := ['\r']) (by simp)
  · rw [hx, hy]
  · rw [hx, hy, trim_append_blank (by decide)]

theorem entries_singleton (pending line : List Char) :
    entries pending [line] =
      if pending = [] ∧ isComment (trimStart line) then []
      else if (before? ['\\'] (trimStart line)).isSome then []
      else (entryOf? (pending ++ trimStart line)).toList := by
  rw [entries]
  congr 1
  cases before? ['\\'] (trimStart line) <;> simp [entries]

theorem openText_singleton (pending line : List Char) :
    openText pending [line] =
      if pending = [] ∧ isComment (trimStart line) then []
      else ((before? ['\\'] (trimStart line)).map (pending ++ ·)).getD [] := by
  rw [openText]
  congr 1
  cases before? ['\\'] (trimStart line) <;> rfl

theorem before?_append_return (x : List Char) : before? ['\\'] (x ++ ['\r']) = none := by
  rw [before?, List.reverse_append]
  rfl

theorem isComment_append (hx : x ≠ []) (y : List Char) : isComment (x ++ y) = isComment x := by
  cases x with
  | nil => exact absurd rfl hx
  | cons c x => rfl

/-- A carriage return that ends the text keeps a backslash in front of it from leaving the entry
open. The entry is the same one then, up to its value. -/
theorem insertAll_return (pending read : List Char) (d : Catalog) :
    (d.insertAll (entries pending [read ++ ['\r']])).insertAll
        (entryOf? (openText pending [read])).toList =
      (d.insertAll (entries pending [read])).insertAll
        (entryOf? (openText pending [read])).toList := by
  rw [entries_singleton, entries_singleton, openText_singleton]
  by_cases hx : trimStart read = []
  · rw [Text.trimStart_append_of_eq_nil hx, hx]
    rfl
  rw [Text.trimStart_append hx, isComment_append hx, before?_append_return]
  split
  · rfl
  cases hb : before? ['\\'] (trimStart read) with
  | none => simp [← List.append_assoc, entryOf?_append_return]
  | some y =>
    have hfull : pending ++ (trimStart read ++ ['\r']) = pending ++ y ++ ['\\', '\r'] := by
      rw [Text.before?_eq_some_iff.1 hb]
      simp
    simp only [Option.isSome_none, Option.isSome_some, Bool.false_eq_true, ↓reduceIte,
      Option.map_some, Option.getD_some, hfull]
    obtain ⟨hx, hy⟩ | ⟨key, rest, hx, hy⟩ :=
      entryOf?_append (pending ++ y) (y := ['\\', '\r']) (by simp)
    · rw [hx, hy]
      rfl
    · rw [hx, hy]
      -- read as a last line the backslash stays in the value, and the open entry replaces it
      exact Dictionary.insert_insert key _ _ d

end Returns

section Ends

theorem isEnded_ended (s : List Char) : IsEnded (ended s) := by
  unfold ended
  split
  · assumption
  · rw [IsEnded, List.getLast?_concat]
    decide

theorem lines_replicate_newline (n : Nat) :
    lines [] (List.replicate n '\n') = List.replicate n [] := by
  induction n with
  | zero => rfl
  | succ n ih =>
    rw [List.replicate_succ, List.replicate_succ, ← ih]
    rfl

theorem entries_append_newlines (s : List Char) :
    entries [] (lines [] (s ++ ['\n', '\n'])) =
      entries [] (lines [] (ended s)) ++ (leftOpen? s).toList := by
  -- one of the two may have to end the last line, and the other is empty in any case
  obtain ⟨n, hn⟩ : ∃ n, s ++ ['\n', '\n'] = ended s ++ List.replicate (n + 1) '\n' := by
    by_cases hs : IsEnded s
    · exact ⟨1, by rw [ended, if_pos hs]; rfl⟩
    · exact ⟨0, by rw [ended, if_neg hs, List.append_assoc]; rfl⟩
  rw [hn, (isEnded_ended s).lines_append, lines_replicate_newline, entries_append,
    entries_replicate_nil, leftOpen?]

theorem exists_lines_ended (hs : ¬IsEnded s) :
    ∃ ls read line, lines [] (ended s) = ls ++ [read] ∧ lines [] s = ls ++ [line] ∧
      (line = read ∨ line = read ++ ['\r']) := by
  obtain ⟨front, line, rfl, hfront, hline⟩ := exists_lastLine s
  have hne : line ≠ [] := by
    rintro rfl
    rw [List.append_nil] at hs
    exact hs hfront
  obtain ⟨read, hread, heq⟩ := lines_line_newline hline []
  refine ⟨lines [] front, read, line, ?_, ?_, heq⟩
  · rw [ended, if_neg hs, List.append_assoc, hfront.lines_append, hread]
    rfl
  · rw [hfront.lines_append, lines_of_notMem hline hne]

theorem insertAll_ended (s : List Char) :
    (Dictionary.ofList (entries [] (lines [] (ended s)))).insertAll (leftOpen? s).toList =
      (Dictionary.ofList (entries [] (lines [] s))).insertAll (leftOpen? s).toList := by
  by_cases hs : IsEnded s
  · rw [ended, if_pos hs]
  · obtain ⟨ls, read, line, hended, hlines, rfl | rfl⟩ := exists_lines_ended hs
    · rw [hended, hlines]
    · rw [leftOpen?, hended, hlines, openText_append, entries_append, entries_append,
        Dictionary.ofList, Dictionary.ofList, Dictionary.insertAll_append,
        Dictionary.insertAll_append, insertAll_return]

theorem exists_backslash_of_openText (h : openText pending [read] ≠ []) :
    ∃ back, read = back ++ ['\\'] := by
  rw [openText_singleton] at h
  split at h
  · exact absurd rfl h
  · cases hb : before? ['\\'] (trimStart read) with
    | none => simp [hb] at h
    | some y =>
      refine ⟨read.takeWhile isBlank ++ y, ?_⟩
      rw [List.append_assoc, ← Text.before?_eq_some_iff.1 hb, trimStart,
        List.takeWhile_append_dropWhile]

theorem exists_backslash_of_leftOpen? {entry : String × String} (h : leftOpen? s = some entry) :
    ∃ front, ∃ ends ∈ [[], ['\r'], ['\n'], ['\r', '\n']], s = front ++ '\\' :: ends := by
  obtain ⟨t, hended, hs⟩ : ∃ t, ended s = t ++ ['\n'] ∧ (s = t ∨ s = t ++ ['\n']) := by
    by_cases hs : IsEnded s
    · obtain rfl | ⟨t, rfl⟩ := hs.eq_nil_or
      · cases h
      · exact ⟨t, if_pos hs, .inr rfl⟩
    · exact ⟨s, if_neg hs, .inl rfl⟩
  obtain ⟨front, line, rfl, hfront, hline⟩ := exists_lastLine t
  obtain ⟨read, hread, hreturn⟩ := lines_line_newline hline []
  rw [leftOpen?, hended, List.append_assoc, hfront.lines_append, hread, openText_append] at h
  obtain ⟨back, rfl⟩ : ∃ back, read = back ++ ['\\'] := by
    refine exists_backslash_of_openText
      fun hnil : openText (openText [] (lines [] front)) [read] = [] => ?_
    rw [lines, if_pos rfl, hnil] at h
    cases h
  obtain rfl | rfl := hreturn <;> obtain rfl | rfl := hs
  · exact ⟨front ++ back, [], by decide, by simp⟩
  · exact ⟨front ++ back, ['\n'], by decide, by simp⟩
  · exact ⟨front ++ back, ['\r'], by decide, by simp⟩
  · exact ⟨front ++ back, ['\r', '\n'], by decide, by simp⟩

end Ends

/-- Empty lines behind a text add to the catalog the entry that the end of the text leaves open. It
is the only one that is lost without them, and there is none unless a backslash ends the text. -/
theorem ofText_append_newlines (s : String) :
    ofText (s ++ "\n\n") = (ofText s).insertAll (leftOpen? s.toList).toList ∧
      (ofText (s ++ "\n\n") = ofText s ↔ ∀ key value, leftOpen? s.toList = some (key, value) →
        (ofText s).find? key = some value) ∧
      ∀ entry, leftOpen? s.toList = some entry →
        ∃ front, ∃ ends ∈ [[], ['\r'], ['\n'], ['\r', '\n']], s.toList = front ++ '\\' :: ends := by
  have happend : ofText (s ++ "\n\n") = (ofText s).insertAll (leftOpen? s.toList).toList := by
    have htext : (s ++ "\n\n").toList = s.toList ++ ['\n', '\n'] := String.toList_append ..
    rw [ofText, htext, entries_append_newlines, Dictionary.ofList, Dictionary.insertAll_append]
    exact insertAll_ended s.toList
  refine ⟨happend, ?_, fun _ => exists_backslash_of_leftOpen?⟩
  rw [happend]
  cases hopen : leftOpen? s.toList with
  | none => exact iff_of_true rfl (by simp)
  | some entry =>
    obtain ⟨key, value⟩ := entry
    have hsorted : (ofText s).Sorted := Dictionary.sorted_ofList _
    refine hsorted.insert_eq_self_iff.trans ?_
    refine ⟨fun hfind key' value' he => ?_, fun hall => hall _ _ rfl⟩
    cases he
    exact hfind

theorem ofText_append_newlines_repeated :
    ofText ("a=b\na:\\\n b\\" ++ "\n\n") = ofText "a=b\na:\\\n b\\" := by
  refine (ofText_append_newlines _).2.1.2 fun key value h => ?_
  have hopen : leftOpen? "a=b\na:\\\n b\\".toList = some ("a", "b") := by decide
  obtain ⟨rfl, rfl⟩ := Prod.mk.inj (Option.some.inj (hopen.symm.trans h))
  decide

/-- The entry is lost where the text ends, and kept in front of an empty line. -/
theorem ofText_drops_open_entry :
    ofText "a=b\\" = [] ∧ ofText ("a=b\\" ++ "\n\n") = [("a", "b")] := by
  decide

end SearchMapper.Catalog
