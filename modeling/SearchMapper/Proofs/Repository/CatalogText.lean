import SearchMapper.Proofs.Dictionary
import SearchMapper.Proofs.Text.Scanning
import SearchMapper.Repository.Catalog

namespace SearchMapper.Catalog

open Text (before? isBlank trim trimEnd trimStart)

def isInline (c : Char) : Bool :=
  isBlank c && c ≠ '\n' && c ≠ '\r'

def IsLineEnd (s : List Char) : Prop :=
  s = ['\n'] ∨ s = ['\r', '\n']

def startsVisible (s : List Char) : Bool :=
  s.head?.all fun c => !isBlank c

def endsVisible (s : List Char) : Bool :=
  s.getLast?.all fun c => !isBlank c

structure IsKey (key : List Char) : Prop where
  ne_nil : key ≠ []
  unmarked : (key.all fun c => c ∉ ['=', ':', '\n']) = true
  uncommented : key.head? ∉ [some '#', some '!']
  starts : startsVisible key = true
  ends : endsVisible key = true

structure IsValue (value : List Char) : Prop where
  unbroken : '\n' ∉ value
  unescaped : value.getLast? ≠ some '\\'
  starts : startsVisible value = true
  ends : endsVisible value = true

/-- An entry on a line of its own. -/
inductive EntryText : String × String → List Char → Prop
  | entry {key value : String} {mark : Char} (before after : List Char) (hk : IsKey key.toList)
      (hb : before.all isInline = true) (hm : mark = '=' ∨ mark = ':')
      (ha : after.all isInline = true) (hv : IsValue value.toList) :
      EntryText (key, value) (key.toList ++ before ++ mark :: (after ++ value.toList))

/-- The rest of an entry on one or more lines, when `front` stands before it. Each break follows a
character of the entry, and no blank follows a break. -/
inductive Broken : List Char → List Char → List Char → Prop
  | last {front text ends : List Char} (indent : List Char) (hi : indent.all isInline = true)
      (ht : startsVisible text = true) (he : IsLineEnd ends) :
      Broken front text (indent ++ (text ++ ends))
  | more {front text ends written : List Char} (indent part : List Char)
      (hi : indent.all isInline = true) (ht : startsVisible (part ++ text) = true)
      (hne : front ++ part ≠ []) (he : IsLineEnd ends) (h : Broken (front ++ part) text written) :
      Broken front (part ++ text) (indent ++ (part ++ '\\' :: (ends ++ written)))

/-- Lines that hold the entries, with empty lines and comments between them. -/
inductive LaidOut : List (String × String) → List Char → Prop
  | nil : LaidOut [] []
  | skipped {entries : List (String × String)} {s ends : List Char} (indent comment : List Char)
      (hi : indent.all isInline = true) (hc : isComment comment = true) (hn : '\n' ∉ comment)
      (he : IsLineEnd ends) (h : LaidOut entries s) :
      LaidOut entries (indent ++ (comment ++ (ends ++ s)))
  | entry {entry : String × String} {entries : List (String × String)} {text written s : List Char}
      (ht : EntryText entry text) (hw : Broken [] text written) (h : LaidOut entries s) :
      LaidOut (entry :: entries) (written ++ s)

/-- A last line with something on it may lack its end. -/
def IsText (entries : List (String × String)) (s : List Char) : Prop :=
  LaidOut entries s ∨
    LaidOut entries (s ++ ['\n']) ∧ s.getLast? ∉ [none, some '\n', some '\r']

variable {line read s front part text ends indent written : List Char} {c : Char}

section Lines

theorem lines_cons_of_ne (h : c ≠ '\n') (front s : List Char) :
    lines front (c :: s) = lines (c :: front) s := by
  rw [lines]
  exact fun he => h he

theorem lines_append (hn : '\n' ∉ line) (front s : List Char) :
    lines front (line ++ s) = lines (line.reverse ++ front) s := by
  induction line generalizing front with
  | nil => rfl
  | cons c line ih =>
    have hc : c ≠ '\n' := fun he => hn (he ▸ List.mem_cons_self)
    rw [List.cons_append, lines_cons_of_ne hc, ih fun hm => hn (List.mem_cons_of_mem _ hm)]
    simp

theorem lines_newline (line : List Char) :
    ∃ read, (∀ s, lines line.reverse ('\n' :: s) = read :: lines [] s) ∧ read <+: line ∧
      (line.getLast? ≠ some '\r' → read = line) := by
  by_cases hr : line.getLast? = some '\r'
  · obtain ⟨front, rfl⟩ := List.getLast?_eq_some_iff.1 hr
    refine ⟨front, fun s => ?_, List.prefix_append _ _, fun h => absurd hr h⟩
    rw [List.reverse_append, List.reverse_singleton, List.singleton_append, lines,
      List.reverse_reverse]
  · refine ⟨line, fun s => ?_, List.prefix_refl line, fun _ => rfl⟩
    rw [lines, List.reverse_reverse]
    intro front hfront
    rw [← List.head?_reverse, hfront] at hr
    exact hr rfl

theorem exists_lines_eq_cons (hn : '\n' ∉ line) (he : IsLineEnd ends) (s : List Char) :
    ∃ read, lines [] (line ++ (ends ++ s)) = read :: lines [] s ∧ read <+: line ∧
      (line.getLast? ≠ some '\r' → read = line) := by
  rw [lines_append hn, List.append_nil]
  obtain rfl | rfl := he
  · obtain ⟨read, hread, hline⟩ := lines_newline line
    exact ⟨read, hread s, hline⟩
  · refine ⟨line, ?_, List.prefix_refl line, fun _ => rfl⟩
    rw [List.cons_append, lines_cons_of_ne (by decide)]
    simp [lines]

theorem lines_eq_cons (hn : '\n' ∉ line) (hr : line.getLast? ≠ some '\r') (he : IsLineEnd ends)
    (s : List Char) : lines [] (line ++ (ends ++ s)) = line :: lines [] s := by
  obtain ⟨read, hread, -, heq⟩ := exists_lines_eq_cons hn he s
  rw [hread, heq hr]

theorem lines_append_newline (front : List Char)
    (hs : (front.reverse ++ s).getLast? ∉ [none, some '\n', some '\r']) :
    lines front (s ++ ['\n']) = lines front s := by
  induction s generalizing front with
  | nil =>
    rw [List.append_nil] at hs
    obtain ⟨read, hread, -, hline⟩ := lines_newline front.reverse
    rw [List.reverse_reverse] at hread
    have hfront : front ≠ [] := by
      rintro rfl
      simp at hs
    rw [List.nil_append, hread, hline fun hr => by simp [hr] at hs, lines, lines, if_pos rfl,
      if_neg hfront]
  | cons c s ih =>
    by_cases hc : c = '\n'
    · subst hc
      have hrest : s.getLast? ∉ [none, some '\n', some '\r'] := by
        cases s with
        | nil => simp at hs
        | cons d s => simpa [List.getLast?_append] using hs
      obtain ⟨read, hread, -⟩ := lines_newline front.reverse
      rw [List.reverse_reverse] at hread
      rw [List.cons_append, hread, hread, ih [] hrest]
    · rw [List.cons_append, lines_cons_of_ne hc, lines_cons_of_ne hc]
      exact ih (c :: front) (by simpa using hs)

end Lines

section Entries

theorem isBlank_of_indent (hi : indent.all isInline = true) : ∀ c ∈ indent, isBlank c = true := by
  intro c hc
  have hinline := List.all_eq_true.1 hi c hc
  simp only [isInline, Bool.and_eq_true] at hinline
  exact hinline.1.1

theorem isBlank_of_startsVisible (h : startsVisible s = true) :
    ∀ c ∈ s.head?, isBlank c = false := by
  intro c hc
  simpa [startsVisible, Option.mem_def.1 hc] using h

theorem isBlank_of_endsVisible (h : endsVisible s = true) :
    ∀ c ∈ s.getLast?, isBlank c = false := by
  intro c hc
  simpa [endsVisible, Option.mem_def.1 hc] using h

theorem trimStart_indent (hi : indent.all isInline = true) (ht : startsVisible text = true) :
    trimStart (indent ++ text) = text :=
  congrArg Prod.snd (Text.span_append (isBlank_of_indent hi) (isBlank_of_startsVisible ht))

theorem isComment_of_isPrefix (hp : read <+: line) (h : isComment (trimStart line) = true) :
    isComment (trimStart read) = true := by
  obtain ⟨back, rfl⟩ := hp
  cases hread : trimStart read with
  | nil => rfl
  | cons c rest =>
    rw [Text.trimStart_append_of_eq_cons hread] at h
    exact h

theorem notMem_indent (hc : isInline c = false) (hi : indent.all isInline = true) : c ∉ indent := by
  intro hm
  simp [List.all_eq_true.1 hi c hm] at hc

theorem entries_skipped {comment : List Char} (hi : indent.all isInline = true)
    (hc : isComment comment = true) (hn : '\n' ∉ comment) (he : IsLineEnd ends) (s : List Char) :
    entries [] (lines [] (indent ++ (comment ++ (ends ++ s)))) = entries [] (lines [] s) := by
  have hline : '\n' ∉ indent ++ comment := by
    simp [hn, notMem_indent (by decide : isInline '\n' = false) hi]
  have hvisible : startsVisible comment = true := by
    cases comment with
    | nil => rfl
    | cons c rest =>
      obtain rfl | rfl : c = '#' ∨ c = '!' := by simpa [isComment] using hc
      all_goals rfl
  obtain ⟨read, hread, hp, -⟩ := exists_lines_eq_cons hline he s
  have hcomment := isComment_of_isPrefix hp ((trimStart_indent hi hvisible).symm ▸ hc)
  rw [← List.append_assoc, hread, entries, if_pos ⟨rfl, hcomment⟩]

theorem entries_cons {pending : List Char} (hc : pending = [] → isComment (trimStart line) = false)
    (rest : List (List Char)) :
    entries pending (line :: rest) =
      match before? ['\\'] (trimStart line) with
      | some continued => entries (pending ++ continued) rest
      | none => (entryOf? (pending ++ trimStart line)).toList ++ entries [] rest := by
  have hread : ¬(pending = [] ∧ isComment (trimStart line) = true) := by
    rintro ⟨hnil, hcomment⟩
    rw [hc hnil] at hcomment
    cases hcomment
  exact if_neg hread

theorem entries_continued {pending : List Char} (hline : trimStart line = part ++ ['\\'])
    (hc : pending = [] → isComment (part ++ ['\\']) = false) (rest : List (List Char)) :
    entries pending (line :: rest) = entries (pending ++ part) rest := by
  rw [entries_cons (hline ▸ hc), hline, Text.before?_eq_some_iff.2 rfl]

theorem entries_ended {pending : List Char} (hline : trimStart line = text)
    (hb : text.getLast? ≠ some '\\') (hc : pending = [] → isComment text = false)
    (rest : List (List Char)) :
    entries pending (line :: rest) = (entryOf? (pending ++ text)).toList ++ entries [] rest := by
  have hbefore : before? ['\\'] text = none := by
    refine Option.eq_none_iff_forall_ne_some.2 fun front hfront => hb ?_
    rw [Text.before?_eq_some_iff.1 hfront, List.getLast?_concat]
  rw [entries_cons (hline ▸ hc), hline, hbefore]

theorem entries_of_broken (h : Broken front text written)
    (hc : front = [] → isComment text = false) (hn : '\n' ∉ text)
    (hl : text.getLast? ∉ [some '\\', some '\r']) (s : List Char) :
    entries front (lines [] (written ++ s)) =
      (entryOf? (front ++ text)).toList ++ entries [] (lines [] s) := by
  induction h with
  | @last front text ends indent hi ht he =>
    have hline : '\n' ∉ indent ++ text := by
      simp [hn, notMem_indent (by decide : isInline '\n' = false) hi]
    have hr : (indent ++ text).getLast? ≠ some '\r' := by
      rw [Ne, List.getLast?_append, Option.or_eq_some_iff, not_or]
      exact ⟨fun hr => hl (by simp [hr]),
        fun hr => notMem_indent (by decide) hi (List.mem_of_getLast? hr.2)⟩
    have hwritten : indent ++ (text ++ ends) ++ s = indent ++ text ++ (ends ++ s) := by simp
    rw [hwritten, lines_eq_cons hline hr he]
    exact entries_ended (trimStart_indent hi ht) (fun hb => hl (by simp [hb])) hc _
  | @more front text ends written indent part hi ht hne he h ih =>
    -- The backslash puts this part behind what came before it, and the next line starts from there.
    rw [List.mem_append, not_or] at hn
    have hline : '\n' ∉ indent ++ (part ++ ['\\']) := by
      simp [hn, notMem_indent (by decide : isInline '\n' = false) hi]
    have hr : (indent ++ (part ++ ['\\'])).getLast? ≠ some '\r' := by
      simp [← List.append_assoc]
    have hwritten : indent ++ (part ++ '\\' :: (ends ++ written)) ++ s =
        indent ++ (part ++ ['\\']) ++ (ends ++ (written ++ s)) := by simp
    have hvisible : startsVisible (part ++ ['\\']) = true := by
      cases part with
      | nil => rfl
      | cons c part => exact ht
    have hcomment : front = [] → isComment (part ++ ['\\']) = false := by
      intro hfront
      cases part with
      | nil => rfl
      | cons c part => exact hc hfront
    have hlast : text.getLast? ∉ [some '\\', some '\r'] := by
      cases hm : text.getLast? with
      | none => simp
      | some c => simpa [List.getLast?_append, hm] using hl
    rw [hwritten, lines_eq_cons hline hr he,
      entries_continued (trimStart_indent hi hvisible) hcomment,
      ih (fun hnil => absurd hnil hne) hn.2 hlast, List.append_assoc]

theorem trimEnd_indent (hi : indent.all isInline = true) (ht : endsVisible text = true) :
    trimEnd (text ++ indent) = text := by
  have hstart : trimStart (indent.reverse ++ text.reverse) = text.reverse :=
    trimStart_indent (by rwa [List.all_reverse]) (by rwa [startsVisible, List.head?_reverse])
  have hend : trimEnd (text ++ indent) = (trimStart (text ++ indent).reverse).reverse := rfl
  rw [hend, List.reverse_append, hstart, List.reverse_reverse]

theorem IsKey.notMem {key : List Char} (h : IsKey key) : ∀ c ∈ ['=', ':', '\n'], c ∉ key := by
  intro c hc hm
  have hunmarked := List.all_eq_true.1 h.unmarked c hm
  exact of_decide_eq_true hunmarked hc

theorem entryOf?_of_entryText {entry : String × String} (h : EntryText entry text) :
    entryOf? text = some entry := by
  cases h with
  | @entry key value mark before after hk hb hm ha hv =>
    have hfront : ∀ c ∈ key.toList ++ before, (!(c = '=' || c = ':')) = true := by
      intro c hc
      rw [Bool.not_eq_true', Bool.eq_false_iff]
      intro hmark
      obtain rfl | rfl : c = '=' ∨ c = ':' := by simpa using hmark
      all_goals
        obtain hc | hc := List.mem_append.1 hc
        · exact hk.notMem _ (by decide) hc
        · exact notMem_indent (by decide) hb hc
    have hspan : Text.span (fun c => !(c = '=' || c = ':'))
        (key.toList ++ before ++ mark :: (after ++ value.toList)) =
          (key.toList ++ before, mark :: (after ++ value.toList)) :=
      Text.span_append hfront fun c hc => by
        obtain rfl : mark = c := Option.some.inj hc
        rw [Bool.not_eq_false']
        simpa using hm
    have hkey : trim (key.toList ++ before) = key.toList := by
      rw [trim, Text.trimStart_eq_self, trimEnd_indent hb hk.ends]
      rw [List.head?_append_of_ne_nil _ hk.ne_nil]
      exact isBlank_of_startsVisible hk.starts
    have hvalue : trim (after ++ value.toList) = value.toList := by
      have hself := Text.trim_eq_self (isBlank_of_startsVisible hv.starts)
        (isBlank_of_endsVisible hv.ends)
      rw [trim, Text.trimStart_eq_self (isBlank_of_startsVisible hv.starts)] at hself
      rw [trim, trimStart_indent ha hv.starts, hself]
    rw [entryOf?, hspan]
    dsimp only
    rw [hkey, hvalue]
    split
    · next hnil => exact absurd hnil hk.ne_nil
    · simp

theorem isComment_of_entryText {entry : String × String} (h : EntryText entry text) :
    isComment text = false := by
  cases h with
  | @entry key value mark before after hk =>
    obtain ⟨c, rest, hc⟩ := List.exists_cons_of_ne_nil hk.ne_nil
    have hstart := hk.uncommented
    rw [hc] at hstart ⊢
    simpa [isComment] using hstart

theorem newline_notMem_of_entryText {entry : String × String} (h : EntryText entry text) :
    '\n' ∉ text := by
  cases h with
  | @entry key value mark before after hk hb hm ha hv =>
    have hkey : '\n' ∉ key.toList := hk.notMem _ (by decide)
    have hmark : '\n' ≠ mark := by
      obtain rfl | rfl := hm <;> decide
    have hinline : isInline '\n' = false := by decide
    simp [hkey, hmark, notMem_indent hinline hb, notMem_indent hinline ha, hv.unbroken]

theorem getLast?_of_entryText {entry : String × String} (h : EntryText entry text) :
    text.getLast? ∉ [some '\\', some '\r'] := by
  cases h with
  | @entry key value mark before after hk hb hm ha hv =>
    rw [List.getLast?_append_cons, ← List.cons_append, List.getLast?_append]
    cases hlast : value.toList.getLast? with
    | some c =>
      have hescape : some c ≠ some '\\' := hlast ▸ hv.unescaped
      have hreturn : c ≠ '\r' := by
        rintro rfl
        exact absurd (isBlank_of_endsVisible hv.ends _ hlast) (by decide)
      simpa [hreturn] using hescape
    | none =>
      have hother : ∀ c ∈ ['\\', '\r'], c ∉ mark :: after := by
        intro c hc hm'
        obtain rfl | hm' := List.mem_cons.1 hm'
        · obtain rfl | rfl := hm <;> exact absurd hc (by decide)
        · refine notMem_indent ?_ ha hm'
          obtain rfl | rfl : c = '\\' ∨ c = '\r' := by simpa using hc
          all_goals decide
      rw [Option.none_or, List.mem_pair, not_or]
      exact ⟨fun h => hother _ (by decide) (List.mem_of_getLast? h),
        fun h => hother _ (by decide) (List.mem_of_getLast? h)⟩

end Entries

theorem entries_of_laidOut {entries : List (String × String)} (h : LaidOut entries s) :
    Catalog.entries [] (lines [] s) = entries := by
  induction h with
  | nil => rfl
  | skipped indent comment hi hc hn he h ih => rw [entries_skipped hi hc hn he, ih]
  | entry ht hw h ih =>
    rw [entries_of_broken hw (fun _ => isComment_of_entryText ht) (newline_notMem_of_entryText ht)
      (getLast?_of_entryText ht), ih, List.nil_append, entryOf?_of_entryText ht]
    rfl

theorem entries_of_isText {entries : List (String × String)} (h : IsText entries s) :
    Catalog.entries [] (lines [] s) = entries := by
  obtain h | ⟨h, hlast⟩ := h
  · exact entries_of_laidOut h
  · rw [← lines_append_newline [] hlast, entries_of_laidOut h]

/-- A catalog is read as the last of its entries for each key, whatever the layout of its text. -/
theorem ofText_of_isText {entries : List (String × String)} {s : String}
    (h : IsText entries s.toList) :
    (ofText s).Sorted ∧ ∀ key value, (ofText s).find? key = some value ↔
      ∃ front back, entries = front ++ (key, value) :: back ∧ ∀ entry ∈ back, entry.1 ≠ key := by
  have hentries : ofText s = .ofList entries := congrArg Dictionary.ofList (entries_of_isText h)
  rw [hentries]
  exact ⟨Dictionary.sorted_ofList entries, fun key value => Dictionary.find?_ofList_iff_last⟩

/-- A comment that ends in a backslash, and an entry with breaks in its key and before its mark, one
of them in front of a number sign. -/
theorem ofText_of_isText_products :
    (ofText "# old \\\r\nProduct.#list:a\r\n\t\n Product.\\\n  #list\\\r\n\\\n= name:?0").find?
      "Product.#list" = some "name:?0" := by
  have hkey : IsKey "Product.#list".toList :=
    ⟨by decide, by decide, by decide, by decide, by decide⟩
  have hold : IsValue "a".toList := ⟨by decide, by decide, by decide, by decide⟩
  have hnew : IsValue "name:?0".toList :=
    ⟨by decide, by decide, by decide, by decide⟩
  have hfirst : EntryText ("Product.#list", "a") _ :=
    .entry [] [] hkey rfl (.inr rfl) rfl hold
  have hsecond : EntryText ("Product.#list", "name:?0") _ :=
    .entry [] [' '] hkey rfl (.inl rfl) rfl hnew
  have htext : "Product.#list".toList ++ [] ++ '=' :: ([' '] ++ "name:?0".toList) =
      "Product.".toList ++ ("#list".toList ++ ([] ++ "= name:?0".toList)) := by decide
  rw [htext] at hsecond
  have hbroken :
      Broken [] ("Product.".toList ++ ("#list".toList ++ ([] ++ "= name:?0".toList))) _ :=
    .more [' '] _ rfl (by decide) (by decide) (.inl rfl)
      (.more [' ', ' '] _ rfl (by decide) (by decide) (.inr rfl)
        (.more [] _ rfl (by decide) (by decide) (.inl rfl)
          (.last [] rfl (by decide) (.inl rfl))))
  have hlaid : LaidOut [("Product.#list", "a"), ("Product.#list", "name:?0")] _ :=
    .skipped [] "# old \\".toList rfl rfl (by decide) (.inr rfl)
      (.entry hfirst (.last [] rfl (by decide) (.inr rfl))
        (.skipped ['\t'] [] rfl rfl (by decide) (.inl rfl) (.entry hsecond hbroken .nil)))
  have hread := @ofText_of_isText [("Product.#list", "a"), ("Product.#list", "name:?0")]
    "# old \\\r\nProduct.#list:a\r\n\t\n Product.\\\n  #list\\\r\n\\\n= name:?0"
    (.inr ⟨?_, ?_⟩)
  · exact (hread.2 _ _).2 ⟨[("Product.#list", "a")], [], rfl, nofun⟩
  · convert hlaid using 1
    decide
  · decide

end SearchMapper.Catalog
