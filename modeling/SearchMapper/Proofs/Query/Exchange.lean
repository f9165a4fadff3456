import SearchMapper.Proofs.Query.Instants
import SearchMapper.Proofs.Query.Terms

namespace SearchMapper.Value

open Time (Instant)

mutual

def exchanged : Value → Value
  | .float x => if x.isFinite then .float x else .null
  | .instant t => .text t.exactText
  | .list items => .list (exchangedItems items)
  | v => v

def exchangedItems : List Value → List Value
  | [] => []
  | item :: rest => exchanged item :: exchangedItems rest

end

mutual

def instants : Value → List Instant
  | .instant t => [t]
  | .list items => itemInstants items
  | _ => []

def itemInstants : List Value → List Instant
  | [] => []
  | item :: rest => instants item ++ itemInstants rest

end

mutual

def isFinite : Value → Bool
  | .float x => x.isFinite
  | .list items => areFinite items
  | _ => true

def areFinite : List Value → Bool
  | [] => true
  | item :: rest => isFinite item && areFinite rest

end

section Exchange

mutual

theorem ofJson?_toJson : ∀ v : Value, ofJson? v.toJson = some v.exchanged
  | .null | .text _ | .bool _ | .instant _ => rfl
  | .int i => by
    rw [toJson, ofJson?, Int64.ofInt_toInt, if_pos rfl]
    rfl
  | .float x => by
    rw [toJson, Json.ofDouble, exchanged]
    split <;> rfl
  | .list items => by
    rw [toJson, ofJson?, itemsOfJson?_itemsToJson items, exchanged]
    rfl

theorem itemsOfJson?_itemsToJson :
    ∀ items, itemsOfJson? (itemsToJson items) = some (exchangedItems items)
  | [] => rfl
  | item :: rest => by
    rw [itemsToJson, itemsOfJson?, ofJson?_toJson item, itemsOfJson?_itemsToJson rest]
    rfl

end

mutual

theorem exchanged_eq_self_iff :
    ∀ v : Value, v.isFinite = true → (v.exchanged = v ↔ v.instants = [])
  | .null, _ | .text _, _ | .bool _, _ | .int _, _ => iff_of_true rfl rfl
  | .float x, h => iff_of_true (if_pos h) rfl
  | .instant t, _ => iff_of_false nofun nofun
  | .list items, h => by
    rw [exchanged, instants, list.injEq]
    exact exchangedItems_eq_self_iff items h

theorem exchangedItems_eq_self_iff :
    ∀ items, areFinite items = true → (exchangedItems items = items ↔ itemInstants items = [])
  | [], _ => iff_of_true rfl rfl
  | item :: rest, h => by
    rw [areFinite, Bool.and_eq_true] at h
    rw [exchangedItems, itemInstants, List.cons.injEq, List.append_eq_nil_iff,
      exchanged_eq_self_iff item h.1, exchangedItems_eq_self_iff rest h.2]

end

end Exchange

section Texts

open Time (all_isStampMark_exactText all_isStampMark_text fractionText_cases isDigit_of_mem_padded
  isStampMark padded)

variable {t : Instant} {g : Char → List Char}

theorem flatMap_stamp (hg : ∀ c, isStampMark c = true → g c = [c]) {s : List Char}
    (hs : s.all isStampMark = true) : s.flatMap g = s := by
  induction s with
  | nil => rfl
  | cons c s ih =>
    rw [List.all_cons, Bool.and_eq_true] at hs
    rw [List.flatMap_cons, hg c hs.1, ih hs.2]
    rfl

theorem exactText_append_iff (t : Instant) (x y : List Char) :
    t.exactText.toList ++ x = t.text.toList ++ y ↔ t.exactText = t.text ∧ x = y := by
  refine ⟨fun h => ?_, fun ⟨he, hx⟩ => by rw [he, hx]⟩
  simp only [Instant.exactText, Instant.text, String.toList_append, List.append_assoc,
    List.append_cancel_left_eq] at h
  obtain hf | ⟨width, n, hf⟩ := fractionText_cases t.secondOfMinute.2
  · rw [hf] at h
    simp at h
  · rw [hf, String.toList_append, List.append_assoc, List.append_cancel_left_eq] at h
    have hspan (width n : Nat) (x : List Char) :
        Text.span Char.isDigit ((padded width n).toList ++ ("Z".toList ++ x)) =
          ((padded width n).toList, "Z".toList ++ x) :=
      Text.span_append (fun _ => isDigit_of_mem_padded) (by simp)
    have hdigits := congrArg (Text.span Char.isDigit) h
    rw [hspan, hspan, Prod.mk.injEq, List.append_cancel_left_eq, String.toList_inj] at hdigits
    refine ⟨?_, hdigits.2⟩
    rw [Instant.exactText, Instant.text, hf, hdigits.1, String.append_assoc, String.append_assoc,
      String.append_assoc, String.append_assoc]

theorem toText_list (items : List Value) :
    (list items).toText = " ".intercalate (itemTexts items) := rfl

-- `x` and `y` follow the two texts: in a list they are the rest of it, which has to line up again
-- behind a point in time.
mutual

theorem flatMap_toText_exchanged (hg : ∀ c, isStampMark c = true → g c = [c]) :
    ∀ v : Value, v.isFinite = true → ∀ x y : List Char,
      (v.exchanged.toText.toList.flatMap g ++ x = v.toText.toList.flatMap g ++ y ↔
        (∀ t ∈ v.instants, t.exactText = t.text) ∧ x = y)
  | .null, _, x, y | .text _, _, x, y | .bool _, _, x, y | .int _, _, x, y => by
    simp [exchanged, instants]
  | .float v, h, x, y => by
    have hv : v.isFinite = true := h
    simp [exchanged, instants, hv]
  | .instant t, _, x, y => by
    have hexact := flatMap_stamp hg (all_isStampMark_exactText t)
    have htext := flatMap_stamp hg (all_isStampMark_text t)
    rw [exchanged, toText, toText, hexact, htext, exactText_append_iff, instants,
      List.forall_mem_singleton]
  | .list items, h, x, y => by
    rw [exchanged, toText_list, toText_list, instants]
    exact flatMap_itemTexts_exchanged hg items h x y

theorem flatMap_itemTexts_exchanged (hg : ∀ c, isStampMark c = true → g c = [c]) :
    ∀ items, areFinite items = true → ∀ x y : List Char,
      ((" ".intercalate (itemTexts (exchangedItems items))).toList.flatMap g ++ x =
          (" ".intercalate (itemTexts items)).toList.flatMap g ++ y ↔
        (∀ t ∈ itemInstants items, t.exactText = t.text) ∧ x = y)
  | [], _, x, y => by simp [exchangedItems, itemTexts, itemInstants]
  | [item], h, x, y => by
    rw [areFinite, Bool.and_eq_true] at h
    have hitem := flatMap_toText_exchanged hg item h.1 x y
    simpa [exchangedItems, itemTexts, itemInstants] using hitem
  | item :: next :: rest, h, x, y => by
    rw [areFinite, Bool.and_eq_true] at h
    have hrest := flatMap_itemTexts_exchanged hg (next :: rest) h.2 x y
    simp only [exchangedItems, itemTexts, itemInstants] at hrest ⊢
    rw [String.intercalate_cons_cons, String.intercalate_cons_cons]
    simp only [String.toList_append, List.flatMap_append, List.append_assoc]
    rw [flatMap_toText_exchanged hg item h.1, List.append_cancel_left_eq, hrest]
    simp only [List.forall_mem_append, and_assoc]

end

theorem exactText_ne_empty (t : Instant) : t.exactText ≠ "" := by
  intro h
  have hz : 'Z' ∈ t.exactText.toList := by simp [Instant.exactText]
  rw [h] at hz
  cases hz

theorem isQuoted_of_stamp {s : String} (hne : s ≠ "") (hs : s.toList.all isStampMark = true) :
    Plain.isQuoted s = false := by
  have hblank : Text.hasBlank s = false := by
    refine List.any_eq_false.2 fun c hc => ?_
    rw [Bool.not_eq_true]
    exact Time.isBlank_of_isStampMark (List.all_eq_true.1 hs c hc)
  simp [Plain.isQuoted, hne, hblank]

theorem isQuoted_exchanged :
    ∀ v : Value, v.isFinite = true →
      Plain.isQuoted v.exchanged.toText = Plain.isQuoted v.toText
  | .null, _ | .text _, _ | .bool _, _ | .int _, _ => rfl
  | .float x, h => by
    have hx : x.isFinite = true := h
    rw [exchanged, if_pos hx]
  | .instant t, _ => by
    have hne : t.text ≠ "" := fun he => by
      have hcolon := t.colon_mem_text
      rw [he] at hcolon
      cases hcolon
    rw [exchanged, toText, toText,
      isQuoted_of_stamp (exactText_ne_empty t) (all_isStampMark_exactText t),
      isQuoted_of_stamp hne (all_isStampMark_text t)]
  | .list [], _ => rfl
  | .list [item], h => by
    rw [isFinite, areFinite, Bool.and_eq_true] at h
    have hitem := isQuoted_exchanged item h.1
    simpa [exchanged, exchangedItems, toText_list, itemTexts] using hitem
  | .list (item :: next :: rest), _ => by
    have hblank (a b : String) (texts : List String) :
        Plain.isQuoted (" ".intercalate (a :: b :: texts)) = true := by
      simp [Plain.isQuoted, Text.hasBlank, String.intercalate_cons_cons, Text.isBlank_space]
    simp only [exchanged, exchangedItems, toText_list, itemTexts, hblank]

variable {v : Value}

theorem toText_exchanged_iff (h : v.isFinite = true) :
    v.exchanged.toText = v.toText ↔ ∀ t ∈ v.instants, t.exactText = t.text := by
  have htexts := flatMap_toText_exchanged (g := fun c => [c]) (fun _ _ => rfl) v h [] []
  simpa [String.toList_inj] using htexts

theorem quoted_toText_exchanged_iff (h : v.isFinite = true) :
    quoted v.exchanged.toText = quoted v.toText ↔ ∀ t ∈ v.instants, t.exactText = t.text := by
  have hg : ∀ c, isStampMark c = true → (if c = '"' then ['\\', '"'] else [c]) = [c] := by
    intro c hc
    refine if_neg ?_
    rintro rfl
    cases hc
  have htexts := flatMap_toText_exchanged hg v h ['"'] ['"']
  rw [← String.toList_inj, Plain.quoted_toList, Plain.quoted_toList, List.cons.injEq]
  simpa [Index.Reading.escaped] using htexts

theorem term_eq (hi : v.isInstant = false) :
    v.term = if Plain.isQuoted v.toText then quoted v.toText else v.toText := by
  simp [term, hi, Plain.isQuoted]

theorem isInstant_exchanged (v : Value) : v.exchanged.isInstant = false := by
  cases v with
  | float x =>
    rw [exchanged]
    split <;> rfl
  | _ => rfl

theorem term_text_exactText (t : Instant) : (text t.exactText).term = t.exactText := by
  rw [term_eq rfl]
  exact if_neg (by
    rw [toText, isQuoted_of_stamp (exactText_ne_empty t) (all_isStampMark_exactText t)]
    decide)

/-- A point in time is quoted in the place of a term, and the text that it comes back as is not. -/
theorem term_exchanged_iff (h : v.isFinite = true) :
    v.exchanged.term = v.term ↔
      v.isInstant = false ∧ ∀ t ∈ v.instants, t.exactText = t.text := by
  cases hi : v.isInstant with
  | true =>
    obtain ⟨t, rfl⟩ : ∃ t, v = .instant t := by
      cases v <;> simp_all [isInstant]
    refine iff_of_false (fun he => ?_) (by simp)
    have hterm : (instant t).term = quoted t.text := by simp [term, isInstant, toText]
    rw [exchanged, term_text_exactText, hterm] at he
    have hquote : '"' ∈ t.exactText.toList := by
      rw [he, Plain.quoted_toList]
      exact List.mem_cons_self
    exact absurd (List.all_eq_true.1 (all_isStampMark_exactText t) _ hquote) (by decide)
  | false =>
    rw [term_eq hi, term_eq (isInstant_exchanged v), isQuoted_exchanged v h, and_iff_right rfl]
    split
    · exact quoted_toText_exchanged_iff h
    · exact toText_exchanged_iff h

theorem bound_exchanged_iff (h : v.isFinite = true) :
    v.exchanged.bound = v.bound ↔ ∀ t ∈ v.instants, t.exactText = t.text := by
  have hterm (hi : v.isInstant = false) := (term_exchanged_iff h).trans (and_iff_right hi)
  cases v with
  | null => exact iff_of_true rfl nofun
  | instant t =>
    have hbound : (text t.exactText).bound = t.exactText := term_text_exactText t
    rw [exchanged, hbound, bound, instants, List.forall_mem_singleton]
  | float x =>
    have hx : x.isFinite = true := h
    rw [exchanged, if_pos hx]
    exact iff_of_true rfl nofun
  | _ => exact hterm rfl

end Texts

/-- What comes back from JSON has each point in time as the text that it was stored as, since no
mark tells the two apart. So the value itself comes back just when there is none in it. In the place
of a term it has the same text just when it is no point in time itself and those in it have the
digits of milliseconds, and as a bound also if it is one. -/
theorem ofJson?_toJson_exchanged (h : v.isFinite = true) :
    ofJson? v.toJson = some v.exchanged ∧ (ofJson? v.toJson = some v ↔ v.instants = []) ∧
      (v.exchanged.term = v.term ↔
        v.isInstant = false ∧ ∀ t ∈ v.instants, t.exactText = t.text) ∧
      (v.exchanged.bound = v.bound ↔ ∀ t ∈ v.instants, t.exactText = t.text) := by
  refine ⟨ofJson?_toJson v, ?_, term_exchanged_iff h, bound_exchanged_iff h⟩
  rw [ofJson?_toJson, Option.some_inj, exchanged_eq_self_iff v h]

theorem ofJson?_toJson_exchanged_nested :
    (list [.text "a b", .list [.int (-1), .instant ⟨0, 1000000⟩], .list []]).isFinite = true ∧
      ofJson? (list [.text "a b", .list [.int (-1), .instant ⟨0, 1000000⟩], .list []]).toJson =
        some (list [.text "a b", .list [.int (-1), .text "1970-01-01T00:00:00.001Z"], .list []]) ∧
      (list [.text "a b", .list [.int (-1), .text "1970-01-01T00:00:00.001Z"], .list []]).term =
        (list [.text "a b", .list [.int (-1), .instant ⟨0, 1000000⟩], .list []]).term := by
  obtain ⟨hback, -, hterm, -⟩ := @ofJson?_toJson_exchanged
    (list [.text "a b", .list [.int (-1), .instant ⟨0, 1000000⟩], .list []]) rfl
  exact ⟨rfl, hback, hterm.2 ⟨rfl, List.forall_mem_singleton.2 (by decide)⟩⟩

/-- A point in time has the JSON form of its text, and is quoted where that is not. -/
theorem ofJson?_toJson_instant :
    (instant ⟨0, 1000000⟩).toJson = (text "1970-01-01T00:00:00.001Z").toJson ∧
      ofJson? (instant ⟨0, 1000000⟩).toJson = some (text "1970-01-01T00:00:00.001Z") ∧
      some (text "1970-01-01T00:00:00.001Z") ≠ some (instant ⟨0, 1000000⟩) ∧
      (text "1970-01-01T00:00:00.001Z").term ≠ (instant ⟨0, 1000000⟩).term := by
  have htext : (Time.Instant.mk 0 1000000).exactText = "1970-01-01T00:00:00.001Z" := by
    decide
  have hjson : (instant ⟨0, 1000000⟩).toJson = (text "1970-01-01T00:00:00.001Z").toJson := by
    rw [toJson, toJson, htext]
  exact ⟨hjson, hjson ▸ ofJson?_toJson (text _), nofun, by decide⟩

end SearchMapper.Value
