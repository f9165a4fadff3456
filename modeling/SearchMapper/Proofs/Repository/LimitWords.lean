import SearchMapper.Proofs.MethodName.Pieces
import SearchMapper.Proofs.Repository.Resolution

namespace SearchMapper

namespace MethodName

open Text

def modifiersIn : List Char → List Char
  | [] => []
  | c :: s =>
    if (after? "By".toList (c :: s)).isSome || (after? "OrderBy".toList (c :: s)).isSome then []
    else c :: modifiersIn s

/-- The text between the subject of a name and its conditions or sort keys. -/
def modifiers (name : String) : List Char :=
  ((subjectOf? name.toList subjects).map fun found => modifiersIn found.2).getD []

def limitWords : List String :=
  ["First", "Top"]

def mentionsLimit (s : List Char) : Bool :=
  limitWords.any fun word => occursIn word.toList s

/-- Wherever a limit word stands in the text, such a character stands behind it. -/
def LimitsFollowedBy (p : Char → Bool) (s : List Char) : Prop :=
  ∀ word ∈ limitWords, ∀ t, t <:+ s → ∀ rest, after? word.toList t = some rest →
    rest.head?.any p = true

instance (p : Char → Bool) (s : List Char) : Decidable (LimitsFollowedBy p s) :=
  decidable_of_iff (∀ word ∈ limitWords, ∀ t ∈ s.tails, ∀ rest ∈ after? word.toList t,
    rest.head?.any p = true) (by simp only [LimitsFollowedBy, List.mem_tails, Option.mem_def])

section Cuts

variable {c : Char} {s : List Char} {word : String}

theorem cutOr_fst_cons (word : String) (c : Char) (s : List Char) :
    (cutOr word (c :: s)).1 =
      if (after? word.toList (c :: s)).isSome then [] else c :: (cutOr word s).1 := by
  rw [cutOr, cut?]
  cases h : after? word.toList (c :: s) with
  | some rest => rfl
  | none =>
    rw [cutOr]
    cases cut? word.toList s <;> rfl

theorem isSome_after?_by (c : Char) (s : List Char) :
    (after? "By".toList (c :: (cutOr "OrderBy" s).1)).isSome =
      (after? "By".toList (c :: s)).isSome := by
  cases s with
  | nil => rfl
  | cons d s =>
    rw [cutOr_fst_cons]
    cases h : after? "OrderBy".toList (d :: s) with
    | none =>
      obtain rfl | hc := eq_or_ne 'B' c
      · obtain rfl | hd := eq_or_ne 'y' d
        · simp [after?]
        · simp [after?, hd]
      · simp [after?, hc]
    | some rest =>
      obtain rfl : d = 'O' := (List.cons.inj (eq_append_of_after? h)).1
      simp [after?]

/-- Cutting at `OrderBy` first and then at `By` leaves the text in front of both. -/
theorem cutOr_cutOr (s : List Char) : (cutOr "By" (cutOr "OrderBy" s).1).1 = modifiersIn s := by
  induction s with
  | nil => rfl
  | cons c s ih =>
    rw [cutOr_fst_cons, modifiersIn]
    cases (after? "OrderBy".toList (c :: s)).isSome with
    | true =>
      rw [Bool.or_true]
      rfl
    | false =>
      simp only [Bool.or_false, Bool.false_eq_true, if_false]
      rw [cutOr_fst_cons, isSome_after?_by, ih]

end Cuts

section Limits

variable {s : List Char} {name : String} {m : MethodName}

theorem mentionsLimit_eq (s : List Char) :
    mentionsLimit s = (occursIn "First".toList s || occursIn "Top".toList s) := by
  simp [mentionsLimit, limitWords]

theorem limitOf_cons {c : Char} (h : c.isDigit = false) (rest : List Char) :
    limitOf (c :: rest) = .ok 1 := by
  rw [limitOf, List.takeWhile_cons_of_neg (by simp [h])]

theorem limitIn_of_followedBy (h : LimitsFollowedBy (fun c => !c.isDigit) s) :
    limitIn s = .ok (if mentionsLimit s then some 1 else none) := by
  have hone {word : String} {front rest : List Char} (hword : word ∈ limitWords)
      (hcut : cut? word.toList s = some (front, rest)) : limitOf rest = .ok 1 := by
    have hany :=
      h word hword _ ⟨front, (eq_append_of_cut? hcut).symm⟩ rest (after?_append word.toList rest)
    obtain ⟨c, hc, hdigit⟩ := (Option.any_eq_true _ _).1 hany
    obtain ⟨rest, rfl⟩ := List.head?_eq_some_iff.1 hc
    exact limitOf_cons (by simpa using hdigit) rest
  rw [mentionsLimit_eq, occursIn, occursIn, limitIn]
  cases hfirst : cut? "First".toList s with
  | some found =>
    simp only [hone (by simp [limitWords]) hfirst]
    rfl
  | none =>
    cases htop : cut? "Top".toList s with
    | some found =>
      simp only [hone (by simp [limitWords]) htop]
      rfl
    | none => rfl

theorem limitIn_modifiers (h : ofText name = .ok m) : limitIn (modifiers name) = .ok m.limit := by
  obtain ⟨rest, head, front, _, _, hsubject, horder, hby, -, -, hlimit, -⟩ :=
    exists_readings_of_ofText h
  have hfront := cutOr_cutOr rest
  rw [horder, hby] at hfront
  rwa [modifiers, hsubject, Option.map_some, Option.getD_some, ← hfront]

end Limits

end MethodName

namespace Method

open MethodName (LimitsFollowedBy mentionsLimit modifiers)
open Repository.Builder (kindOf resolve_annotated resolve_named)

variable {name : String} {m : MethodName}

/-- A declaration of a method with a template of its own or in the catalog. What the result is, is
left to the name. -/
structure Declaration.IsTemplate (d : Declaration) (e : Entity) (catalog : Catalog) : Prop where
  template : d.template.isSome ∨ (catalog.find? (Catalog.key e.typeName d.name)).isSome
  result : d.result = none

theorem defaultResult_of_limit (subject : MethodName.Subject) (limited : Bool) (d : Declaration) :
    defaultResult subject (if limited then some 1 else none) d.facets.isSome =
      if subject = .find ∧ d.facets = none ∧ limited then .one
      else defaultResult subject none d.facets.isSome := by
  cases subject with
  | find => cases d.facets <;> cases limited <;> simp [defaultResult]
  | _ => simp [defaultResult]

theorem Declaration.IsTemplate.resolve_eq {d : Declaration} {e : Entity} {catalog : Catalog}
    (h : d.IsTemplate e catalog) : ∃ method, resolve e catalog d = .ok method ∧
      method.result = some (templateResult d.name d.facets.isSome) := by
  have hkind : kindOf d = templateResult d.name d.facets.isSome := by
    rw [kindOf, h.result, Option.getD_none]
  cases hcatalog : catalog.find? (Catalog.key e.typeName d.name) with
  | some template => exact ⟨_, resolve_named hcatalog, congrArg some hkind⟩
  | none =>
    have htemplate := h.template.resolve_right (by simp [hcatalog])
    obtain ⟨template, ht⟩ := Option.isSome_iff_exists.1 htemplate
    exact ⟨_, resolve_annotated hcatalog ht, congrArg some hkind⟩

/-- A limit word without a number limits the results to one, also where it is only a part of a
longer word. A method with a template then gives one result where it would give a list. -/
theorem limit_of_followedBy (hname : MethodName.ofText name = .ok m)
    (hwords : LimitsFollowedBy (fun c => !c.isDigit) (modifiers name)) :
    m.limit = (if mentionsLimit (modifiers name) then some 1 else none) ∧
      ∀ e catalog (d : Declaration), d.name = name → d.IsTemplate e catalog →
        ∃ method, resolve e catalog d = .ok method ∧
          method.result = some (if m.subject = .find ∧ d.facets = none ∧
              mentionsLimit (modifiers name) then .one
            else defaultResult m.subject none d.facets.isSome) := by
  have hlimit : m.limit = if mentionsLimit (modifiers name) then some 1 else none :=
    Except.ok.inj ((MethodName.limitIn_modifiers hname).symm.trans
      (MethodName.limitIn_of_followedBy hwords))
  refine ⟨hlimit, ?_⟩
  rintro e catalog d rfl htemplate
  obtain ⟨method, hmethod, hresult⟩ := htemplate.resolve_eq
  refine ⟨method, hmethod, ?_⟩
  rw [hresult, templateResult, hname, ← defaultResult_of_limit, ← hlimit]

section Books

open Repository (ResultKind)

def stoppedBooks : Declaration where
  name := "findStoppedBooksByTitle"
  template := some "title:?0"

def topics : Declaration where
  name := "findTopicsByTitle"
  template := some "title:?0"

theorem limit_of_stoppedBooks :
    ∃ m method, MethodName.ofText stoppedBooks.name = .ok m ∧ m.limit = none ∧
      resolve bookEntity [] stoppedBooks = .ok method ∧ method.result = some .list := by
  have hname : MethodName.ofText "findStoppedBooksByTitle" = .ok
      ⟨"findStoppedBooksByTitle", .find, false, none, [[⟨"Title", "Title", .simpleProperty⟩]],
        []⟩ := by
    cbv
  obtain ⟨hlimit, hmethods⟩ := limit_of_followedBy hname (by decide)
  obtain ⟨method, hmethod, hresult⟩ := hmethods bookEntity [] stoppedBooks rfl ⟨.inl rfl, rfl⟩
  have hmentions : mentionsLimit (modifiers "findStoppedBooksByTitle") = false := by
    decide
  refine ⟨_, method, hname, rfl, hmethod, ?_⟩
  rw [hresult, hmentions]
  rfl

/-- A lower-case letter goes on with the word, and still there is a limit and no list. -/
theorem topics_limited :
    ∃ m method, MethodName.ofText topics.name = .ok m ∧ modifiers topics.name = "Topics".toList ∧
      LimitsFollowedBy Char.isLower "Topics".toList ∧ m.limit = some 1 ∧
      resolve bookEntity [] topics = .ok method ∧ method.result = some .one := by
  refine ⟨⟨"findTopicsByTitle", .find, false, some 1, [[⟨"Title", "Title", .simpleProperty⟩]],
    []⟩, ⟨.annotated "title:?0", some .one, none⟩, by cbv, ?_, ?_, rfl, by cbv, rfl⟩
  · decide
  · decide

end Books

end Method

end SearchMapper
