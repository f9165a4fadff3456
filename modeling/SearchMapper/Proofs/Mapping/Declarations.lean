import SearchMapper.Mapping.Declaration.Basic
import SearchMapper.Proofs.Mapping.NestedTypes
import SearchMapper.Proofs.Text.Scanning

namespace SearchMapper.Declaration

namespace Item

def typeName? : Item → Option String
  | text "type_name" value => some value
  | _ => none

def typeFault? : Item → Option Fault
  | text "type_name" _ => none
  | literal "type_name" => some (.notAString "type_name")
  | _ => some .unknownTypeAttribute

def caseRule? : Item → Option CaseRule
  | text "rename_all" value => CaseRule.ofName? value
  | _ => none

def ruleFault? : Item → Option Fault
  | text "rename_all" value =>
    if CaseRule.ofName? value = none then some (.unknownRule value) else none
  | literal "rename_all" => some (.notAString "rename_all")
  | _ => none

def isSkip : Item → Bool
  | word "skip" | word "skip_serializing" => true
  | _ => false

def rename? : Item → Option String
  | text "rename" value => some value
  | _ => none

def renameFault? : Item → Option Fault
  | literal "rename" => some (.notAString "rename")
  | _ => none

def field? : Item → Option String
  | text "field" value => some value
  | _ => none

def fieldFault? : Item → Option Fault
  | word "id" | word "nested" => none
  | text "field" value => if Text.isBlankText value then some .blankFieldName else none
  | literal "field" => some (.notAString "field")
  | _ => some .unknownFieldAttribute

end Item

/-- The value of the last item that has one, or what was found before. The first fault of an item
is the fault of all. -/
def lastOf {α : Type} (fault? : Item → Option Fault) (value? : Item → Option α)
    (items : List Item) (found : Option α) : Except Fault (Option α) :=
  match items.findSome? fault? with
  | some cause => .error cause
  | none => .ok ((items.filterMap value?).getLast?.or found)

section Items

variable {α : Type} {fault? : Item → Option Fault} {value? : Item → Option α}
  {items : List Item} {found result : Option α}

theorem lastOf_cons (item : Item) : lastOf fault? value? (item :: items) found =
    match fault? item with
    | some cause => .error cause
    | none => lastOf fault? value? items ((value? item).or found) := by
  rw [lastOf, List.findSome?_cons]
  cases fault? item with
  | some cause => rfl
  | none =>
    cases hv : value? item with
    | none => rw [List.filterMap_cons_none hv, Option.none_or, lastOf]
    | some v =>
      rw [List.filterMap_cons_some hv, List.getLast?_cons, lastOf]
      cases (items.filterMap value?).getLast? <;> rfl

theorem lastOf_eq_ok_iff : lastOf fault? value? items found = .ok result ↔
    (∀ item ∈ items, fault? item = none) ∧
      result = (items.filterMap value?).getLast?.or found := by
  rw [lastOf, ← List.findSome?_eq_none_iff]
  cases items.findSome? fault? <;> simp [eq_comm]

theorem typeNameOf_eq (items : List Item) (found : Option String) :
    typeNameOf items found = lastOf Item.typeFault? Item.typeName? items found := by
  fun_induction typeNameOf items found with
  | case1 => rfl
  | case2 _ _ _ ih => rw [ih, lastOf_cons]; rfl
  | case3 => rw [lastOf_cons]; rfl
  | case4 => rw [lastOf_cons]; simp_all [Item.typeFault?]

theorem caseRuleOf_eq (items : List Item) (found : Option CaseRule) :
    caseRuleOf items found = lastOf Item.ruleFault? Item.caseRule? items found := by
  fun_induction caseRuleOf items found with
  | case1 => rfl
  | case2 _ _ _ rule hrule ih => rw [ih, lastOf_cons]; simp [Item.ruleFault?, Item.caseRule?, hrule]
  | case3 _ _ _ hrule => rw [lastOf_cons]; simp [Item.ruleFault?, hrule]
  | case4 => rw [lastOf_cons]; rfl
  | case5 _ _ _ _ _ ih => rw [ih, lastOf_cons]; simp_all [Item.ruleFault?, Item.caseRule?]

theorem typeNameOf_eq_ok_iff {found : Option String} : typeNameOf items none = .ok found ↔
    (∀ item ∈ items, item.typeFault? = none) ∧
      found = (items.filterMap Item.typeName?).getLast? := by
  rw [typeNameOf_eq, lastOf_eq_ok_iff, Option.or_none]

theorem caseRuleOf_eq_ok_iff {found : Option CaseRule} : caseRuleOf items none = .ok found ↔
    (∀ item ∈ items, item.ruleFault? = none) ∧
      found = (items.filterMap Item.caseRule?).getLast? := by
  rw [caseRuleOf_eq, lastOf_eq_ok_iff, Option.or_none]

theorem writtenName_eq (name : String) (items : List Item) :
    writtenName name items =
      (lastOf Item.renameFault? Item.rename? (items.takeWhile fun item => !item.isSkip)
        (some name)).map fun found => if items.any Item.isSkip then none else found := by
  fun_induction writtenName name items with
  | case1 => rfl
  | case2 => rfl
  | case3 => rfl
  | case4 name value items ih =>
    rw [ih]
    simp [Item.isSkip, lastOf_cons, Item.renameFault?, Item.rename?]
  | case5 => rfl
  | case6 name item items hskip hskip' htext hliteral ih =>
    have hitem : item.isSkip = false := by
      unfold Item.isSkip
      split <;> simp_all
    rw [ih, List.takeWhile_cons_of_pos (by simp [hitem]), lastOf_cons, List.any_cons, hitem]
    simp_all [Item.renameFault?, Item.rename?]

theorem describe_eq (type : String) (d : Descriptor) (items : List Item) :
    describe type d items =
      (lastOf Item.fieldFault? Item.field? items d.field).map fun field =>
        { name := d.name
          field := field
          isId := d.isId || items.contains (.word "id")
          nested := if .word "nested" ∈ items then some (TypeText.nested type) else d.nested } := by
  fun_induction describe type d items with
  | case1 d => simp [lastOf, Except.map]
  | case2 d items ih => rw [ih, lastOf_cons]; simp [Item.fieldFault?, Item.field?]
  | case3 d items ih => rw [ih, lastOf_cons]; simp [Item.fieldFault?, Item.field?]
  | case4 d value items hv => rw [lastOf_cons]; simp [Item.fieldFault?, hv, Except.map]
  | case5 d value items hv ih => rw [ih, lastOf_cons]; simp [Item.fieldFault?, Item.field?, hv]
  | case6 => rw [lastOf_cons]; rfl
  | case7 => rw [lastOf_cons]; simp_all [Item.fieldFault?, Except.map]

end Items

def ruledName (rule : Option CaseRule) (name : String) : String :=
  String.ofList ((rule.elim id CaseRule.apply) (unmarkedName name))

/-- A field that is written, and its descriptor. The last new name stands, and a field of the index
is never blank. -/
structure Describes (rule : Option CaseRule) (f : FieldDeclaration) (d : Descriptor) : Prop where
  written : ∃ items, itemsOf "serde" f.attributes = .ok items ∧
    (∀ item ∈ items, item.isSkip = false ∧ item.renameFault? = none) ∧
    d.name = (items.filterMap Item.rename?).getLast?.getD (ruledName rule f.name)
  mapped : ∃ items, itemsOf "solr" f.attributes = .ok items ∧
    (∀ item ∈ items, item.fieldFault? = none) ∧
    d.field = (items.filterMap Item.field?).getLast? ∧ d.isId = items.contains (.word "id") ∧
    d.nested = if .word "nested" ∈ items then some (TypeText.nested f.type) else none

/-- A field that is not written. What is wrong behind the skip does not matter. -/
def Skips (f : FieldDeclaration) : Prop :=
  ∃ items, itemsOf "serde" f.attributes = .ok items ∧ items.any Item.isSkip = true ∧
    ∀ item ∈ items.takeWhile fun item => !item.isSkip, item.renameFault? = none

inductive Yields (rule : Option CaseRule) (f : FieldDeclaration) : Option Descriptor → Prop
  | skipped (h : Skips f) : Yields rule f none
  | written {d : Descriptor} (h : Describes rule f d) : Yields rule f (some d)

section Fields

variable {rule : Option CaseRule} {f : FieldDeclaration} {d : Descriptor} {seen : Bool}
  {fields : List FieldDeclaration} {ds : List Descriptor}

theorem writtenName_eq_none_iff {name : String} {items : List Item} :
    writtenName name items = .ok none ↔ items.any Item.isSkip = true ∧
      ∀ item ∈ items.takeWhile fun item => !item.isSkip, item.renameFault? = none := by
  rw [writtenName_eq]
  constructor
  · intro h
    obtain ⟨found, hfound, hnone⟩ := map_eq_ok_iff.1 h
    obtain ⟨hfaults, rfl⟩ := lastOf_eq_ok_iff.1 hfound
    refine ⟨?_, hfaults⟩
    by_contra hskip
    simp [hskip] at hnone
  · rintro ⟨hskip, hfaults⟩
    refine map_eq_ok_iff.2 ⟨_, lastOf_eq_ok_iff.2 ⟨hfaults, rfl⟩, if_pos hskip⟩

theorem writtenName_eq_some_iff {name written : String} {items : List Item} :
    writtenName name items = .ok (some written) ↔
      (∀ item ∈ items, item.isSkip = false ∧ item.renameFault? = none) ∧
        written = (items.filterMap Item.rename?).getLast?.getD name := by
  rw [writtenName_eq]
  by_cases hskip : items.any Item.isSkip = true
  · refine iff_of_false (fun h => ?_) (fun h => ?_)
    · obtain ⟨found, -, hnone⟩ := map_eq_ok_iff.1 h
      simp [hskip] at hnone
    · obtain ⟨item, hm, hitem⟩ := List.any_eq_true.1 hskip
      simp [(h.1 item hm).1] at hitem
  · have hall : ∀ item ∈ items, item.isSkip = false := by
      simpa using hskip
    have htake : (items.takeWhile fun item => !item.isSkip) = items :=
      List.takeWhile_eq_self_iff.2 fun item hm => by simp [hall item hm]
    rw [htake]
    refine map_eq_ok_iff.trans ?_
    simp only [lastOf_eq_ok_iff, hskip]
    constructor
    · rintro ⟨found, ⟨hfaults, rfl⟩, hwritten⟩
      refine ⟨fun item hm => ⟨hall item hm, hfaults item hm⟩, ?_⟩
      cases hr : (items.filterMap Item.rename?).getLast? <;> simp_all
    · rintro ⟨hitems, rfl⟩
      refine ⟨_, ⟨fun item hm => (hitems item hm).2, rfl⟩, ?_⟩
      cases hr : (items.filterMap Item.rename?).getLast? <;> simp_all

theorem descriptor?_eq (rule : Option CaseRule) (f : FieldDeclaration) :
    descriptor? rule f = (itemsOf "serde" f.attributes >>= fun items =>
      writtenName (ruledName rule f.name) items >>= fun
        | none => pure none
        | some name => itemsOf "solr" f.attributes >>= fun items =>
          some <$> describe f.type { name := name } items) := by
  cases rule <;> rfl

theorem descriptor?_eq_none_iff : descriptor? rule f = .ok none ↔ Skips f := by
  rw [descriptor?_eq]
  constructor
  · intro h
    obtain ⟨items, hitems, h⟩ := exists_of_bind_eq_ok h
    obtain ⟨written, hwritten, h⟩ := exists_of_bind_eq_ok h
    cases written with
    | none => exact ⟨items, hitems, writtenName_eq_none_iff.1 hwritten⟩
    | some name =>
      obtain ⟨mapping, -, h⟩ := exists_of_bind_eq_ok h
      obtain ⟨d, -, h⟩ := map_eq_ok_iff.1 h
      cases h
  · rintro ⟨items, hitems, hskip⟩
    have hnone : writtenName (ruledName rule f.name) items = .ok none :=
      writtenName_eq_none_iff.2 hskip
    simp only [hitems, hnone, bind, Except.bind]
    rfl

theorem describe_eq_ok_iff {type name : String} {items : List Item} :
    describe type { name := name } items = .ok d ↔
      (∀ item ∈ items, item.fieldFault? = none) ∧ d.name = name ∧
        d.field = (items.filterMap Item.field?).getLast? ∧ d.isId = items.contains (.word "id") ∧
        d.nested = if .word "nested" ∈ items then some (TypeText.nested type) else none := by
  rw [describe_eq]
  refine map_eq_ok_iff.trans ?_
  simp only [lastOf_eq_ok_iff, Option.or_none, Bool.false_or]
  constructor
  · rintro ⟨field, ⟨hfaults, rfl⟩, rfl⟩
    exact ⟨hfaults, rfl, rfl, rfl, rfl⟩
  · rintro ⟨hfaults, rfl, hfield, hid, hnested⟩
    exact ⟨_, ⟨hfaults, rfl⟩, by rw [← hfield, ← hid, ← hnested]⟩

theorem descriptor?_eq_some_iff : descriptor? rule f = .ok (some d) ↔ Describes rule f d := by
  rw [descriptor?_eq]
  constructor
  · intro h
    obtain ⟨items, hitems, h⟩ := exists_of_bind_eq_ok h
    obtain ⟨written, hwritten, h⟩ := exists_of_bind_eq_ok h
    cases written with
    | none => cases h
    | some name =>
      obtain ⟨mapping, hmapping, h⟩ := exists_of_bind_eq_ok h
      obtain ⟨d', hd, h⟩ := map_eq_ok_iff.1 h
      cases h
      obtain ⟨hkept, rfl⟩ := writtenName_eq_some_iff.1 hwritten
      obtain ⟨hknown, hname, hrest⟩ := describe_eq_ok_iff.1 hd
      exact ⟨⟨items, hitems, hkept, hname⟩, mapping, hmapping, hknown, hrest⟩
  · rintro ⟨⟨items, hitems, hkept, hname⟩, mapping, hmapping, hknown, hrest⟩
    have hwritten : writtenName (ruledName rule f.name) items = .ok (some d.name) :=
      writtenName_eq_some_iff.2 ⟨hkept, hname⟩
    have hdescribe : describe f.type { name := d.name } mapping = .ok d :=
      describe_eq_ok_iff.2 ⟨hknown, rfl, hrest⟩
    simp only [hitems, hwritten, hmapping, hdescribe, bind, Except.bind]
    rfl

theorem descriptors_cons_none (h : descriptor? rule f = .ok none) :
    descriptors rule seen (f :: fields) = descriptors rule seen fields := by
  rw [descriptors, h]
  rfl

theorem descriptors_cons_some (h : descriptor? rule f = .ok (some d)) :
    descriptors rule seen (f :: fields) =
      if d.isId && seen then .error .severalIds
      else (d :: ·) <$> descriptors rule (seen || d.isId) fields := by
  rw [descriptors, h]
  by_cases hid : (d.isId && seen) = true
  · simp only [hid, bind, Except.bind]
    rfl
  · simp only [hid, bind, Except.bind]
    cases descriptors rule (seen || d.isId) fields <;> rfl

theorem descriptor?_eq_ok_iff {found : Option Descriptor} :
    descriptor? rule f = .ok found ↔ Yields rule f found := by
  cases found with
  | none =>
    rw [descriptor?_eq_none_iff]
    exact ⟨.skipped, fun | .skipped h => h⟩
  | some d =>
    rw [descriptor?_eq_some_iff]
    exact ⟨.written, fun | .written h => h⟩

/-- The fields that are written, in order. No second one is marked as the id. -/
theorem descriptors_eq_ok_iff : descriptors rule seen fields = .ok ds ↔
    ∃ described, List.Forall₂ (Yields rule) fields described ∧
      ds = described.reduceOption ∧ ds.countP Descriptor.isId + seen.toNat ≤ 1 := by
  -- The flag counts as one id more, which was found in front of the fields.
  induction fields generalizing seen ds with
  | nil =>
    simp only [descriptors, List.forall₂_nil_left_iff, exists_eq_left, List.reduceOption_nil]
    constructor
    · intro h
      cases h
      exact ⟨rfl, by simpa using Bool.toNat_le seen⟩
    · rintro ⟨rfl, -⟩
      rfl
  | cons f fields ih =>
    constructor
    · intro h
      obtain ⟨found, hf, -⟩ := exists_of_bind_eq_ok h
      have hyields := descriptor?_eq_ok_iff.1 hf
      cases found with
      | none =>
        rw [descriptors_cons_none hf] at h
        obtain ⟨described, hall, rfl, hids⟩ := ih.1 h
        exact ⟨none :: described, .cons hyields hall, rfl, hids⟩
      | some d =>
        rw [descriptors_cons_some hf] at h
        split at h
        · cases h
        · next hid =>
          obtain ⟨ds, hds, rfl⟩ := map_eq_ok_iff.1 h
          obtain ⟨described, hall, rfl, hids⟩ := ih.1 hds
          refine ⟨some d :: described, .cons hyields hall, rfl, ?_⟩
          cases hd : d.isId <;> cases seen <;> simp_all
    · rintro ⟨described, hall, rfl, hids⟩
      cases hall with
      | @cons _ found _ described hyields hall =>
        have hf := descriptor?_eq_ok_iff.2 hyields
        cases found with
        | none =>
          rw [descriptors_cons_none hf]
          exact ih.2 ⟨described, hall, rfl, hids⟩
        | some d =>
          rw [List.reduceOption_cons_of_some, List.countP_cons] at hids
          have hid : ¬(d.isId && seen) = true := by
            cases hd : d.isId <;> cases seen <;> simp_all
          rw [descriptors_cons_some hf, if_neg hid]
          refine map_eq_ok_iff.2 ⟨_, ih.2 ⟨described, hall, rfl, ?_⟩, rfl⟩
          cases hd : d.isId <;> cases seen <;> simp_all

end Fields

/-- What a declaration stands for: the last type name that is given, or else its own, and the
descriptors of the fields that are written, in order, of which one at most is the id. -/
structure Expands (d : Declaration) (name : String) (ds : List Descriptor) : Prop where
  named : d.checkNames = .ok ()
  typed : ∃ items, itemsOf "solr" d.attributes = .ok items ∧
    (∀ item ∈ items, item.typeFault? = none) ∧
    name = (items.filterMap Item.typeName?).getLast?.getD (bareName d.name)
  described : ∃ items fields described, itemsOf "serde" d.attributes = .ok items ∧
    (∀ item ∈ items, item.ruleFault? = none) ∧ d.body = .named fields ∧
    List.Forall₂ (Yields (items.filterMap Item.caseRule?).getLast?) fields described ∧
    ds = described.reduceOption
  single : ds.countP Descriptor.isId ≤ 1

section Expansion

variable {d : Declaration} {name : String} {ds : List Descriptor}

theorem expand_eq_ok_iff : d.expand = .ok (name, ds) ↔ d.Expands name ds := by
  constructor
  · intro h
    obtain ⟨⟨⟩, hnames, h⟩ := exists_of_bind_eq_ok h
    obtain ⟨mapping, hmapping, h⟩ := exists_of_bind_eq_ok h
    obtain ⟨typeName, htype, h⟩ := exists_of_bind_eq_ok h
    obtain ⟨writing, hwriting, h⟩ := exists_of_bind_eq_ok h
    obtain ⟨rule, hrule, h⟩ := exists_of_bind_eq_ok h
    obtain ⟨htypes, rfl⟩ := typeNameOf_eq_ok_iff.1 htype
    obtain ⟨hrules, rfl⟩ := caseRuleOf_eq_ok_iff.1 hrule
    cases hbody : d.body with
    | named fields =>
      rw [hbody] at h
      obtain ⟨found, hfound, h⟩ := exists_of_bind_eq_ok h
      cases h
      obtain ⟨described, hall, rfl, hids⟩ := descriptors_eq_ok_iff.1 hfound
      exact ⟨mapError_eq_ok_iff.1 hnames, ⟨mapping, hmapping, htypes, rfl⟩,
        ⟨writing, fields, described, hwriting, hrules, hbody, hall, rfl⟩, hids⟩
    | unnamed | alternatives =>
      rw [hbody] at h
      cases h
  · rintro ⟨hnames, ⟨mapping, hmapping, htypes, rfl⟩,
      ⟨writing, fields, described, hwriting, hrules, hbody, hall, rfl⟩, hids⟩
    have htype := typeNameOf_eq_ok_iff.2 ⟨htypes, rfl⟩
    have hrule := caseRuleOf_eq_ok_iff.2 ⟨hrules, rfl⟩
    have hfound : descriptors _ false fields = .ok described.reduceOption :=
      descriptors_eq_ok_iff.2 ⟨described, hall, rfl, hids⟩
    simp only [expand, mapError_eq_ok_iff.2 hnames, hmapping, htype, hwriting, hrule, hbody, hfound,
      bind, Except.bind]
    rfl

theorem not_isBlankText_of_field? {items : List Item} {field : String}
    (hfaults : ∀ item ∈ items, item.fieldFault? = none)
    (h : (items.filterMap Item.field?).getLast? = some field) : Text.isBlankText field = false := by
  obtain ⟨item, hm, hitem⟩ := List.mem_filterMap.1 (List.mem_of_getLast? h)
  have hfault := hfaults item hm
  unfold Item.field? at hitem
  split at hitem
  · cases hitem
    simpa [Item.fieldFault?] using hfault
  · cases hitem

namespace Expands

open Entity (WellFormed maxLevels ofDescriptors)

theorem not_isBlankText (h : d.Expands name ds) {p : Descriptor} (hp : p ∈ ds) {field : String}
    (hfield : p.field = some field) : Text.isBlankText field = false := by
  obtain ⟨_, fields, described, -, -, -, hall, rfl⟩ := h.described
  obtain ⟨f, -, hyields⟩ := exists_of_forall₂_mem hall (List.reduceOption_mem_iff.1 hp)
  cases hyields with
  | written hdescribes =>
    obtain ⟨items, -, hfaults, hlast, -⟩ := hdescribes.mapped
    exact not_isBlankText_of_field? hfaults (hlast.symm.trans hfield)

/-- All that a declaration can lack is an end of its nesting, names told apart, or an id. -/
theorem exists_entity_iff (h : d.Expands name ds) (table : TypeTable) :
    (∃ e, ofDescriptors table name ds = .ok e) ↔
      WellFormed table maxLevels ds ∧ ∃ p ∈ ds, p.isId = true ∨ p.fieldName = "id" := by
  rw [Entity.exists_ofDescriptors_iff]
  refine and_congr_right fun _ => ?_
  have hsingle := h.single
  constructor
  · rintro (hone | ⟨-, p, hp, hid⟩)
    · obtain ⟨p, hp, hid⟩ := List.countP_pos_iff.1 (by omega : 0 < ds.countP Descriptor.isId)
      exact ⟨p, hp, .inl hid⟩
    · exact ⟨p, hp, .inr hid⟩
  · rintro ⟨p, hp, hid⟩
    by_cases hpos : 0 < ds.countP Descriptor.isId
    · exact .inl (by omega)
    · refine .inr ⟨by omega, p, hp, hid.resolve_left fun hmarked => ?_⟩
      exact hpos (List.countP_pos_iff.2 ⟨p, hp, hmarked⟩)

theorem not_severalIdProperties (h : d.Expands name ds) (table : TypeTable) (type : String) :
    ofDescriptors table type ds ≠ .error (.severalIdProperties type) := by
  intro herror
  obtain herror | ⟨properties, hproperties, herror⟩ := bind_eq_error_iff.1 herror
  · obtain ⟨_, hcause⟩ | ⟨_, hcause⟩ := Entity.propertiesOf_error_cases herror <;> cases hcause
  obtain herror | ⟨id, hid, herror⟩ := bind_eq_error_iff.1 herror
  · have hsingle := h.single
    rw [List.countP_eq_length_filter] at hsingle
    rw [Entity.idName] at herror
    split at herror
    · cases herror
    · split at herror <;> cases herror
    · next hnone hone =>
      match hmarks : ds.filter Descriptor.isId with
      | [] => exact hone hmarks
      | [p] => exact hnone p hmarks
      | _ :: _ :: _ => simp [hmarks] at hsingle
  · obtain ⟨p, hp⟩ := Entity.exists_find?_idName hproperties hid
    simp only [hp] at herror
    cases herror

end Expands

end Expansion

namespace CaseRule

variable {first : List Char} {words : List (List Char)}

theorem apply_pascal (h : ∀ word ∈ words, '_' ∉ word) :
    pascal.apply (['_'].intercalate words) = words.flatMap (mapFirst Char.toUpper) := by
  cases words with
  | nil => rfl
  | cons word words => rw [apply, pascalText, Text.pieces_intercalate (List.cons_ne_nil _ _) h]

theorem apply_camel (hne : first ≠ []) (hfirst : '_' ∉ first) (h : ∀ word ∈ words, '_' ∉ word) :
    camel.apply (['_'].intercalate (first :: words)) =
      mapFirst Char.toLower first ++ words.flatMap (mapFirst Char.toUpper) := by
  have hpascal : pascalText (['_'].intercalate (first :: words)) = _ :=
    apply_pascal (List.forall_mem_cons.2 ⟨hfirst, h⟩)
  rw [apply, hpascal]
  obtain ⟨c, first, rfl⟩ := List.exists_cons_of_ne_nil hne
  simp [mapFirst]

example : camel.apply "page_count".toList = "pageCount".toList := by
  cbv

end CaseRule

end SearchMapper.Declaration
