import Mathlib
import SearchMapper.Mapping.Record
import SearchMapper.Proofs.Mapping.Paths

namespace SearchMapper

namespace Json

/-- The members of each object stand in the order of their keys, one for each key. -/
inductive Ordered : Json → Prop
  | null : Ordered .null
  | bool (b : Bool) : Ordered (.bool b)
  | int (i : Int) : Ordered (.int i)
  | float (x : Number.Double) : Ordered (.float x)
  | text (s : String) : Ordered (.text s)
  | array {items : List Json} (inner : ∀ item ∈ items, Ordered item) : Ordered (.array items)
  | object {members : Dictionary Json} (sorted : members.Sorted)
      (inner : ∀ member ∈ members, Ordered member.2) : Ordered (.object members)

/-- What stands at the end of a walk through objects. -/
def at? : List String → Json → Option Json
  | [], value => some value
  | key :: rest, .object members => (Dictionary.find? key members).bind (at? rest)
  | _ :: _, _ => none

variable {value nested : Json} {members : Dictionary Json} {key : String} {keys : List String}

theorem at?_object (key : String) (keys : List String) (members : Dictionary Json) :
    (object members).at? (key :: keys) = (members.find? key).bind (at? keys) := by
  rw [at?]

theorem eq_object_of_at? (h : nested.at? (key :: keys) = some value) :
    ∃ members, nested = .object members := by
  cases nested with
  | object members => exact ⟨members, rfl⟩
  | _ => simp [at?] at h

theorem sorted_of_ordered (h : Ordered (object members)) : members.Sorted := by
  cases h with
  | object sorted _ => exact sorted

theorem ordered_of_find? (h : Ordered (object members)) (hv : members.find? key = some value) :
    Ordered value := by
  cases h with
  | object _ inner => exact inner _ (Dictionary.mem_of_find? hv)

end Json

namespace Path

theorem fieldName_singleton (p : Property) : fieldName ⟨[p]⟩ = p.fieldName := by
  simp [fieldName]

theorem fieldName_cons {chain : List Property} (h : chain ≠ []) (p : Property) :
    fieldName ⟨p :: chain⟩ = p.fieldName ++ "." ++ fieldName ⟨chain⟩ := by
  rw [fieldName, List.map_cons, String.intercalate_cons_of_ne_nil (by simpa using h), fieldName]

end Path

namespace Record

open Property (Indexed chainsIn)

/-- Whether one field holds a value as it is. No field holds null, nor an object whose members have
fields of their own. -/
def isWhole (children : Option (Dictionary Property)) (value : Json) : Bool :=
  !value.isNull && (children.isNone || value.object?.isNone)

mutual

def strays (front : String) (properties : Dictionary Property) :
    List (String × Json) → List String
  | [] => []
  | (key, value) :: rest =>
    (match properties.find? key with
      | some p => straysIn (front ++ p.fieldName) p.children value
      | none => if value.isNull then [] else [front ++ key]) ++ strays front properties rest

def straysIn (name : String) (children : Option (Dictionary Property)) : Json → List String
  | .object nested =>
    match children with
    | some children => strays (name ++ ".") children nested
    | none => []
  | _ => []

end

variable {properties children : Dictionary Property} {chain : List Property} {p : Property}
  {members : Dictionary Json} {member : String × Json} {name front : String} {value : Json}

theorem mem_flatten {field : String × Json} :
    field ∈ flatten front properties members ↔ ∃ member ∈ members, field ∈
      fieldsOf (front ++ ((properties.find? member.1).map Property.fieldName).getD member.1)
        ((properties.find? member.1).bind Property.children) member.2 := by
  induction members with
  | nil => simp [flatten]
  | cons member members ih => simp [flatten, ih]

theorem mem_fieldsOf {children : Option (Dictionary Property)} {field : String × Json} :
    field ∈ fieldsOf name children value ↔
      isWhole children value = true ∧ field = (name, value) ∨
      ∃ inner nested, children = some inner ∧ value = .object nested ∧
        field ∈ flatten (name ++ ".") inner nested := by
  cases value with
  | object nested =>
    cases children <;> simp [fieldsOf, isWhole, Json.isNull, Json.object?]
  | _ => simp [fieldsOf, isWhole, Json.isNull, Json.object?]

theorem mem_strays_of_find?_some (hm : member ∈ members)
    (hp : properties.find? member.1 = some p)
    (h : name ∈ straysIn (front ++ p.fieldName) p.children member.2) :
    name ∈ strays front properties members := by
  induction members with
  | nil => cases hm
  | cons first members ih =>
    rw [strays, List.mem_append]
    obtain rfl | hm := List.mem_cons.1 hm
    · exact .inl (by rwa [hp])
    · exact .inr (ih hm)

theorem mem_strays_of_find?_none (hm : member ∈ members)
    (hp : properties.find? member.1 = none) (h : member.2.isNull = false) :
    front ++ member.1 ∈ strays front properties members := by
  induction members with
  | nil => cases hm
  | cons first members ih =>
    rw [strays, List.mem_append]
    obtain rfl | hm := List.mem_cons.1 hm
    · exact .inl (by simp [hp, h])
    · exact .inr (ih hm)

/-- A chain leads to a value that stands at its end, unless it is null or its members are
properties themselves. -/
def Leads (chain : List Property) (members : Dictionary Json) (value : Json) : Prop :=
  (Json.object members).at? (chain.map Property.name) = some value ∧ value.isNull = false ∧
    ∀ p ∈ chain.getLast?, p.children.isSome → value.object? = none

theorem leads_singleton :
    Leads [p] members value ↔
      members.find? p.name = some value ∧ isWhole p.children value = true := by
  cases hc : p.children <;> simp [Leads, Json.at?, isWhole, hc]

theorem leads_cons (h : chain ≠ []) :
    Leads (p :: chain) members value ↔
      ∃ nested, members.find? p.name = some (.object nested) ∧ Leads chain nested value := by
  obtain ⟨q, rest, rfl⟩ := List.exists_cons_of_ne_nil h
  simp only [Leads, List.map_cons, List.getLast?_cons_cons, Json.at?_object]
  constructor
  · rintro ⟨hv, hlast⟩
    obtain ⟨w, hw, hv⟩ := Option.bind_eq_some_iff.1 hv
    obtain ⟨nested, rfl⟩ := Json.eq_object_of_at? hv
    exact ⟨nested, hw, hv, hlast⟩
  · rintro ⟨nested, hw, hv, hlast⟩
    exact ⟨Option.bind_eq_some_iff.2 ⟨_, hw, hv⟩, hlast⟩

theorem mem_flatten_of_leads (front : String) (hi : Indexed properties)
    (hchain : chain ∈ chainsIn properties) (h : Leads chain members value) :
    (front ++ Path.fieldName ⟨chain⟩, value) ∈ flatten front properties members := by
  induction chain generalizing front properties members with
  | nil => exact absurd hchain Property.nil_notMem_chainsIn
  | cons p rest ih =>
    obtain ⟨hp, rfl | ⟨children, hchildren, hrest⟩⟩ := hi.mem_chainsIn_cons.1 hchain
    · obtain ⟨hv, hwhole⟩ := leads_singleton.1 h
      refine mem_flatten.2 ⟨(p.name, value), Dictionary.mem_of_find? hv, mem_fieldsOf.2 (.inl ?_)⟩
      simp [hp, hwhole, Path.fieldName_singleton]
    · have hne := Property.ne_nil_of_mem_chainsIn hrest
      obtain ⟨nested, hv, hnested⟩ := (leads_cons hne).1 h
      refine mem_flatten.2 ⟨(p.name, .object nested), Dictionary.mem_of_find? hv,
        mem_fieldsOf.2 (.inr ⟨children, nested, ?_, rfl, ?_⟩)⟩
      · simp [hp, hchildren]
      · have hfield := ih (front ++ p.fieldName ++ ".") (hi.children hp hchildren) hrest hnested
        simpa [hp, Path.fieldName_cons hne, String.append_assoc] using hfield

theorem exists_leads_of_mem_flatten (hi : Indexed properties)
    (ho : (Json.object members).Ordered) (h : (name, value) ∈ flatten front properties members) :
    name ∈ strays front properties members ∨
      ∃ chain ∈ chainsIn properties, name = front ++ Path.fieldName ⟨chain⟩ ∧
        Leads chain members value := by
  generalize hd : Json.object members = document at ho
  induction ho generalizing front properties members with
  | @object members sorted _ ih =>
    cases hd
    obtain ⟨⟨key, w⟩, hm, hfield⟩ := mem_flatten.1 h
    have hw := sorted.mem_iff.1 hm
    cases hp : properties.find? key with
    | none =>
      simp only [hp, Option.map_none, Option.getD_none, Option.bind_none] at hfield
      obtain ⟨hwhole, heq⟩ | ⟨inner, nested, hinner, -⟩ := mem_fieldsOf.1 hfield
      · cases heq
        exact .inl (mem_strays_of_find?_none hm hp (by simp_all [isWhole]))
      · cases hinner
    | some p =>
      simp only [hp, Option.map_some, Option.getD_some, Option.bind_some] at hfield
      obtain rfl := hi.name_eq hp
      obtain ⟨hwhole, heq⟩ | ⟨children, nested, hchildren, rfl, hnested⟩ := mem_fieldsOf.1 hfield
      · cases heq
        have hchain : [p] ∈ chainsIn properties := hi.mem_chainsIn_cons.2 ⟨hp, .inl rfl⟩
        refine .inr ⟨[p], hchain, ?_, leads_singleton.2 ⟨hw, hwhole⟩⟩
        rw [Path.fieldName_singleton]
      · obtain hstray | ⟨chain, hchain, hname, hleads⟩ :=
          ih _ hm (hi.children hp hchildren) hnested rfl
        · exact .inl (mem_strays_of_find?_some hm hp (by simpa [straysIn, hchildren] using hstray))
        · -- The chain among the nested properties goes on from this one.
          have hne := Property.ne_nil_of_mem_chainsIn hchain
          have hlonger : p :: chain ∈ chainsIn properties :=
            hi.mem_chainsIn_cons.2 ⟨hp, .inr ⟨children, hchildren, hchain⟩⟩
          refine .inr ⟨p :: chain, hlonger, ?_, (leads_cons hne).2 ⟨nested, hw, hleads⟩⟩
          simp [hname, Path.fieldName_cons hne, String.append_assoc]
  | _ => cases hd

theorem Leads.unique {other : Json} (h : Leads chain members value)
    (ho : Leads chain members other) : value = other :=
  Option.some.inj (h.1.symm.trans ho.1)

end Record

/-- Documents in which no member that is no property takes the field of one. -/
structure Entity.Admits (e : Entity) (members : Dictionary Json) : Prop where
  ordered : (Json.object members).Ordered
  clear : ∀ name ∈ Record.strays "" e.properties members, name ∉ e.fieldNames

namespace Record

open Property (Indexed)

variable {e : Entity} {path : Path} {members : Dictionary Json} {value : Json}

theorem mem_flatten_iff_leads (hi : Indexed e.properties) (hnames : e.fieldNames.Nodup)
    (h : e.Admits members) (hpath : path ∈ e.paths) :
    (path.fieldName, value) ∈ flatten "" e.properties members ↔
      Leads path.properties members value := by
  obtain ⟨chain, hchain, rfl⟩ := List.mem_map.1 hpath
  constructor
  · intro hm
    obtain hstray | ⟨other, hother, hname, hleads⟩ := exists_leads_of_mem_flatten hi h.ordered hm
    · exact absurd (List.mem_map_of_mem hpath) (h.clear _ hstray)
    · rw [String.empty_append] at hname
      have heq := List.inj_on_of_nodup_map hnames hpath (List.mem_map_of_mem hother) hname
      cases heq
      exact hleads
  · intro hleads
    have hm := mem_flatten_of_leads "" hi hchain hleads
    rwa [String.empty_append] at hm

theorem find?_ofObject (hi : Indexed e.properties) (hnames : e.fieldNames.Nodup)
    (h : e.Admits members) (hpath : path ∈ e.paths) :
    (ofObject e members).find? path.fieldName = some value ↔
      Leads path.properties members value := by
  have hmem (v : Json) : (path.fieldName, v) ∈ flatten "" e.properties members ↔
      Leads path.properties members v := mem_flatten_iff_leads hi hnames h hpath
  rw [ofObject, Dictionary.find?_ofList_eq_some_iff, hmem]
  intro v w hv hw
  exact ((hmem v).1 hv).unique ((hmem w).1 hw)

/-- A resolved path names the field in which records keep what it leads to. The field is empty if
the path leaves the objects of the document, or ends at null or at an object with nested
properties. -/
theorem find?_resolved {table : TypeTable} {type : String} {ds : List Descriptor}
    (he : Entity.ofDescriptors table type ds = .ok e) (hnames : e.fieldNames.Nodup)
    {source : String} (hpath : e.path source = .ok path) (h : e.Admits members) :
    ∃ record, ofDocument e (.object members) = .ok record ∧ ∀ value,
      record.find? path.fieldName = some value ↔
        (Json.object members).at? path.segments = some value ∧ value.isNull = false ∧
          ∀ p ∈ path.properties.getLast?, p.children.isSome → value.object? = none := by
  have hi := (Entity.indexed_of_ofDescriptors he).1
  refine ⟨_, rfl, fun value => ?_⟩
  exact find?_ofObject hi hnames h (Entity.path_mem_paths hi hpath)

section Gadgets

def gadgetTable : TypeTable :=
  [("Maker", [{ name := "name" }, { name := "origin", field := some "org" }])]

def gadgetProperties : List Descriptor :=
  [{ name := "id" }, { name := "maker", field := some "mk", nested := some "Maker" },
    { name := "sizes" }]

def makerName : Property :=
  ⟨"name", "name", false, none⟩

def makerOrigin : Property :=
  ⟨"origin", "org", false, none⟩

def gadgetMaker : Property :=
  ⟨"maker", "mk", false, some [("name", makerName), ("origin", makerOrigin)]⟩

def gadgetEntity : Entity :=
  ⟨"Gadget", ⟨"id", "id", true, none⟩,
    [("id", ⟨"id", "id", true, none⟩), ("maker", gadgetMaker),
      ("sizes", ⟨"sizes", "sizes", false, none⟩)]⟩

def gadget : Dictionary Json :=
  [("id", .text "g1"), ("maker", .object [("name", .null), ("origin", .text "Bath"),
    ("zip", .int 7)]), ("note", .text "new"), ("sizes", .array [.int 1, .int 2])]

theorem ofDescriptors_gadget :
    Entity.ofDescriptors gadgetTable "Gadget" gadgetProperties = .ok gadgetEntity := rfl

theorem path_gadget : gadgetEntity.path "MakerOrigin" = .ok ⟨[gadgetMaker, makerOrigin]⟩ := by
  cbv

theorem nodup_gadget : gadgetEntity.fieldNames.Nodup := by
  decide

theorem ordered_gadget : (Json.object gadget).Ordered := by
  refine .object (by decide) ?_
  simp only [gadget, List.forall_mem_cons]
  refine ⟨.text _, .object (by decide) ?_, .text _, .array ?_, nofun⟩
  · simp only [List.forall_mem_cons]
    exact ⟨.null, .text _, .int _, nofun⟩
  · simp only [List.forall_mem_cons]
    exact ⟨.int _, .int _, nofun⟩

theorem admits_gadget : gadgetEntity.Admits gadget :=
  ⟨ordered_gadget, by decide⟩

theorem find?_resolved_gadget :
    ∃ record, ofDocument gadgetEntity (.object gadget) = .ok record ∧
      record.find? "mk.org" = some (.text "Bath") := by
  obtain ⟨record, hrecord, hfield⟩ :=
    find?_resolved ofDescriptors_gadget nodup_gadget path_gadget admits_gadget
  exact ⟨record, hrecord, (hfield _).2 ⟨rfl, rfl, fun p hp _ => rfl⟩⟩

end Gadgets

end Record

end SearchMapper
