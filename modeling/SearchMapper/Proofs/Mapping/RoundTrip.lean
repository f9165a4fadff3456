import SearchMapper.Proofs.Mapping.Fields

namespace SearchMapper.Record

open Property (Indexed chainsIn)

def filled? : List (String × Json) → Option Json
  | [] => none
  | member :: members => some (.object (member :: members))

mutual

/-- The part of a value that is kept: all of it, but of an object with nested properties their part,
and nothing of null or of an object of which nothing is kept. -/
def kept? (children : Option (Dictionary Property)) : Json → Option Json
  | .null => none
  | .object nested =>
    match children with
    | some children => filled? (keptMembers children nested)
    | none => some (.object nested)
  | value => some value

def keptMembers (properties : Dictionary Property) :
    List (String × Json) → List (String × Json)
  | [] => []
  | (key, value) :: rest =>
    match properties.find? key with
    | some p =>
      match kept? p.children value with
      | some part => (key, part) :: keptMembers properties rest
      | none => keptMembers properties rest
    | none => keptMembers properties rest

end

variable {properties : Dictionary Property} {p : Property} {record : Record} {front : String}
  {document : Dictionary Json} {value : Json}

theorem propertyValue?_eq (record : Record) (front : String) (p : Property) :
    propertyValue? record front p =
      (record.find? (front ++ p.fieldName)).or (p.children.bind fun children =>
        filled? (members record (front ++ p.fieldName ++ ".") children)) := by
  obtain ⟨name, fieldName, isId, children⟩ := p
  cases children with
  | none =>
    rw [propertyValue?]
    cases record.find? (front ++ fieldName) <;> rfl
  | some children =>
    rw [propertyValue?]
    cases record.find? (front ++ fieldName) with
    | some value => rfl
    | none =>
      simp only [Option.none_or, Option.bind_some]
      cases members record (front ++ fieldName ++ ".") children <;> rfl

theorem members_eq_filterMap (h : ∀ entry ∈ properties, entry.1 = entry.2.name) :
    members record front properties = properties.filterMap fun entry =>
      (propertyValue? record front entry.2).map (entry.1, ·) := by
  induction properties with
  | nil => rfl
  | cons entry properties ih =>
    obtain ⟨hentry, hrest⟩ := List.forall_mem_cons.1 h
    rw [members, List.filterMap_cons, ih hrest, hentry]
    cases propertyValue? record front entry.2 <;> rfl

theorem keptMembers_eq_filterMap (properties : Dictionary Property) (document : Dictionary Json) :
    keptMembers properties document = document.filterMap fun entry =>
      ((properties.find? entry.1).bind fun p => kept? p.children entry.2).map (entry.1, ·) := by
  induction document with
  | nil => rfl
  | cons entry document ih =>
    rw [keptMembers, List.filterMap_cons, ih]
    cases properties.find? entry.1 with
    | none => rfl
    | some p =>
      simp only [Option.bind_some]
      cases kept? p.children entry.2 <;> rfl

theorem kept?_eq (children : Option (Dictionary Property)) (value : Json) :
    kept? children value = ((some value).filter (isWhole children)).or
      (children.bind fun children => filled? (keptMembers children (value.object?.getD []))) := by
  cases value with
  | object nested =>
    cases children <;> simp [kept?, isWhole, Json.isNull, Json.object?, Option.filter_some]
  | _ =>
    cases children <;>
      simp [kept?, isWhole, Json.isNull, Json.object?, keptMembers, filled?, Option.filter_some]

def membersUnder (key : String) (document : Dictionary Json) : Dictionary Json :=
  ((document.find? key).bind Json.object?).getD []

theorem ordered_membersUnder (ho : (Json.object document).Ordered) (key : String) :
    (Json.object (membersUnder key document)).Ordered := by
  have hnil : (Json.object []).Ordered := .object .nil nofun
  cases hv : document.find? key with
  | none => simpa [membersUnder, hv] using hnil
  | some value =>
    have hvalue := Json.ordered_of_find? ho hv
    cases value with
    | object nested => simpa [membersUnder, hv, Json.object?] using hvalue
    | _ => simpa [membersUnder, hv, Json.object?] using hnil

theorem leads_cons_iff {chain : List Property} (hne : chain ≠ []) :
    Leads (p :: chain) document value ↔ Leads chain (membersUnder p.name document) value := by
  obtain ⟨q, rest, rfl⟩ := List.exists_cons_of_ne_nil hne
  have hnil : ¬Leads (q :: rest) [] value := fun hleads => by
    simpa [Json.at?] using hleads.1
  rw [leads_cons hne]
  constructor
  · rintro ⟨nested, hv, hleads⟩
    simpa [membersUnder, hv, Json.object?] using hleads
  · intro hleads
    rw [membersUnder] at hleads
    cases hv : document.find? p.name with
    | none => exact absurd (by simpa [hv] using hleads) hnil
    | some v =>
      cases v with
      | object nested => exact ⟨nested, rfl, by simpa [hv, Json.object?] using hleads⟩
      | _ => exact absurd (by simpa [hv, Json.object?] using hleads) hnil

/-- The fields hold what the chains lead to. -/
def Stores (record : Record) (front : String) (properties : Dictionary Property)
    (document : Dictionary Json) : Prop :=
  ∀ chain ∈ chainsIn properties, ∀ value,
    record.find? (front ++ Path.fieldName ⟨chain⟩) = some value ↔ Leads chain document value

theorem Stores.find?_eq (h : Stores record front properties document) (hi : Indexed properties)
    (hp : properties.find? p.name = some p) :
    record.find? (front ++ p.fieldName) =
      (document.find? p.name).filter (isWhole p.children) := by
  ext value
  have hchain := h [p] (hi.mem_chainsIn_cons.2 ⟨hp, .inl rfl⟩) value
  rwa [Path.fieldName_singleton, leads_singleton, ← Option.filter_eq_some_iff] at hchain

theorem Stores.nested (h : Stores record front properties document) (hi : Indexed properties)
    (hp : properties.find? p.name = some p) {children : Dictionary Property}
    (hc : p.children = some children) :
    Stores record (front ++ p.fieldName ++ ".") children (membersUnder p.name document) := by
  intro chain hchain value
  have hne := Property.ne_nil_of_mem_chainsIn hchain
  have hlonger := h (p :: chain) (hi.mem_chainsIn_cons.2 ⟨hp, .inr ⟨children, hc, hchain⟩⟩) value
  rw [leads_cons_iff hne, Path.fieldName_cons hne] at hlonger
  simpa only [String.append_assoc] using hlonger

theorem Stores.members_eq (h : Stores record front properties document)
    (hi : Indexed properties) (ho : (Json.object document).Ordered) :
    members record front properties = keptMembers properties document := by
  induction hi generalizing front document with
  | @intro properties sorted named nested ih =>
    have hi : Indexed properties := ⟨sorted, named, nested⟩
    have hdoc := Json.sorted_of_ordered ho
    have hvalue (key : String) (p : Property) (hp : properties.find? key = some p) :
        propertyValue? record front p = (document.find? key).bind (kept? p.children) := by
      obtain rfl := hi.name_eq hp
      have hnested : (p.children.bind fun children =>
            filled? (members record (front ++ p.fieldName ++ ".") children)) =
          p.children.bind fun children =>
            filled? (keptMembers children (membersUnder p.name document)) := by
        refine Option.bind_congr fun children hc => ?_
        rw [ih _ (Dictionary.mem_of_find? hp) children hc (h.nested hi hp hc)
          (ordered_membersUnder ho p.name)]
      rw [propertyValue?_eq, hnested, h.find?_eq hi hp, membersUnder]
      cases document.find? p.name with
      | none => cases p.children <;> rfl
      | some value => exact (kept?_eq p.children value).symm
    rw [members_eq_filterMap named, keptMembers_eq_filterMap]
    -- One side goes through the properties and the other one through the members of the document,
    -- but both come in the order of their keys.
    apply Dictionary.Sorted.ext
    · exact sorted.filterMap fun _ p => propertyValue? record front p
    · exact hdoc.filterMap fun key value =>
        (properties.find? key).bind fun p => kept? p.children value
    · intro key
      rw [sorted.find?_filterMap fun _ p => propertyValue? record front p,
        hdoc.find?_filterMap fun key value =>
          (properties.find? key).bind fun p => kept? p.children value]
      cases hp : properties.find? key with
      | none => cases document.find? key <;> rfl
      | some p => exact hvalue key p hp

/-- A stored document is read back as the part of it that is kept. -/
theorem toDocument_ofDocument {table : TypeTable} {type : String} {ds : List Descriptor}
    {e : Entity} (he : Entity.ofDescriptors table type ds = .ok e) (hnames : e.fieldNames.Nodup)
    (h : e.Admits document) :
    ∃ record, ofDocument e (.object document) = .ok record ∧
      record.toDocument e = .object (keptMembers e.properties document) := by
  have hi := (Entity.indexed_of_ofDescriptors he).1
  have hstores : Stores (ofObject e document) "" e.properties document := by
    intro chain hchain value
    rw [String.empty_append]
    exact find?_ofObject hi hnames h (List.mem_map_of_mem hchain)
  exact ⟨_, rfl, congrArg Json.object (hstores.members_eq hi h.ordered)⟩

section Gadgets

theorem toDocument_ofDocument_gadget :
    ∃ record, ofDocument gadgetEntity (.object gadget) = .ok record ∧
      record.toDocument gadgetEntity = .object [("id", .text "g1"),
        ("maker", .object [("origin", .text "Bath")]), ("sizes", .array [.int 1, .int 2])] := by
  obtain ⟨record, hrecord, hdocument⟩ :=
    toDocument_ofDocument ofDescriptors_gadget nodup_gadget admits_gadget
  exact ⟨record, hrecord, hdocument.trans rfl⟩

end Gadgets

end SearchMapper.Record
