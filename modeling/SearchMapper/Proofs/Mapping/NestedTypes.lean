import Mathlib
import SearchMapper.Proofs.Mapping.Paths

namespace SearchMapper

open Property (Indexed chainsIn)

structure Descriptor.Describes (d : Descriptor) (p : Property) : Prop where
  name_eq : p.name = d.name
  mapped : ∀ field, d.field = some field → Text.isBlankText field = false → field ≠ "#default" →
    p.fieldName = field
  unmapped : (∀ field, d.field = some field → Text.isBlankText field = true ∨ field = "#default") →
    p.fieldName = d.name
  isId_iff : p.isId = true ↔ d.isId = true ∨ p.fieldName = "id"
  isSome_children : p.children.isSome = d.nested.isSome

theorem Descriptor.describes_property {d : Descriptor} {children : Option (Dictionary Property)}
    (h : children.isSome = d.nested.isSome) : d.Describes (d.property children) where
  name_eq := rfl
  mapped field hfield hblank hdefault := by simp [property, fieldName, hfield, hblank, hdefault]
  unmapped h := by
    cases hfield : d.field with
    | none => simp [property, fieldName, hfield]
    | some field => simp [property, fieldName, hfield, h field hfield]
  isId_iff := by simp [property]
  isSome_children := h

namespace Entity

variable {table : TypeTable} {type key : String} {levels : Nat} {d : Descriptor} {p : Property}
  {ds inner links cycle : List Descriptor} {found properties : Dictionary Property}
  {children : Option (Dictionary Property)} {chain : List Property}
  {nest : Descriptor → String → Except Error (Dictionary Property)}

section Reach

def declared (table : TypeTable) (type : String) : List Descriptor :=
  (table.find? type).getD []

/-- Nested descriptors lead from one list of descriptors to another one, each into its type. -/
inductive Reaches (table : TypeTable) :
    List Descriptor → List Descriptor → List Descriptor → Prop
  | here (ds : List Descriptor) : Reaches table ds [] ds
  | link {ds links inner : List Descriptor} {d : Descriptor} {type : String} (mem : d ∈ ds)
      (nested : d.nested = some type) (deeper : Reaches table (declared table type) links inner) :
      Reaches table ds (d :: links) inner

/-- So many levels are enough for all that is nested, and no list repeats a name. -/
structure WellFormed (table : TypeTable) (levels : Nat) (ds : List Descriptor) : Prop where
  distinct : ∀ links inner, Reaches table ds links inner → links.length ≤ levels →
    (inner.map Descriptor.name).Nodup
  flat : ∀ links inner, Reaches table ds links inner → links.length = levels →
    ∀ d ∈ inner, d.nested = none

theorem Reaches.append {mid : List Descriptor} (h : Reaches table ds links mid)
    (hrest : Reaches table mid cycle inner) : Reaches table ds (links ++ cycle) inner := by
  induction h with
  | here ds => exact hrest
  | link mem nested _ ih => exact .link mem nested (ih hrest)

theorem wellFormed_zero_iff :
    WellFormed table 0 ds ↔ (ds.map Descriptor.name).Nodup ∧ ∀ d ∈ ds, d.nested = none := by
  constructor
  · rintro ⟨distinct, flat⟩
    exact ⟨distinct [] ds (.here ds) le_rfl, flat [] ds (.here ds) rfl⟩
  · rintro ⟨hnodup, hflat⟩
    refine ⟨fun links inner h hlen => ?_, fun links inner h hlen => ?_⟩ <;> cases h
    · exact hnodup
    · cases hlen
    · exact hflat
    · cases hlen

theorem wellFormed_succ_iff :
    WellFormed table (levels + 1) ds ↔ (ds.map Descriptor.name).Nodup ∧
      ∀ d ∈ ds, ∀ type, d.nested = some type → WellFormed table levels (declared table type) := by
  constructor
  · rintro ⟨distinct, flat⟩
    refine ⟨distinct [] ds (.here ds) (Nat.zero_le _), fun d hd type hn => ⟨?_, ?_⟩⟩
    · intro links inner h hlen
      exact distinct (d :: links) inner (.link hd hn h) (Nat.succ_le_succ hlen)
    · intro links inner h hlen
      exact flat (d :: links) inner (.link hd hn h) (congrArg (· + 1) hlen)
  · rintro ⟨hnodup, hbelow⟩
    refine ⟨fun links inner h hlen => ?_, fun links inner h hlen => ?_⟩
    · cases h with
      | here => exact hnodup
      | link mem nested deeper =>
        exact (hbelow _ mem _ nested).distinct _ _ deeper (Nat.le_of_succ_le_succ hlen)
    · cases h with
      | here => cases hlen
      | link mem nested deeper =>
        exact (hbelow _ mem _ nested).flat _ _ deeper (Nat.succ.inj hlen)

theorem WellFormed.length_le (h : WellFormed table levels ds) (hr : Reaches table ds links inner) :
    links.length ≤ levels := by
  induction hr generalizing levels with
  | here ds => exact Nat.zero_le _
  | link mem nested _ ih =>
    cases levels with
    | zero =>
      have hnone := (wellFormed_zero_iff.1 h).2 _ mem
      rw [nested] at hnone
      cases hnone
    | succ levels =>
      exact Nat.succ_le_succ (ih ((wellFormed_succ_iff.1 h).2 _ mem _ nested))

theorem exists_reaches_length (h : Reaches table ds links inner)
    (hc : Reaches table inner cycle inner) (hne : cycle ≠ []) (n : Nat) :
    ∃ links, n ≤ links.length ∧ Reaches table ds links inner := by
  induction n with
  | zero => exact ⟨links, Nat.zero_le _, h⟩
  | succ n ih =>
    obtain ⟨links, hlen, hlinks⟩ := ih
    refine ⟨links ++ cycle, ?_, hlinks.append hc⟩
    have hpos := List.length_pos_of_ne_nil hne
    rw [List.length_append]
    omega

theorem not_wellFormed_of_cycle (h : Reaches table ds links inner)
    (hc : Reaches table inner cycle inner) (hne : cycle ≠ []) : ¬WellFormed table levels ds := by
  intro hwell
  obtain ⟨longer, hlen, hlonger⟩ := exists_reaches_length h hc hne (levels + 1)
  have hle := hwell.length_le hlonger
  omega

end Reach

section Assembly

def nestAt (table : TypeTable) : Nat → Descriptor → String → Except Error (Dictionary Property)
  | 0, d, _ => .error (.nestedTooDeep d.name maxLevels)
  | levels + 1, _, type => propertiesOf table levels (declared table type)

theorem propertiesOf_eq (table : TypeTable) (levels : Nat) (ds : List Descriptor) :
    propertiesOf table levels ds = assemble (nestAt table levels) ds [] := by
  cases levels <;> rfl

theorem exists_nestedOf_iff : (∃ children, nestedOf nest d = .ok children) ↔
    ∀ type, d.nested = some type → ∃ nested, nest d type = .ok nested := by
  simp only [nestedOf_eq_ok_iff]
  cases d.nested with
  | none => simp
  | some type => simp [eq_comm]

theorem exists_assemble_iff : (∃ properties, assemble nest ds found = .ok properties) ↔
    (∀ d ∈ ds, ∃ children, nestedOf nest d = .ok children) ∧ (ds.map Descriptor.name).Nodup ∧
      ∀ d ∈ ds, found.contains d.name = false := by
  induction ds generalizing found with
  | nil => simp [assemble]
  | cons d ds ih =>
    simp only [assemble_cons_eq_ok_iff, List.forall_mem_cons, List.map_cons, List.nodup_cons]
    constructor
    · rintro ⟨properties, children, hchildren, hnew, h⟩
      obtain ⟨hnested, hnodup, hfresh⟩ := ih.1 ⟨properties, h⟩
      simp only [Dictionary.contains_insert_eq_false_iff] at hfresh
      refine ⟨⟨⟨children, hchildren⟩, hnested⟩, ⟨fun hm => ?_, hnodup⟩, hnew,
        fun d' hd' => (hfresh d' hd').2⟩
      obtain ⟨d', hd', heq⟩ := List.mem_map.1 hm
      exact (hfresh d' hd').1 heq.symm
    · rintro ⟨⟨⟨children, hchildren⟩, hnested⟩, ⟨hnotMem, hnodup⟩, hnew, hfresh⟩
      have hfresh' : ∀ d' ∈ ds,
          (found.insert d.name (d.property children)).contains d'.name = false := fun d' hd' =>
        Dictionary.contains_insert_eq_false_iff.2
          ⟨fun heq => hnotMem (heq ▸ List.mem_map_of_mem hd'), hfresh d' hd'⟩
      obtain ⟨properties, h⟩ := ih.2 ⟨hnested, hnodup, hfresh'⟩
      exact ⟨properties, children, hchildren, hnew, h⟩

theorem find?_of_assemble (h : assemble nest ds found = .ok properties) :
    properties.find? key = some p ↔ found.find? key = some p ∨
      ∃ d ∈ ds, d.name = key ∧ ∃ children, nestedOf nest d = .ok children ∧
        p = d.property children := by
  induction ds generalizing found with
  | nil =>
    cases h
    simp
  | cons d ds ih =>
    obtain ⟨children, hchildren, hnew, h⟩ := assemble_cons_eq_ok_iff.1 h
    have hinsert : (found.insert d.name (d.property children)).find? key = some p ↔
        found.find? key = some p ∨ d.name = key ∧ p = d.property children := by
      rw [Dictionary.find?_insert]
      split
      · next hk =>
        have hnone : found.find? key = none := by simpa [Dictionary.contains, hk] using hnew
        simp [hk, hnone, eq_comm]
      · next hk => simp [hk]
    rw [ih h, hinsert, List.exists_mem_cons_iff, or_assoc]
    have hfirst : (∃ children, nestedOf nest d = .ok children ∧ p = d.property children) ↔
        p = d.property children := by
      simp [hchildren]
    rw [hfirst]

theorem exists_propertiesOf_iff :
    (∃ properties, propertiesOf table levels ds = .ok properties) ↔ WellFormed table levels ds := by
  simp only [propertiesOf_eq]
  induction levels generalizing ds with
  | zero =>
    rw [exists_assemble_iff, wellFormed_zero_iff, and_comm]
    simp [exists_nestedOf_iff, nestAt, Option.eq_none_iff_forall_ne_some, Dictionary.contains]
  | succ levels ih =>
    rw [exists_assemble_iff, wellFormed_succ_iff, and_comm]
    simp [exists_nestedOf_iff, nestAt, propertiesOf_eq, ih, Dictionary.contains]

theorem find?_of_propertiesOf (h : propertiesOf table levels ds = .ok properties) :
    properties.find? key = some p ↔ ∃ d ∈ ds, d.name = key ∧ ∃ children,
      nestedOf (nestAt table levels) d = .ok children ∧ p = d.property children := by
  rw [propertiesOf_eq] at h
  rw [find?_of_assemble h]
  simp

theorem exists_find?_of_mem (h : propertiesOf table levels ds = .ok properties) (hd : d ∈ ds) :
    ∃ children, nestedOf (nestAt table levels) d = .ok children ∧
      properties.find? d.name = some (d.property children) := by
  obtain ⟨children, hchildren⟩ :=
    (exists_assemble_iff.1 ⟨properties, propertiesOf_eq table levels ds ▸ h⟩).1 d hd
  exact ⟨children, hchildren, (find?_of_propertiesOf h).2 ⟨d, hd, rfl, children, hchildren, rfl⟩⟩

theorem isSome_of_nestedOf (h : nestedOf nest d = .ok children) :
    children.isSome = d.nested.isSome := by
  obtain ⟨hn, rfl⟩ | ⟨type, nested, hn, -, rfl⟩ := nestedOf_eq_ok_iff.1 h <;> rw [hn] <;> rfl

theorem exists_propertiesOf_of_nestedOf {nested : Dictionary Property}
    (h : nestedOf (nestAt table levels) d = .ok (some nested)) :
    ∃ type below, d.nested = some type ∧
      propertiesOf table below (declared table type) = .ok nested := by
  obtain ⟨-, hn⟩ | ⟨type, nested', hn, h, heq⟩ := nestedOf_eq_ok_iff.1 h
  · cases hn
  · cases heq
    cases levels with
    | zero => cases h
    | succ levels => exact ⟨type, levels, hn, h⟩

end Assembly

section Chains

theorem exists_reaches_of_mem_chainsIn (h : propertiesOf table levels ds = .ok properties)
    (hc : chain ∈ chainsIn properties) : ∃ links inner d, Reaches table ds links inner ∧
      d ∈ inner ∧ List.Forall₂ Descriptor.Describes (links ++ [d]) chain := by
  induction chain generalizing levels ds properties with
  | nil => exact absurd hc Property.nil_notMem_chainsIn
  | cons p rest ih =>
    obtain ⟨hp, hrest⟩ := (indexed_of_propertiesOf h).mem_chainsIn_cons.1 hc
    obtain ⟨d, hd, -, children, hchildren, rfl⟩ := (find?_of_propertiesOf h).1 hp
    have hdescribes := Descriptor.describes_property (isSome_of_nestedOf hchildren)
    obtain rfl | ⟨nested, rfl, hrest⟩ := hrest
    · exact ⟨[], ds, d, .here ds, hd, .cons hdescribes .nil⟩
    · obtain ⟨type, below, hn, hnested⟩ := exists_propertiesOf_of_nestedOf hchildren
      obtain ⟨links, inner, last, hr, hlast, hall⟩ := ih hnested hrest
      exact ⟨d :: links, inner, last, .link hd hn hr, hlast, .cons hdescribes hall⟩

theorem exists_chain_of_reaches (h : propertiesOf table levels ds = .ok properties)
    (hr : Reaches table ds links inner) (hd : d ∈ inner) :
    ∃ chain ∈ chainsIn properties, List.Forall₂ Descriptor.Describes (links ++ [d]) chain := by
  induction hr generalizing levels properties with
  | here ds =>
    obtain ⟨children, hchildren, hp⟩ := exists_find?_of_mem h hd
    exact ⟨[d.property children],
      (indexed_of_propertiesOf h).mem_chainsIn_cons.2 ⟨hp, .inl rfl⟩,
      .cons (Descriptor.describes_property (isSome_of_nestedOf hchildren)) .nil⟩
  | @link ds links inner first type mem nested _ ih =>
    obtain ⟨children, hchildren, hp⟩ := exists_find?_of_mem h mem
    have hsome := isSome_of_nestedOf hchildren
    rw [nested] at hsome
    obtain ⟨inside, rfl⟩ := Option.isSome_iff_exists.1 hsome
    obtain ⟨type', below, hn, hinside⟩ := exists_propertiesOf_of_nestedOf hchildren
    obtain rfl : type = type' := Option.some.inj (nested.symm.trans hn)
    obtain ⟨chain, hchain, hall⟩ := ih hinside hd
    exact ⟨first.property (some inside) :: chain,
      (indexed_of_propertiesOf h).mem_chainsIn_cons.2 ⟨hp, .inr ⟨inside, rfl, hchain⟩⟩,
      .cons (Descriptor.describes_property (isSome_of_nestedOf hchildren)) hall⟩

end Chains

section Id

variable {name : String} {cause : Error} {e : Entity}

theorem idName_eq_ok_iff : idName type ds properties = .ok name ↔
    (∃ d, ds.filter Descriptor.isId = [d] ∧ name = d.name) ∨
      ds.filter Descriptor.isId = [] ∧ ∃ p,
        properties.values.find? (fun p => p.fieldName = "id") = some p ∧ name = p.name := by
  rw [idName]
  split
  · next d hmarks => simp [hmarks, eq_comm]
  · next hmarks =>
    split
    · next p hp => simp only [hmarks, hp]; simp [eq_comm]
    · next hp => simp only [hmarks, hp]; simp
  · next hmarks hother => simp_all

theorem idName_error_cases (h : idName type ds properties = .error cause) :
    cause = .noIdProperty type ∨ cause = .severalIdProperties type := by
  rw [idName] at h
  split at h
  · cases h
  · split at h <;> cases h
    exact .inl rfl
  · cases h
    exact .inr rfl

theorem exists_idProperty_iff (h : propertiesOf table levels ds = .ok properties) :
    (∃ p, properties.values.find? (fun p => p.fieldName = "id") = some p) ↔
      ∃ d ∈ ds, d.fieldName = "id" := by
  have sorted := (indexed_of_propertiesOf h).sorted
  rw [← Option.isSome_iff_exists, List.find?_isSome]
  constructor
  · rintro ⟨p, hp, hid⟩
    obtain ⟨key, hp⟩ := sorted.mem_values.1 hp
    obtain ⟨d, hd, -, children, -, rfl⟩ := (find?_of_propertiesOf h).1 hp
    exact ⟨d, hd, of_decide_eq_true hid⟩
  · rintro ⟨d, hd, hid⟩
    obtain ⟨children, -, hp⟩ := exists_find?_of_mem h hd
    exact ⟨d.property children, sorted.mem_values.2 ⟨d.name, hp⟩, decide_eq_true hid⟩

theorem exists_idName_iff (h : propertiesOf table levels ds = .ok properties) :
    (∃ name, idName type ds properties = .ok name) ↔ ds.countP Descriptor.isId = 1 ∨
      ds.countP Descriptor.isId = 0 ∧ ∃ d ∈ ds, d.fieldName = "id" := by
  rw [← exists_idProperty_iff h, List.countP_eq_length_filter, List.length_eq_one_iff,
    List.length_eq_zero_iff]
  simp only [idName_eq_ok_iff]
  constructor
  · rintro ⟨name, ⟨d, hmarks, -⟩ | ⟨hmarks, p, hp, -⟩⟩
    · exact .inl ⟨d, hmarks⟩
    · exact .inr ⟨hmarks, p, hp⟩
  · rintro (⟨d, hmarks⟩ | ⟨hmarks, p, hp⟩)
    · exact ⟨d.name, .inl ⟨d, hmarks, rfl⟩⟩
    · exact ⟨p.name, .inr ⟨hmarks, p, hp, rfl⟩⟩

theorem exists_find?_idName (h : propertiesOf table levels ds = .ok properties)
    (hname : idName type ds properties = .ok name) : ∃ p, properties.find? name = some p := by
  obtain ⟨d, hmarks, rfl⟩ | ⟨-, p, hp, rfl⟩ := idName_eq_ok_iff.1 hname
  · have hd : d ∈ ds.filter Descriptor.isId := hmarks ▸ List.mem_singleton_self d
    obtain ⟨children, -, hp⟩ := exists_find?_of_mem h (List.mem_of_mem_filter hd)
    exact ⟨_, hp⟩
  · have hindexed := indexed_of_propertiesOf h
    obtain ⟨key, hkey⟩ := hindexed.sorted.mem_values.1 (List.mem_of_find?_eq_some hp)
    exact ⟨p, by rwa [hindexed.name_eq hkey]⟩

theorem ofDescriptors_eq_ok_iff : ofDescriptors table type ds = .ok e ↔
    ∃ properties name p, propertiesOf table maxLevels ds = .ok properties ∧
      idName type ds properties = .ok name ∧ properties.find? name = some p ∧
        e = ⟨type, p, properties⟩ := by
  rw [ofDescriptors]
  constructor
  · intro h
    obtain ⟨properties, hproperties, h⟩ := exists_of_bind_eq_ok h
    obtain ⟨name, hname, h⟩ := exists_of_bind_eq_ok h
    split at h
    · next p hp =>
      cases h
      exact ⟨properties, name, p, hproperties, hname, hp, rfl⟩
    · cases h
  · rintro ⟨properties, name, p, hproperties, hname, hp, rfl⟩
    simp [hproperties, hname, hp, bind, Except.bind, pure, Except.pure]

end Id

section Construction

variable {name : String} {cause : Error} {e : Entity}

theorem exists_of_nestedOf_eq_error (h : nestedOf nest d = .error cause) :
    ∃ type, nest d type = .error cause := by
  rw [nestedOf] at h
  split at h
  · cases h
  · next type _ => exact ⟨type, map_eq_error_iff.1 h⟩

theorem assemble_error_cases (hnest : ∀ d type cause, nest d type = .error cause →
      (∃ name, cause = .nestedTooDeep name maxLevels) ∨ ∃ name, cause = .declaredTwice name)
    (h : assemble nest ds found = .error cause) :
    (∃ name, cause = .nestedTooDeep name maxLevels) ∨ ∃ name, cause = .declaredTwice name := by
  induction ds generalizing found with
  | nil => cases h
  | cons d ds ih =>
    rw [assemble_cons] at h
    obtain hchildren | ⟨children, -, h⟩ := bind_eq_error_iff.1 h
    · obtain ⟨type, hnested⟩ := exists_of_nestedOf_eq_error hchildren
      exact hnest d type cause hnested
    · split at h
      · cases h
        exact .inr ⟨d.name, rfl⟩
      · exact ih h

theorem propertiesOf_error_cases (h : propertiesOf table levels ds = .error cause) :
    (∃ name, cause = .nestedTooDeep name maxLevels) ∨ ∃ name, cause = .declaredTwice name := by
  induction levels generalizing ds cause with
  | zero =>
    refine assemble_error_cases (fun d type cause h => ?_) h
    cases h
    exact .inl ⟨d.name, rfl⟩
  | succ levels ih => exact assemble_error_cases (fun d type cause h => ih h) h

theorem ofDescriptors_error_cases (h : ofDescriptors table type ds = .error cause) :
    (∃ name, cause = .nestedTooDeep name maxLevels) ∨ (∃ name, cause = .declaredTwice name) ∨
      cause = .noIdProperty type ∨ cause = .severalIdProperties type := by
  obtain h | ⟨properties, hproperties, h⟩ := bind_eq_error_iff.1 h
  · exact (propertiesOf_error_cases h).imp_right .inl
  · obtain h | ⟨name, hname, h⟩ := bind_eq_error_iff.1 h
    · exact .inr (.inr (idName_error_cases h))
    · obtain ⟨p, hp⟩ := exists_find?_idName hproperties hname
      simp only [hp] at h
      cases h

theorem exists_ofDescriptors_iff : (∃ e, ofDescriptors table type ds = .ok e) ↔
    WellFormed table maxLevels ds ∧ (ds.countP Descriptor.isId = 1 ∨
      ds.countP Descriptor.isId = 0 ∧ ∃ d ∈ ds, d.fieldName = "id") := by
  rw [← exists_propertiesOf_iff]
  constructor
  · rintro ⟨e, he⟩
    obtain ⟨properties, name, p, hproperties, hname, -⟩ := ofDescriptors_eq_ok_iff.1 he
    exact ⟨⟨properties, hproperties⟩, (exists_idName_iff hproperties).1 ⟨name, hname⟩⟩
  · rintro ⟨⟨properties, hproperties⟩, hid⟩
    obtain ⟨name, hname⟩ := (exists_idName_iff hproperties).2 hid
    obtain ⟨p, hp⟩ := exists_find?_idName hproperties hname
    exact ⟨_, ofDescriptors_eq_ok_iff.2 ⟨properties, name, p, hproperties, hname, hp, rfl⟩⟩

/-- What descriptors make of a type: the properties that they declare, at all levels, and as the id
the property that they mark, or else the first by name that is stored as `id`. -/
structure Realizes (e : Entity) (table : TypeTable) (type : String) (ds : List Descriptor) :
    Prop where
  typeName_eq : e.typeName = type
  indexed : Indexed e.properties
  declared : ∀ chain ∈ chainsIn e.properties, ∃ links inner d, Reaches table ds links inner ∧
    d ∈ inner ∧ List.Forall₂ Descriptor.Describes (links ++ [d]) chain
  complete : ∀ links inner d, Reaches table ds links inner → d ∈ inner →
    ∃ chain ∈ chainsIn e.properties, List.Forall₂ Descriptor.Describes (links ++ [d]) chain
  idProperty_mem : e.properties.find? e.idProperty.name = some e.idProperty
  marked : ∀ d ∈ ds, d.isId = true → e.idProperty.name = d.name
  first : (∀ d ∈ ds, d.isId = false) → e.idProperty.fieldName = "id" ∧
    ∀ p ∈ e.properties.values, p.fieldName = "id" → e.idProperty.name ≤ p.name

theorem realizes_of_ofDescriptors (h : ofDescriptors table type ds = .ok e) :
    e.Realizes table type ds := by
  obtain ⟨properties, name, p, hproperties, hname, hp, rfl⟩ := ofDescriptors_eq_ok_iff.1 h
  have hindexed := indexed_of_propertiesOf hproperties
  have hpname : p.name = name := hindexed.name_eq hp
  refine ⟨rfl, hindexed, fun chain hchain => exists_reaches_of_mem_chainsIn hproperties hchain,
    fun links inner d hr hd => exists_chain_of_reaches hproperties hr hd, by rwa [hpname],
    fun d hd hmark => ?_, fun hunmarked => ?_⟩
  · have hm : d ∈ ds.filter Descriptor.isId := List.mem_filter.2 ⟨hd, hmark⟩
    obtain ⟨d', hmarks, rfl⟩ | ⟨hmarks, -⟩ := idName_eq_ok_iff.1 hname
    · rw [hmarks, List.mem_singleton] at hm
      rw [hpname, hm]
    · rw [hmarks] at hm
      cases hm
  · have hnil : ds.filter Descriptor.isId = [] :=
      List.filter_eq_nil_iff.2 fun d hd => by simp [hunmarked d hd]
    obtain ⟨d', hmarks, rfl⟩ | ⟨-, q, hq, rfl⟩ := idName_eq_ok_iff.1 hname
    · rw [hnil] at hmarks
      cases hmarks
    · obtain ⟨key, hkey, hleast⟩ := hindexed.sorted.find?_values hq
      obtain rfl := hindexed.name_eq hkey
      obtain rfl : p = q := Option.some.inj (hp.symm.trans hkey)
      have hid := List.find?_some hq
      refine ⟨of_decide_eq_true hid, fun other ho hid => ?_⟩
      obtain ⟨key, hother⟩ := hindexed.sorted.mem_values.1 ho
      obtain rfl := hindexed.name_eq hother
      exact hleast other.name other hother (decide_eq_true hid)

/-- Whatever the types nest, the descriptors of a type are accepted or refused. Those are accepted
that are well-formed to eight levels and determine an id; on a cycle there is no end of levels. -/
theorem ofDescriptors_wellFormed (table : TypeTable) (type : String) (ds : List Descriptor) :
    ((∃ e, ofDescriptors table type ds = .ok e) ↔
      WellFormed table 8 ds ∧ (ds.countP Descriptor.isId = 1 ∨
        ds.countP Descriptor.isId = 0 ∧ ∃ d ∈ ds, d.fieldName = "id")) ∧
    (∀ e, ofDescriptors table type ds = .ok e → e.Realizes table type ds) ∧
    (∀ name, ofDescriptors table type ds ≠ .error (.unknownIdProperty name)) ∧
    ∀ links inner cycle, Reaches table ds links inner → Reaches table inner cycle inner →
      cycle ≠ [] → ∃ cause, ofDescriptors table type ds = .error cause := by
  refine ⟨exists_ofDescriptors_iff, fun e he => realizes_of_ofDescriptors he, fun name h => ?_,
    fun links inner cycle hr hc hne => ?_⟩
  · obtain ⟨_, heq⟩ | ⟨_, heq⟩ | heq | heq := ofDescriptors_error_cases h <;> cases heq
  · cases h : ofDescriptors table type ds with
    | error cause => exact ⟨cause, rfl⟩
    | ok e =>
      have hwell := (exists_ofDescriptors_iff.1 ⟨e, h⟩).1
      exact absurd hwell (not_wellFormed_of_cycle hr hc hne)

section Volumes

def volumeTypes : TypeTable :=
  [("Publisher", [{ name := "name" }, { name := "seat", field := some "seat_s" }]),
    ("Series", [{ name := "volumes", nested := some "Volume" }]),
    ("Volume", [{ name := "series", nested := some "Series" }])]

def novelProperties : List Descriptor :=
  [{ name := "title" }, { name := "isbn", field := some "id" },
    { name := "publisher", field := some " ", nested := some "Publisher" }]

def novelEntity : Entity :=
  ⟨"Novel", ⟨"isbn", "id", true, none⟩,
    [("isbn", ⟨"isbn", "id", true, none⟩),
      ("publisher", ⟨"publisher", "publisher", false, some
        [("name", ⟨"name", "name", false, none⟩), ("seat", ⟨"seat", "seat_s", false, none⟩)]⟩),
      ("title", ⟨"title", "title", false, none⟩)]⟩

theorem ofDescriptors_novel :
    ofDescriptors volumeTypes "Novel" novelProperties = .ok novelEntity := rfl

theorem ofDescriptors_wellFormed_volumes :
    novelEntity.Realizes volumeTypes "Novel" novelProperties ∧
      WellFormed volumeTypes 8 novelProperties ∧
      ∃ cause, ofDescriptors volumeTypes "Volume" (declared volumeTypes "Volume") =
        .error cause := by
  obtain ⟨haccepted, hrealizes, -⟩ := ofDescriptors_wellFormed volumeTypes "Novel" novelProperties
  obtain ⟨-, -, -, hcycle⟩ :=
    ofDescriptors_wellFormed volumeTypes "Volume" (declared volumeTypes "Volume")
  have hround : Reaches volumeTypes (declared volumeTypes "Volume")
      [{ name := "series", nested := some "Series" },
        { name := "volumes", nested := some "Volume" }]
      (declared volumeTypes "Volume") :=
    .link List.mem_cons_self rfl (.link List.mem_cons_self rfl (.here _))
  exact ⟨hrealizes _ ofDescriptors_novel, (haccepted.1 ⟨_, ofDescriptors_novel⟩).1,
    hcycle [] _ _ (.here _) hround (List.cons_ne_nil _ _)⟩

end Volumes

end Construction

end Entity

end SearchMapper
