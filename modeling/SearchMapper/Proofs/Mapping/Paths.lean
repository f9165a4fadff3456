import SearchMapper.Mapping.Path
import SearchMapper.Proofs.Dictionary
import SearchMapper.Proofs.Failure

namespace SearchMapper

namespace Property

mutual

def chains : Property → List (List Property)
  | p@⟨_, _, _, none⟩ => [[p]]
  | p@⟨_, _, _, some children⟩ => [p] :: (chainsIn children).map fun chain => p :: chain

def chainsIn : List (String × Property) → List (List Property)
  | [] => []
  | (_, p) :: rest => chains p ++ chainsIn rest

end

/-- At all levels properties stand under their names, in the order of these. -/
inductive Indexed : Dictionary Property → Prop
  | intro {properties : Dictionary Property} (sorted : properties.Sorted)
      (named : ∀ entry ∈ properties, entry.1 = entry.2.name)
      (nested : ∀ entry ∈ properties, ∀ children, entry.2.children = some children →
        Indexed children) : Indexed properties

variable {properties : Dictionary Property} {p : Property} {chain : List Property}

theorem mem_chains : chain ∈ p.chains ↔
    chain = [p] ∨ ∃ children rest, p.children = some children ∧ rest ∈ chainsIn children ∧
      chain = p :: rest := by
  obtain ⟨name, fieldName, isId, children⟩ := p
  cases children with
  | none => simp [chains]
  | some children => simp [chains, eq_comm]

theorem mem_chainsIn :
    chain ∈ chainsIn properties ↔ ∃ entry ∈ properties, chain ∈ entry.2.chains := by
  induction properties with
  | nil => simp [chainsIn]
  | cons entry properties ih => simp [chainsIn, ih]

theorem Indexed.find?_eq (h : Indexed properties) {entry : String × Property}
    (hm : entry ∈ properties) : properties.find? entry.2.name = some entry.2 := by
  obtain ⟨sorted, named, -⟩ := h
  rw [← named entry hm]
  exact sorted.mem_iff.1 hm

theorem Indexed.sorted (h : Indexed properties) : properties.Sorted := by
  obtain ⟨sorted, -, -⟩ := h
  exact sorted

theorem Indexed.name_eq (h : Indexed properties) {key : String}
    (hp : properties.find? key = some p) : p.name = key := by
  obtain ⟨-, named, -⟩ := h
  exact (named _ (Dictionary.mem_of_find? hp)).symm

theorem Indexed.children (h : Indexed properties) {key : String}
    (hp : properties.find? key = some p) {children : Dictionary Property}
    (hc : p.children = some children) : Indexed children := by
  obtain ⟨-, -, nested⟩ := h
  exact nested _ (Dictionary.mem_of_find? hp) children hc

theorem Indexed.mem_chainsIn_cons (h : Indexed properties) {rest : List Property} :
    p :: rest ∈ chainsIn properties ↔ properties.find? p.name = some p ∧
      (rest = [] ∨ ∃ children, p.children = some children ∧ rest ∈ chainsIn children) := by
  rw [mem_chainsIn]
  constructor
  · rintro ⟨entry, hm, hc⟩
    obtain heq | ⟨children, rest', hchildren, hrest, heq⟩ := mem_chains.1 hc
    · cases heq
      exact ⟨h.find?_eq hm, .inl rfl⟩
    · cases heq
      exact ⟨h.find?_eq hm, .inr ⟨children, hchildren, hrest⟩⟩
  · rintro ⟨hp, hrest⟩
    refine ⟨_, Dictionary.mem_of_find? hp, mem_chains.2 ?_⟩
    obtain rfl | ⟨children, hchildren, hrest⟩ := hrest
    · exact .inl rfl
    · exact .inr ⟨children, rest, hchildren, hrest, rfl⟩

theorem nil_notMem_chainsIn : [] ∉ chainsIn properties := by
  rw [mem_chainsIn]
  rintro ⟨entry, -, hc⟩
  obtain heq | ⟨_, _, -, -, heq⟩ := mem_chains.1 hc <;> cases heq

theorem ne_nil_of_mem_chainsIn (h : chain ∈ chainsIn properties) : chain ≠ [] :=
  ne_of_mem_of_not_mem h nil_notMem_chainsIn

theorem Indexed.getLast?_children (h : Indexed properties) (hchain : chain ∈ chainsIn properties)
    {children : Dictionary Property}
    (hlast : chain.getLast?.bind Property.children = some children) :
    Indexed children ∧ ∀ deeper ∈ chainsIn children, chain ++ deeper ∈ chainsIn properties := by
  induction chain generalizing properties with
  | nil => exact absurd hchain nil_notMem_chainsIn
  | cons p rest ih =>
    obtain ⟨hp, hrest⟩ := h.mem_chainsIn_cons.1 hchain
    obtain rfl | ⟨nested, hnested, hrest⟩ := hrest
    · exact ⟨h.children hp hlast, fun deeper hdeeper =>
        h.mem_chainsIn_cons.2 ⟨hp, .inr ⟨children, hlast, hdeeper⟩⟩⟩
    · have hlast' : rest.getLast?.bind Property.children = some children := by
        cases rest with
        | nil => exact absurd hrest nil_notMem_chainsIn
        | cons q rest => rwa [List.getLast?_cons_cons] at hlast
      obtain ⟨hindexed, happend⟩ := ih (h.children hp hnested) hrest hlast'
      exact ⟨hindexed, fun deeper hdeeper =>
        h.mem_chainsIn_cons.2 ⟨hp, .inr ⟨nested, hnested, happend deeper hdeeper⟩⟩⟩

end Property

namespace Entity

open Property (Indexed)

variable {nest : Descriptor → String → Except Error (Dictionary Property)}
  {ds : List Descriptor} {found properties : Dictionary Property}

theorem indexed_insert (h : Indexed found) {d : Descriptor}
    {children : Option (Dictionary Property)}
    (hc : ∀ nested, children = some nested → Indexed nested) :
    Indexed (found.insert d.name (d.property children)) := by
  obtain ⟨sorted, named, nested⟩ := h
  refine ⟨sorted.insert _ _, fun entry hm => ?_, fun entry hm => ?_⟩
  · obtain rfl | hm := Dictionary.mem_insert hm
    · rfl
    · exact named entry hm
  · obtain rfl | hm := Dictionary.mem_insert hm
    · exact hc
    · exact nested entry hm

def nestedOf (nest : Descriptor → String → Except Error (Dictionary Property)) (d : Descriptor) :
    Except Error (Option (Dictionary Property)) :=
  match d.nested with
  | none => pure none
  | some type => some <$> nest d type

theorem nestedOf_eq_ok_iff {d : Descriptor} {children : Option (Dictionary Property)} :
    nestedOf nest d = .ok children ↔ d.nested = none ∧ children = none ∨
      ∃ type nested, d.nested = some type ∧ nest d type = .ok nested ∧ children = some nested := by
  rw [nestedOf]
  cases d.nested with
  | none => simp [pure, Except.pure, eq_comm]
  | some type =>
    simp only [map_eq_ok_iff]
    simp [eq_comm]

theorem assemble_cons (d : Descriptor) (ds : List Descriptor) (found : Dictionary Property) :
    assemble nest (d :: ds) found = (do
      let children ← nestedOf nest d
      if found.contains d.name then .error (.declaredTwice d.name)
      assemble nest ds (found.insert d.name (d.property children))) := by
  rw [assemble, nestedOf]
  cases d.nested <;> rfl

theorem assemble_cons_eq_ok_iff {d : Descriptor} :
    assemble nest (d :: ds) found = .ok properties ↔
      ∃ children, nestedOf nest d = .ok children ∧ found.contains d.name = false ∧
        assemble nest ds (found.insert d.name (d.property children)) = .ok properties := by
  rw [assemble_cons]
  constructor
  · intro h
    obtain ⟨children, hchildren, h⟩ := exists_of_bind_eq_ok h
    split at h
    · cases h
    · next hnew => exact ⟨children, hchildren, by simpa using hnew, h⟩
  · rintro ⟨children, hchildren, hnew, h⟩
    rw [hchildren, ← h, hnew]
    rfl

theorem indexed_of_assemble (hnest : ∀ d type nested, nest d type = .ok nested → Indexed nested)
    (hfound : Indexed found) (h : assemble nest ds found = .ok properties) :
    Indexed properties := by
  induction ds generalizing found with
  | nil =>
    cases h
    exact hfound
  | cons d ds ih =>
    obtain ⟨children, hchildren, -, h⟩ := assemble_cons_eq_ok_iff.1 h
    refine ih (indexed_insert hfound fun nested hn => ?_) h
    obtain ⟨-, rfl⟩ | ⟨type, nested, -, hnested, rfl⟩ := nestedOf_eq_ok_iff.1 hchildren
    · cases hn
    · cases hn
      exact hnest d type nested hnested

theorem indexed_nil : Indexed [] :=
  ⟨.nil, nofun, nofun⟩

theorem indexed_of_propertiesOf {table : TypeTable} {levels : Nat}
    (h : propertiesOf table levels ds = .ok properties) : Indexed properties := by
  induction levels generalizing ds properties with
  | zero => exact indexed_of_assemble (fun d type nested hn => by cases hn) indexed_nil h
  | succ levels ih => exact indexed_of_assemble (fun d type nested hn => ih hn) indexed_nil h

theorem indexed_of_ofDescriptors {table : TypeTable} {type : String} {e : Entity}
    (h : ofDescriptors table type ds = .ok e) :
    Indexed e.properties ∧ ∃ key, e.properties.find? key = some e.idProperty := by
  obtain ⟨properties, hproperties, h⟩ := exists_of_bind_eq_ok h
  obtain ⟨name, hname, h⟩ := exists_of_bind_eq_ok h
  split at h
  · next p hp =>
    cases h
    exact ⟨indexed_of_propertiesOf hproperties, name, hp⟩
  · cases h

def paths (e : Entity) : List Path :=
  (Property.chainsIn e.properties).map Path.mk

def fieldNames (e : Entity) : List String :=
  e.paths.map Path.fieldName

end Entity

namespace Path

open Property (Indexed chainsIn)

variable {properties : Dictionary Property} {chain : List Property}

theorem exists_find?_of_lookup? {source : List Char} {p : Property}
    (h : lookup? properties source = some p) : ∃ key, properties.find? key = some p := by
  obtain h | ⟨-, h⟩ := Option.or_eq_some_iff.1 h <;> exact ⟨_, h⟩

def resolveSplit (properties : Dictionary Property) (split : List Char × List Char) :
    Option (List Property) := do
  let p ← lookup? properties split.1
  let children ← p.children
  let deeper ← resolveWords children split.2
  pure (p :: deeper)

theorem resolveSplit_eq_some {front rest : List Char} :
    resolveSplit properties (front, rest) = some chain ↔
      ∃ p children deeper, lookup? properties front = some p ∧ p.children = some children ∧
        resolveWords children rest = some deeper ∧ chain = p :: deeper := by
  constructor
  · intro h
    obtain ⟨p, hp, h⟩ := Option.bind_eq_some_iff.1 h
    obtain ⟨children, hchildren, h⟩ := Option.bind_eq_some_iff.1 h
    obtain ⟨deeper, hdeeper, h⟩ := Option.bind_eq_some_iff.1 h
    exact ⟨p, children, deeper, hp, hchildren, hdeeper, (Option.some.inj h).symm⟩
  · rintro ⟨p, children, deeper, hp, hchildren, hdeeper, rfl⟩
    simp [resolveSplit, hp, hchildren, hdeeper]

theorem resolveWords_of_lookup? {source : List Char} {p : Property} (hne : source ≠ [])
    (h : lookup? properties source = some p) : resolveWords properties source = some [p] := by
  rw [resolveWords, if_neg hne, h]

theorem resolveWords_of_lookup?_eq_none {source : List Char} (hne : source ≠ [])
    (h : lookup? properties source = none) :
    resolveWords properties source =
      (Text.splits source).findSome? (resolveSplit properties) := by
  rw [resolveWords, if_neg hne, h]
  have hattach := List.findSome?_subtype (l := (Text.splits source).attach)
    (f := fun split => resolveSplit properties split.1) (g := resolveSplit properties)
    fun _ _ => rfl
  rw [List.unattach_attach] at hattach
  exact hattach

theorem resolveWords_cases {source : List Char} (h : resolveWords properties source = some chain) :
    source ≠ [] ∧ ((∃ p, lookup? properties source = some p ∧ chain = [p]) ∨
      lookup? properties source = none ∧
        (Text.splits source).findSome? (resolveSplit properties) = some chain) := by
  have hne : source ≠ [] := by
    rintro rfl
    rw [resolveWords, if_pos rfl] at h
    cases h
  refine ⟨hne, ?_⟩
  cases hwhole : lookup? properties source with
  | some p =>
    rw [resolveWords_of_lookup? hne hwhole] at h
    exact .inl ⟨p, rfl, (Option.some.inj h).symm⟩
  | none =>
    rw [resolveWords_of_lookup?_eq_none hne hwhole] at h
    exact .inr ⟨rfl, h⟩

theorem resolveWords_mem_chainsIn (hi : Indexed properties) {source : List Char}
    (h : resolveWords properties source = some chain) : chain ∈ chainsIn properties := by
  induction hn : source.length using Nat.strong_induction_on
    generalizing source properties chain with
  | _ n ih =>
    obtain ⟨-, ⟨p, hp, rfl⟩ | ⟨-, hsplit⟩⟩ := resolveWords_cases h
    · obtain ⟨key, hkey⟩ := exists_find?_of_lookup? hp
      refine hi.mem_chainsIn_cons.2 ⟨?_, .inl rfl⟩
      rwa [hi.name_eq hkey]
    · obtain ⟨⟨front, rest⟩, hs, hsplit⟩ := List.exists_of_findSome?_eq_some hsplit
      obtain ⟨p, children, deeper, hp, hchildren, hdeeper, rfl⟩ := resolveSplit_eq_some.1 hsplit
      obtain ⟨key, hkey⟩ := exists_find?_of_lookup? hp
      have hlt := Text.length_lt_of_mem_splits hs
      have hrest := ih rest.length (hn ▸ hlt) (hi.children hkey hchildren) hdeeper rfl
      refine hi.mem_chainsIn_cons.2 ⟨?_, .inr ⟨children, hchildren, hrest⟩⟩
      rwa [hi.name_eq hkey]

theorem resolvePieces_mem_chainsIn (hi : Indexed properties) {pieces : List (List Char)}
    (h : resolvePieces properties pieces = some chain) : chain ∈ chainsIn properties := by
  induction pieces generalizing properties chain with
  | nil => cases h
  | cons source pieces ih =>
    cases pieces with
    | nil => exact resolveWords_mem_chainsIn hi h
    | cons next pieces =>
      obtain ⟨front, hfront, h⟩ := Option.bind_eq_some_iff.1 h
      obtain ⟨children, hchildren, h⟩ := Option.bind_eq_some_iff.1 h
      obtain ⟨deeper, hdeeper, h⟩ := Option.bind_eq_some_iff.1 h
      cases h
      obtain ⟨hindexed, happend⟩ :=
        hi.getLast?_children (resolveWords_mem_chainsIn hi hfront) hchildren
      exact happend deeper (ih hindexed hdeeper)

end Path

namespace Entity

theorem path_mem_paths {e : Entity} (hi : Property.Indexed e.properties) {source : String}
    {path : Path} (h : e.path source = .ok path) : path ∈ e.paths := by
  rw [Entity.path] at h
  split at h
  · next p hp =>
    cases h
    obtain ⟨chain, hchain, rfl⟩ := Option.map_eq_some_iff.1 hp
    exact List.mem_map_of_mem (Path.resolvePieces_mem_chainsIn hi hchain)
  · cases h

end Entity

end SearchMapper
