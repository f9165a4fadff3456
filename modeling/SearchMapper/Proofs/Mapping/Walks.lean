import SearchMapper.Proofs.Mapping.Naming
import SearchMapper.Proofs.Text.Words

namespace SearchMapper

namespace Text

variable {s front rest : List Char}

theorem mem_splits :
    (front, rest) ∈ splits s ↔ front ≠ [] ∧ front ++ rest = s ∧ startsUpper rest = true := by
  simp only [splits, List.mem_filterMap, List.mem_reverse, List.mem_range]
  constructor
  · rintro ⟨i, hi, h⟩
    split at h
    · next hcut =>
      cases h
      refine ⟨fun hnil => ?_, List.take_append_drop i s, hcut.2⟩
      have hlength := congrArg List.length hnil
      simp only [List.length_take, List.length_nil] at hlength
      omega
    · cases h
  · rintro ⟨hfront, rfl, hrest⟩
    have hlength := List.length_pos_iff.2 (ne_nil_of_startsUpper hrest)
    refine ⟨front.length, by simp only [List.length_append]; omega, ?_⟩
    have hcut : 0 < front.length ∧ startsUpper ((front ++ rest).drop front.length) = true := by
      rw [List.drop_left]
      exact ⟨List.length_pos_iff.2 hfront, hrest⟩
    rw [if_pos hcut, List.take_left, List.drop_left]

theorem pairwise_splits (s : List Char) :
    (splits s).Pairwise fun a b => b.1.length < a.1.length := by
  rw [splits, List.pairwise_filterMap, List.pairwise_reverse]
  have hrange : (List.range s.length).Pairwise fun i j => i < j ∧ j < s.length :=
    List.pairwise_lt_range.imp_of_mem fun _ hj hlt => ⟨hlt, List.mem_range.1 hj⟩
  refine hrange.imp ?_
  rintro i j ⟨hij, hj⟩ a ha b hb
  split at ha
  · split at hb
    · cases ha
      cases hb
      simp only [List.length_take]
      omega
    · cases hb
  · cases ha

theorem flatten_pieces (separator : Char) (s : List Char) :
    (pieces separator s).flatten = s.filter (· ≠ separator) := by
  induction s with
  | nil => rfl
  | cons c s ih =>
    rw [pieces]
    by_cases hc : c = separator
    · rw [if_pos hc, List.flatten_cons, ih]
      simp [hc]
    · obtain ⟨p, ps, hs⟩ := List.exists_cons_of_ne_nil (pieces_ne_nil separator s)
      rw [hs] at ih
      rw [if_neg hc, hs]
      simpa [hc] using ih

end Text

namespace Path

open Property (Indexed chainsIn)
open Text (decapitalize splits startsUpper)

variable {properties children : Dictionary Property} {p : Property} {chain : List Property}
  {source chunk : List Char} {chunks : List (List Char)}

/-- The first chunk names a property, and the others are a walk among those nested in it. A chunk
behind another begins with a capital. -/
inductive Walk : Dictionary Property → List (List Char) → List Property → Prop
  | last {properties : Dictionary Property} {chunk : List Char} {p : Property} (hne : chunk ≠ [])
      (hp : lookup? properties chunk = some p) : Walk properties [chunk] [p]
  | step {properties children : Dictionary Property} {chunk next : List Char}
      {chunks : List (List Char)} {p : Property} {chain : List Property} (hne : chunk ≠ [])
      (hp : lookup? properties chunk = some p) (hchildren : p.children = some children)
      (hnext : startsUpper next = true) (hwalk : Walk children (next :: chunks) chain) :
      Walk properties (chunk :: next :: chunks) (p :: chain)

/-- A walk along the whole text. Any other first differs from it by a shorter chunk. -/
structure IsLongest (properties : Dictionary Property) (source : List Char)
    (chunks : List (List Char)) (chain : List Property) : Prop where
  flatten_eq : chunks.flatten = source
  walk : Walk properties chunks chain
  greatest : ∀ others chain', others.flatten = source → Walk properties others chain' →
    others = chunks ∨ others.map List.length < chunks.map List.length

theorem mem_splits_of_startsUpper {next : List Char} (hne : chunk ≠ [])
    (hnext : startsUpper next = true) (chunks : List (List Char)) :
    (chunk, (next :: chunks).flatten) ∈ splits (chunk :: next :: chunks).flatten := by
  rw [Text.mem_splits, List.flatten_cons, List.flatten_cons]
  exact ⟨hne, rfl, Text.startsUpper_append hnext _⟩

theorem Walk.exists_resolveWords (h : Walk properties chunks chain) :
    ∃ found, resolveWords properties chunks.flatten = some found := by
  induction h with
  | last hne hp =>
    rw [List.flatten_singleton]
    exact ⟨_, resolveWords_of_lookup? hne hp⟩
  | @step properties children chunk next chunks p chain hne hp hchildren hnext hwalk ih =>
    obtain ⟨deeper, hdeeper⟩ := ih
    have hsource : (chunk :: next :: chunks).flatten ≠ [] := by simp [hne]
    cases hwhole : lookup? properties (chunk :: next :: chunks).flatten with
    | some q => exact ⟨_, resolveWords_of_lookup? hsource hwhole⟩
    | none =>
      rw [resolveWords_of_lookup?_eq_none hsource hwhole, ← Option.isSome_iff_exists,
        List.findSome?_isSome_iff]
      refine ⟨_, mem_splits_of_startsUpper hne hnext chunks, ?_⟩
      rw [resolveSplit_eq_some.2 ⟨p, children, deeper, hp, hchildren, hdeeper, rfl⟩]
      rfl

theorem isLongest_of_lookup? (hne : source ≠ []) (hp : lookup? properties source = some p) :
    IsLongest properties source [source] [p] := by
  refine ⟨List.flatten_singleton, .last hne hp, ?_⟩
  intro others chain' hflatten hwalk
  cases hwalk with
  | last =>
    rw [List.flatten_singleton] at hflatten
    exact .inl (by rw [hflatten])
  | @step _ _ chunk next chunks _ _ _ _ _ hnext _ =>
    right
    have hlength := congrArg List.length hflatten
    have hrest := List.length_pos_iff.2 (Text.ne_nil_of_startsUpper hnext)
    rw [List.flatten_cons, List.flatten_cons, List.length_append, List.length_append] at hlength
    exact List.cons_lt_cons_iff.2 (.inl (by omega))

theorem length_le_of_resolveSplit {split other : List Char × List Char}
    {before after : List (List Char × List Char)}
    (hsplits : splits source = before ++ split :: after)
    (hnone : ∀ longer ∈ before, resolveSplit properties longer = none)
    (hother : other ∈ splits source) (hsome : resolveSplit properties other ≠ none) :
    other.1.length ≤ split.1.length := by
  have hpairs := Text.pairwise_splits source
  rw [hsplits, List.pairwise_append, List.pairwise_cons] at hpairs
  rw [hsplits, List.mem_append, List.mem_cons] at hother
  rcases hother with hbefore | rfl | hafter
  · exact absurd (hnone _ hbefore) hsome
  · exact Nat.le_refl _
  · exact Nat.le_of_lt (hpairs.2.1.1 _ hafter)

theorem Walk.cons (hne : chunk ≠ []) (hp : lookup? properties chunk = some p)
    (hchildren : p.children = some children) (h : Walk children chunks chain)
    (hupper : startsUpper chunks.flatten = true) :
    Walk properties (chunk :: chunks) (p :: chain) := by
  obtain ⟨c, next, more, rfl⟩ : ∃ c next more, chunks = (c :: next) :: more := by
    cases h with
    | last hnext | step hnext =>
      obtain ⟨c, next, rfl⟩ := List.exists_cons_of_ne_nil hnext
      exact ⟨c, next, _, rfl⟩
  exact .step hne hp hchildren hupper h

theorem isLongest_of_split {front rest : List Char} {deeper : List Property}
    {before after : List (List Char × List Char)}
    (hsplits : splits source = before ++ (front, rest) :: after)
    (hnone : ∀ longer ∈ before, resolveSplit properties longer = none)
    (hwhole : lookup? properties source = none) (hp : lookup? properties front = some p)
    (hchildren : p.children = some children) (h : IsLongest children rest chunks deeper) :
    IsLongest properties source (front :: chunks) (p :: deeper) := by
  obtain ⟨hflatten, hwalk, hgreatest⟩ := h
  have hmem : (front, rest) ∈ splits source := by simp [hsplits]
  obtain ⟨hfront, hsource, hupper⟩ := Text.mem_splits.1 hmem
  refine ⟨by rw [List.flatten_cons, hflatten, hsource],
    hwalk.cons hfront hp hchildren (hflatten ▸ hupper), ?_⟩
  intro others chain' hothers hwalk'
  cases hwalk' with
  | last _ hq =>
    rw [List.flatten_singleton] at hothers
    rw [hothers, hwhole] at hq
    cases hq
  | @step _ _ chunk next more q _ hne hq hchildren' hnext hmore =>
    obtain ⟨found, hfound⟩ := hmore.exists_resolveWords
    -- A longer first chunk would be one of the splits that lead nowhere.
    have hle : chunk.length ≤ front.length := by
      refine length_le_of_resolveSplit hsplits hnone
        (hothers ▸ mem_splits_of_startsUpper hne hnext more) ?_
      rw [resolveSplit_eq_some.2 ⟨q, _, found, hq, hchildren', hfound, rfl⟩]
      exact Option.some_ne_none _
    obtain hlt | heq := Nat.lt_or_eq_of_le hle
    · exact .inr (List.cons_lt_cons_iff.2 (.inl hlt))
    · rw [← hsource, List.flatten_cons] at hothers
      obtain ⟨rfl, hrest⟩ := List.append_inj hothers heq
      obtain rfl := Option.some.inj (hq.symm.trans hp)
      obtain rfl := Option.some.inj (hchildren'.symm.trans hchildren)
      obtain hsame | hless := hgreatest _ _ hrest hmore
      · exact .inl (by rw [hsame])
      · exact .inr (List.cons_lt_cons_iff.2 (.inr ⟨rfl, hless⟩))

theorem exists_isLongest_of_resolveWords (h : resolveWords properties source = some chain) :
    ∃ chunks, IsLongest properties source chunks chain := by
  induction hn : source.length using Nat.strongRecOn generalizing source properties chain with
  | ind n ih =>
    obtain ⟨hne, ⟨p, hwhole, rfl⟩ | ⟨hwhole, hsplit⟩⟩ := resolveWords_cases h
    · exact ⟨_, isLongest_of_lookup? hne hwhole⟩
    · rw [List.findSome?_eq_some_iff] at hsplit
      obtain ⟨before, ⟨front, rest⟩, after, hsplits, hsplit, hnone⟩ := hsplit
      obtain ⟨p, children, deeper, hp, hchildren, hdeeper, rfl⟩ := resolveSplit_eq_some.1 hsplit
      have hmem : (front, rest) ∈ splits source := by simp [hsplits]
      obtain ⟨chunks, hchunks⟩ :=
        ih rest.length (hn ▸ Text.length_lt_of_mem_splits hmem) hdeeper rfl
      exact ⟨_, isLongest_of_split hsplits hnone hwhole hp hchildren hchunks⟩

theorem resolveWords_eq_none_iff : resolveWords properties source = none ↔
    ¬∃ chunks chain, chunks.flatten = source ∧ Walk properties chunks chain := by
  constructor
  · rintro hnone ⟨chunks, chain, rfl, hwalk⟩
    obtain ⟨found, hfound⟩ := hwalk.exists_resolveWords
    rw [hnone] at hfound
    cases hfound
  · intro hwalks
    by_contra hsome
    obtain ⟨chain, hchain⟩ := Option.ne_none_iff_exists'.1 hsome
    obtain ⟨chunks, hchunks⟩ := exists_isLongest_of_resolveWords hchain
    exact hwalks ⟨chunks, chain, hchunks.flatten_eq, hchunks.walk⟩

/-- The chunk is the property's name, or becomes it with a small first letter. -/
def Names (chunk : List Char) (p : Property) : Prop :=
  p.name.toList = chunk ∨ p.name.toList = decapitalize chunk

theorem names_of_lookup? (hi : Indexed properties) (hp : lookup? properties chunk = some p) :
    Names chunk p := by
  obtain h | ⟨-, h⟩ := Option.or_eq_some_iff.1 hp
  · right
    rw [hi.name_eq h, String.toList_ofList]
  · left
    rw [hi.name_eq h, String.toList_ofList]

theorem Walk.names (h : Walk properties chunks chain) (hi : Indexed properties) :
    List.Forall₂ Names chunks chain := by
  induction h with
  | last _ hp => exact .cons (names_of_lookup? hi hp) .nil
  | step _ hp hchildren _ _ ih =>
    obtain ⟨key, hkey⟩ := exists_find?_of_lookup? hp
    exact .cons (names_of_lookup? hi hp) (ih (hi.children hkey hchildren))

theorem exists_names_of_resolvePieces (hi : Indexed properties) {pieces : List (List Char)}
    (h : resolvePieces properties pieces = some chain) :
    ∃ chunks, chunks.flatten = pieces.flatten ∧ List.Forall₂ Names chunks chain := by
  induction pieces generalizing properties chain with
  | nil => cases h
  | cons source pieces ih =>
    cases pieces with
    | nil =>
      obtain ⟨chunks, hchunks⟩ := exists_isLongest_of_resolveWords h
      exact ⟨chunks, by rw [hchunks.flatten_eq, List.flatten_singleton], hchunks.walk.names hi⟩
    | cons next pieces =>
      obtain ⟨front, hfront, h⟩ := Option.bind_eq_some_iff.1 h
      obtain ⟨children, hchildren, h⟩ := Option.bind_eq_some_iff.1 h
      obtain ⟨deeper, hdeeper, h⟩ := Option.bind_eq_some_iff.1 h
      cases h
      obtain ⟨chunks, hchunks⟩ := exists_isLongest_of_resolveWords hfront
      have hindexed := (hi.getLast?_children (resolveWords_mem_chainsIn hi hfront) hchildren).1
      obtain ⟨more, hmore, hnames⟩ := ih hindexed hdeeper
      refine ⟨chunks ++ more, ?_, List.rel_append (hchunks.walk.names hi) hnames⟩
      rw [List.flatten_append, hchunks.flatten_eq, hmore]
      rfl

end Path

namespace Entity

variable {e : Entity} {source : String}

theorem path_eq_error_iff (hm : '_' ∉ source.toList) (err : Error) :
    e.path source = .error err ↔
      err = .unknownProperty (String.ofList (Text.decapitalize source.toList)) e.typeName ∧
        Path.resolveWords e.properties source.toList = none := by
  rw [Entity.path, path?, Text.pieces_eq_singleton hm, Path.resolvePieces]
  cases Path.resolveWords e.properties source.toList <;> simp [eq_comm]

/-- A path that resolves goes from a property of the type to nested ones, whose names the text
without its underscores consists of. A text without underscores resolves to the walk along it whose
chunks are the longest, and is unknown just if there is no walk along it. -/
theorem path_takes_longest {table : TypeTable} {type : String} {ds : List Descriptor}
    (he : Entity.ofDescriptors table type ds = .ok e) (source : String) :
    (∀ path, e.path source = .ok path →
      path ∈ e.paths ∧
      path.fieldName = ".".intercalate (path.properties.map Property.fieldName) ∧
      ∃ chunks, chunks.flatten = source.toList.filter (· ≠ '_') ∧
        List.Forall₂ Path.Names chunks path.properties) ∧
    ('_' ∉ source.toList →
      (∀ err, e.path source = .error err ↔
        err = .unknownProperty (String.ofList (Text.decapitalize source.toList)) e.typeName ∧
          ¬∃ chunks chain, chunks.flatten = source.toList ∧
            Path.Walk e.properties chunks chain) ∧
      ∀ path, e.path source = .ok path →
        ∃ chunks, Path.IsLongest e.properties source.toList chunks path.properties) := by
  have hi := (indexed_of_ofDescriptors he).1
  refine ⟨fun path hpath => ?_, fun hm => ⟨fun err => ?_, fun path hpath => ?_⟩⟩
  · rw [← Text.flatten_pieces]
    exact ⟨path_mem_paths hi hpath, rfl,
      Path.exists_names_of_resolvePieces hi (path_eq_ok_iff.1 hpath)⟩
  · rw [path_eq_error_iff hm, Path.resolveWords_eq_none_iff]
  · rw [path_eq_ok_iff, Text.pieces_eq_singleton hm] at hpath
    exact Path.exists_isLongest_of_resolveWords hpath

section Offers

def offerTypes : TypeTable :=
  [("Rate", [{ name := "tax" }]),
    ("Unit", [{ name := "price", nested := some "Rate" }, { name := "priceTax" }])]

def offerProperties : List Descriptor :=
  [{ name := "id" }, { name := "unit", nested := some "Unit" },
    { name := "unitPrice", field := some "cost", nested := some "Rate" }]

def offerTax : Property :=
  ⟨"tax", "tax", false, none⟩

def offerUnitPrice : Property :=
  ⟨"unitPrice", "cost", false, some [("tax", offerTax)]⟩

def offerEntity : Entity :=
  ⟨"Offer", ⟨"id", "id", true, none⟩,
    [("id", ⟨"id", "id", true, none⟩),
      ("unit", ⟨"unit", "unit", false, some
        [("price", ⟨"price", "price", false, some [("tax", offerTax)]⟩),
          ("priceTax", ⟨"priceTax", "priceTax", false, none⟩)]⟩),
      ("unitPrice", offerUnitPrice)]⟩

theorem ofDescriptors_offer :
    ofDescriptors offerTypes "Offer" offerProperties = .ok offerEntity := rfl

theorem path_takes_longest_offer :
    ofDescriptors offerTypes "Offer" offerProperties = .ok offerEntity ∧
      offerEntity.path "UnitPriceTax" = .ok ⟨[offerUnitPrice, offerTax]⟩ ∧
      ∃ chunks, Path.IsLongest offerEntity.properties "UnitPriceTax".toList chunks
        [offerUnitPrice, offerTax] := by
  have hpath : offerEntity.path "UnitPriceTax" = .ok ⟨[offerUnitPrice, offerTax]⟩ := by cbv
  have hlongest := (path_takes_longest ofDescriptors_offer "UnitPriceTax").2 (by decide)
  exact ⟨ofDescriptors_offer, hpath, hlongest.2 _ hpath⟩

end Offers

end Entity

end SearchMapper
