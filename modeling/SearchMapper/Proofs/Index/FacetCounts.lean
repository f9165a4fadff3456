import Mathlib.Data.List.Sort
import SearchMapper.Proofs.Dictionary
import SearchMapper.Proofs.Index.SortOrder

namespace SearchMapper.Index

/-- The larger number first, and among equals the smaller text. -/
def Outranks (a b : String × Nat) : Prop :=
  b.2 < a.2 ∨ a.2 = b.2 ∧ a.1 < b.1

/-- How often a value occurs in a field, all hits taken together. -/
def occurrences (hits : List Record) (field v : String) : Nat :=
  (hits.flatMap fun hit => hit.fieldValues field).count v

/-- The number of hits that carry a value, however often each does. -/
def carriers (hits : List Record) (field v : String) : Nat :=
  hits.countP fun hit => v ∈ hit.fieldValues field

/-- The values that occur in a field, in the order of their numbers as far as these are not too
small. -/
structure Ranks (hits : List Record) (field : String) (number : String → Nat) (minCount : Nat)
    (ranking : List (String × Nat)) : Prop where
  ordered : ranking.Pairwise Outranks
  mem_iff : ∀ v n, (v, n) ∈ ranking ↔
    (∃ hit ∈ hits, v ∈ hit.fieldValues field) ∧ number v = n ∧ minCount ≤ n

/-- A facet of the field shows the values with the numbers of hits that carry them, as many as its
limit admits. -/
def CountsHits (hits : List Record) (field : String) : Prop :=
  ∀ minCount, 1 ≤ minCount → ∃ ranking, Ranks hits field (carriers hits field) minCount ranking ∧
    ∀ limit, countFacet hits field limit minCount = ranking.take limit

variable {hits : List Record} {field : String} {number : String → Nat} {minCount : Nat}
  {ranking ranking' : List (String × Nat)} {values values' : List String}

section Rankings

theorem Outranks.asymm {a b : String × Nat} (h : Outranks a b) : ¬Outranks b a := by
  rintro (hb | ⟨he, hb⟩) <;> obtain ha | ⟨he', ha⟩ := h
  · omega
  · omega
  · omega
  · exact lt_asymm ha hb

theorem nodup_of_ordered (h : ranking.Pairwise Outranks) : ranking.Nodup :=
  h.imp fun {a b} (hab : Outranks a b) (he : a = b) => hab.asymm (he ▸ hab)

theorem eq_of_perm_of_ordered (hperm : ranking.Perm ranking') (h : ranking.Pairwise Outranks)
    (h' : ranking'.Pairwise Outranks) : ranking = ranking' :=
  hperm.eq_of_pairwise (fun _ _ _ _ hab hba => absurd hba hab.asymm) h h'

theorem Ranks.nodup_values (h : Ranks hits field number minCount ranking) :
    (ranking.map Prod.fst).Nodup := by
  refine List.Nodup.map_on ?_ (nodup_of_ordered h.ordered)
  rintro ⟨v, n⟩ hn ⟨_, k⟩ hk rfl
  rw [← ((h.mem_iff _ _).1 hn).2.1, ← ((h.mem_iff _ _).1 hk).2.1]

end Rankings

section Tallies

theorem tally_represents (values : List String) :
    (tally values).Represents fun v => if v ∈ values then some (values.count v) else none := by
  induction values using List.reverseRecOn with
  | nil => exact .nil
  | append_singleton values v ih =>
    have hcount : ((tally values).find? v).getD 0 = values.count v := by
      rw [ih.find?_eq]
      split
      · rfl
      · next hv => simp [List.count_eq_zero_of_not_mem hv]
    have hstep : tally (values ++ [v]) = (tally values).insert v (values.count v + 1) := by
      rw [← hcount, tally, List.foldl_append]
      rfl
    rw [hstep]
    convert ih.insert v (values.count v + 1) using 1
    funext w
    by_cases hw : w = v
    · subst hw
      simp
    · simp [hw, List.count_append, Ne.symm hw]

theorem mem_tally {v : String} {n : Nat} :
    (v, n) ∈ tally values ↔ v ∈ values ∧ values.count v = n := by
  have h := tally_represents values
  rw [h.sorted.mem_iff, h.find?_eq]
  by_cases hv : v ∈ values <;> simp [hv]

theorem tally_perm (h : values.Perm values') : tally values = tally values' := by
  have hvalues := tally_represents values
  have hvalues' := tally_represents values'
  refine hvalues.sorted.ext hvalues'.sorted fun v => ?_
  rw [hvalues.find?_eq, hvalues'.find?_eq, h.count_eq]
  simp only [h.mem_iff]

theorem countFacet_perm {hits' : List Record} (h : hits.Perm hits') (field : String)
    (limit minCount : Nat) :
    countFacet hits field limit minCount = countFacet hits' field limit minCount := by
  rw [countFacet, countFacet, tally_perm (h.flatMap_right _)]

end Tallies

section Sorting

theorem filter_mergeSort {α : Type} {le : α → α → Bool} (htrans : ∀ a b c, le a b → le b c → le a c)
    (htotal : ∀ a b, le a b || le b a) {xs : List α} {p : α → Bool}
    (h : (xs.filter p).Pairwise fun a b => le a b) : (xs.mergeSort le).filter p = xs.filter p := by
  have hsub : (xs.filter p).Sublist (xs.mergeSort le) :=
    List.sublist_mergeSort htrans htotal h (List.filter_sublist)
  have hfilter := hsub.filter p
  simp only [List.filter_filter, Bool.and_self] at hfilter
  have hperm := (List.mergeSort_perm xs le).filter p
  exact (hfilter.eq_of_length hperm.length_eq.symm).symm

theorem mergeSort_ordered {entries : List (String × Nat)}
    (h : entries.Pairwise fun a b => a.1 < b.1) :
    (entries.mergeSort fun a b => b.2 ≤ a.2).Pairwise Outranks := by
  have htrans (a b c : String × Nat) (hab : decide (b.2 ≤ a.2) = true)
      (hbc : decide (c.2 ≤ b.2) = true) : decide (c.2 ≤ a.2) = true := by
    simp only [decide_eq_true_eq] at *
    omega
  have htotal (a b : String × Nat) : (decide (b.2 ≤ a.2) || decide (a.2 ≤ b.2)) = true := by
    simpa using Nat.le_total _ _
  have hsorted := List.pairwise_mergeSort htrans htotal entries
  refine List.pairwise_iff_forall_sublist.2 fun {a b} hab => ?_
  have hle : b.2 ≤ a.2 := by simpa using List.pairwise_iff_forall_sublist.1 hsorted hab
  obtain hlt | heq := hle.lt_or_eq
  · exact .inl hlt
  · -- both stand among the entries of their number, which the sort leaves as they are
    have hsame : (entries.filter fun e => e.2 = a.2).Pairwise fun a b => decide (b.2 ≤ a.2) := by
      refine List.pairwise_of_forall_mem_list fun x hx y hy => ?_
      have hx' := (List.mem_filter.1 hx).2
      have hy' := (List.mem_filter.1 hy).2
      simp_all
    have hfilter := hab.filter fun e => e.2 = a.2
    rw [filter_mergeSort htrans htotal hsame] at hfilter
    have hpair : [a, b].filter (fun e => e.2 = a.2) = [a, b] := by simp [heq]
    rw [hpair] at hfilter
    exact .inr ⟨heq.symm,
      List.pairwise_iff_forall_sublist.1 h (hfilter.trans List.filter_sublist)⟩

end Sorting

section Facets

theorem mem_flatMap_fieldValues {v : String} :
    v ∈ (hits.flatMap fun hit => hit.fieldValues field) ↔ ∃ hit ∈ hits, v ∈ hit.fieldValues field :=
  List.mem_flatMap

theorem exists_ranking (hits : List Record) (field : String) (minCount : Nat) :
    ∃ ranking, Ranks hits field (occurrences hits field) minCount ranking ∧
      (∀ limit, countFacet hits field limit minCount = ranking.take limit) ∧
      ranking.Perm ((tally (hits.flatMap fun hit => hit.fieldValues field)).filter
        fun entry => minCount ≤ entry.2) := by
  have hsorted := (tally_represents (hits.flatMap fun hit => hit.fieldValues field)).sorted
  refine ⟨_, ⟨mergeSort_ordered (List.Pairwise.filter _ hsorted), fun v n => ?_⟩, fun _ => rfl,
    List.mergeSort_perm _ _⟩
  rw [List.mem_mergeSort, List.mem_filter, mem_tally, mem_flatMap_fieldValues, and_assoc,
    decide_eq_true_eq]
  rfl

theorem carriers_le_occurrences (hits : List Record) (field v : String) :
    carriers hits field v ≤ occurrences hits field v := by
  induction hits with
  | nil => exact Nat.zero_le _
  | cons hit hits ih =>
    simp only [carriers, occurrences, List.countP_cons, List.flatMap_cons, List.count_append]
      at ih ⊢
    have hpos : v ∈ hit.fieldValues field → 0 < (hit.fieldValues field).count v :=
      List.count_pos_iff.2
    split
    · next hv =>
      have := hpos (by simpa using hv)
      omega
    · omega

/-- The two numbers part at the first hit that carries the value twice. -/
theorem occurrences_eq_carriers_iff (hits : List Record) (field v : String) :
    occurrences hits field v = carriers hits field v ↔
      ∀ hit ∈ hits, (hit.fieldValues field).count v ≤ 1 := by
  induction hits with
  | nil => simp [occurrences, carriers]
  | cons hit hits ih =>
    have hle := carriers_le_occurrences hits field v
    rw [List.forall_mem_cons, ← ih]
    simp only [carriers, occurrences, List.countP_cons, List.flatMap_cons, List.count_append]
      at hle ⊢
    by_cases hv : v ∈ hit.fieldValues field
    · have hpos := List.count_pos_iff.2 hv
      simp only [hv, decide_true, if_true]
      omega
    · have hzero := List.count_eq_zero.2 hv
      simp only [hv, decide_false, Bool.false_eq_true, if_false]
      omega

theorem countsHits_iff :
    CountsHits hits field ↔ ∀ hit ∈ hits, (hit.fieldValues field).Nodup := by
  have heq : (∀ v, occurrences hits field v = carriers hits field v) ↔
      ∀ hit ∈ hits, (hit.fieldValues field).Nodup := by
    simp only [occurrences_eq_carriers_iff, List.nodup_iff_count_le_one]
    exact ⟨fun h hit hm v => h v hit hm, fun h v hit hm => h hit hm v⟩
  rw [← heq]
  constructor
  · intro h v
    obtain ⟨ranking, hranks, hall, -⟩ := exists_ranking hits field 1
    obtain ⟨ranking', hranks', hall'⟩ := h 1 le_rfl
    -- cut behind both rankings, the facet is each of them
    have hsame : ranking = ranking' := by
      have hcut := (hall (max ranking.length ranking'.length)).symm.trans (hall' _)
      rwa [List.take_of_length_le (le_max_left _ _), List.take_of_length_le (le_max_right _ _)]
        at hcut
    by_cases hv : ∃ hit ∈ hits, v ∈ hit.fieldValues field
    · have hpos : 0 < occurrences hits field v :=
        List.count_pos_iff.2 (mem_flatMap_fieldValues.2 hv)
      have hm : (v, occurrences hits field v) ∈ ranking := (hranks.mem_iff _ _).2 ⟨hv, rfl, hpos⟩
      rw [hsame] at hm
      exact ((hranks'.mem_iff _ _).1 hm).2.1.symm
    · rw [occurrences_eq_carriers_iff]
      intro hit hm
      rw [List.count_eq_zero_of_not_mem fun hin => hv ⟨hit, hm, hin⟩]
      exact Nat.zero_le 1
  · intro h minCount _
    obtain ⟨ranking, hranks, hall, -⟩ := exists_ranking hits field minCount
    rw [funext h] at hranks
    exact ⟨ranking, hranks, hall⟩

/-- An answer has a facet for each field that is asked for. It is that of all hits, whichever of
them the request shows and in which order. -/
theorem find?_facets_respond {records : Dictionary Record} {request : Request} {query : Expr}
    {filters : List Expr} {facet : FacetRequest} (hfacet : request.facet = some facet)
    (hfield : field ∈ facet.fields) :
    (respond records request query filters).facets.find? field =
      some (countFacet (Index.hits records query filters) field facet.limit facet.minCount) := by
  simp only [respond, hfacet]
  rw [Dictionary.find?_ofList_eq_some_iff]
  · refine List.mem_map.2 ⟨field, hfield, ?_⟩
    rw [countFacet_perm (sortHits_perm _ _)]
  · intro v w hv hw
    obtain ⟨_, -, hv⟩ := List.mem_map.1 hv
    obtain ⟨_, -, hw⟩ := List.mem_map.1 hw
    cases hv
    cases hw
    rfl

/-- A facet shows the values that occur in a field, each once and by how often they do, the most
frequent first and equal ones by their texts. Neither the order in which they are tallied nor the
rows that the request shows make a difference. The numbers are those of the hits that carry the
values just when none of them carries one twice. -/
theorem countFacet_ranks (hits : List Record) (field : String) :
    (∀ minCount, ∃ ranking, Ranks hits field (occurrences hits field) minCount ranking ∧
      (ranking.map Prod.fst).Nodup ∧
      (∀ limit, countFacet hits field limit minCount = ranking.take limit) ∧
      ∀ entries : List (String × Nat), entries.Pairwise Outranks →
        entries.Perm ((tally (hits.flatMap fun hit => hit.fieldValues field)).filter
          fun entry => minCount ≤ entry.2) → entries = ranking) ∧
    (CountsHits hits field ↔ ∀ hit ∈ hits, (hit.fieldValues field).Nodup) ∧
    ∀ (records : Dictionary Record) (request : Request) (query : Expr) (filters : List Expr)
      (facet : FacetRequest), request.facet = some facet → field ∈ facet.fields →
      (respond records request query filters).facets.find? field =
        some (countFacet (Index.hits records query filters) field facet.limit facet.minCount) := by
  refine ⟨fun minCount => ?_, countsHits_iff, fun _ _ _ _ _ => find?_facets_respond⟩
  obtain ⟨ranking, hranks, hall, hperm⟩ := exists_ranking hits field minCount
  refine ⟨ranking, hranks, hranks.nodup_values, hall, fun entries hordered hentries => ?_⟩
  exact eq_of_perm_of_ordered (hentries.trans hperm.symm) hordered hranks.ordered

section Novels

def novel (id : String) (genres : List String) : Record :=
  [("genres", .array (genres.map .text)), ("id", .text id)]

theorem countFacet_ranks_novels :
    CountsHits [novel "1" ["love", "crime"], novel "2" ["crime"]] "genres" ∧
      (respond [("1", novel "1" ["love", "crime"]), ("2", novel "2" ["crime"])]
        { query := "*:*", rows := some 0, facet := some ⟨["id", "genres"], 1, 1⟩ } .all
          []).facets.find? "genres" = some [("crime", 2)] := by
  obtain ⟨-, hcounts, hrespond⟩ :=
    countFacet_ranks [novel "1" ["love", "crime"], novel "2" ["crime"]] "genres"
  refine ⟨hcounts.2 (by decide), ?_⟩
  rw [hrespond _ _ _ _ ⟨["id", "genres"], 1, 1⟩ rfl (by decide), countFacet,
    List.mergeSort_of_pairwise]
  · decide
  · decide

/-- The one hit counts for two, as its value stands in it twice. -/
theorem countFacet_counts_repeated :
    carriers [novel "1" ["crime", "crime"]] "genres" "crime" = 1 ∧
      countFacet [novel "1" ["crime", "crime"]] "genres" 10 1 = [("crime", 2)] ∧
      ¬CountsHits [novel "1" ["crime", "crime"]] "genres" := by
  refine ⟨by decide +kernel, by decide +kernel, ?_⟩
  rw [countsHits_iff]
  decide

end Novels

end Facets

end SearchMapper.Index
