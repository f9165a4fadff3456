import SearchMapper.Query.Criteria.Rendering

namespace SearchMapper

/-- An empty text is not joined while nothing stands in front of it. -/
def Conjunction.joinTexts (join : Conjunction) (texts : List String) : String :=
  (" " ++ join.word ++ " ").intercalate (texts.dropWhile (· = ""))

theorem Conjunction.joinTexts_empty_cons (join : Conjunction) (texts : List String) :
    join.joinTexts ("" :: texts) = join.joinTexts texts :=
  rfl

theorem Conjunction.joinTexts_of_ne_empty (join : Conjunction) {text : String} (h : text ≠ "")
    (texts : List String) :
    join.joinTexts (text :: texts) = (" " ++ join.word ++ " ").intercalate (text :: texts) := by
  rw [joinTexts, List.dropWhile_cons_of_neg (by simpa using h)]

theorem Conjunction.joinTexts_singleton (join : Conjunction) (text : String) :
    join.joinTexts [text] = text := by
  by_cases h : text = ""
  · rw [h]
    rfl
  · rw [joinTexts_of_ne_empty join h, String.intercalate_singleton]

namespace FieldNode

variable {node : FieldNode}

theorem text?_eq_none : node.text? = none ↔ node.predicates = [] := by
  obtain ⟨field, ps, boost⟩ := node
  simp only [text?, predicatesText?, Option.map_eq_none_iff]
  split
  · simp
  · simp
  · simp
  · simp
  · next hne _ _ _ => split <;> exact ⟨nofun, fun h => (hne h).elim⟩

end FieldNode

namespace Criteria

variable {join : Conjunction} {links : List Link}

theorem linksText_of_ne_empty {out : String} (ho : out ≠ "") (hj : ∀ link ∈ links, link.1 = join) :
    linksText out links = join.joinTexts (out :: links.filterMap fun link => nodeText? link.2) := by
  induction links generalizing out with
  | nil => rw [linksText, List.filterMap_nil, Conjunction.joinTexts_singleton]
  | cons link links ih =>
    obtain ⟨join', node⟩ := link
    obtain rfl : join' = join := hj _ List.mem_cons_self
    have hjs : ∀ link ∈ links, link.1 = join' := fun link hm => hj link (List.mem_cons_of_mem _ hm)
    rw [linksText]
    cases ht : nodeText? node with
    | none =>
      rw [List.filterMap_cons_none (by exact ht)]
      exact ih ho hjs
    | some text =>
      have hne : joined out join' text ≠ "" := by
        simp [joined, ho]
      simp only
      rw [List.filterMap_cons_some (by exact ht), ih hne hjs,
        Conjunction.joinTexts_of_ne_empty _ hne, Conjunction.joinTexts_of_ne_empty _ ho, joined,
        if_neg ho]
      simp [String.append_assoc]

theorem linksText_cons (join join' : Conjunction) (node : Node) :
    linksText "" ((join, node) :: links) = linksText "" ((join', node) :: links) := by
  rw [linksText, linksText]
  rfl

theorem linksText_eq_joinTexts (join : Conjunction) (hj : ∀ link ∈ links, link.1 = join) :
    linksText "" links = join.joinTexts (links.filterMap fun link => nodeText? link.2) := by
  induction links with
  | nil => rfl
  | cons link links ih =>
    obtain ⟨join', node⟩ := link
    have hjs : ∀ link ∈ links, link.1 = join := fun link hm => hj link (List.mem_cons_of_mem _ hm)
    rw [linksText]
    cases hn : nodeText? node with
    | none =>
      rw [List.filterMap_cons_none (by exact hn)]
      exact ih hjs
    | some text =>
      rw [List.filterMap_cons_some (by exact hn)]
      by_cases he : text = ""
      · rw [he, Conjunction.joinTexts_empty_cons]
        exact ih hjs
      · exact linksText_of_ne_empty he hjs

end Criteria

end SearchMapper
