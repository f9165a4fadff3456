import SearchMapper.Index.Search
import SearchMapper.Proofs.Index.Embedding
import SearchMapper.Proofs.Query.Agreement

namespace SearchMapper

open Index (Expr)
open Index.Grammar (WholeText)
open Index.Reading (conjunction disjunction)

namespace Criteria

variable {c : Criteria} {join : Conjunction} {node : Node} {text : String} {es : List Expr}

section Texts

theorem linksText_append_link (h : nodeText? node = some text) (out : String)
    (links : List Link) :
    linksText out (links ++ [(join, node)]) = joined (linksText out links) join text := by
  induction links generalizing out with
  | nil => simp [linksText, h]
  | cons link links ih =>
    obtain ⟨join', node'⟩ := link
    rw [List.cons_append, linksText, linksText]
    split
    · exact ih out
    · exact ih _

theorem toText_link (h : nodeText? node = some text) :
    (c.link join node).toText = joined c.toText join text :=
  linksText_append_link h "" c.links

theorem linksText_of_filled_eq_nil {links : List Link} (h : filled links = []) (out : String) :
    linksText out links = out := by
  induction links with
  | nil => rfl
  | cons link links ih =>
    obtain ⟨join', node'⟩ := link
    rw [filled, List.filter_eq_nil_iff] at h
    obtain ⟨hnode, hlinks⟩ := List.forall_mem_cons.1 h
    rw [linksText, Plain.nodeText?_of_isEmpty (by simpa using hnode)]
    exact ih (List.filter_eq_nil_iff.2 hlinks)

theorem toText_of_links_eq (h : c.links = [(join, node)]) :
    c.toText = (nodeText? node).getD "" := by
  rw [toText, h, linksText]
  split <;> simp_all [linksText, joined]

end Texts

section Parentheses

/-- The alternatives that the text of a group is read as. In parentheses they are a single one. -/
def grouped (c : Criteria) (es : List Expr) : List Expr :=
  if 1 < (filled c.links).length then [disjunction es] else es

theorem any_grouped (c : Criteria) (es : List Expr) (record : Record) :
    (c.grouped es).any (·.holds record) = es.any (·.holds record) := by
  unfold grouped
  split
  · simp [Expr.holds_disjunction]
  · rfl

theorem exists_nodeText_group (h : WholeText c.toText.toList es) :
    ∃ text, nodeText? (.group c.links) = some text ∧ WholeText text.toList (c.grouped es) := by
  rw [nodeText?, grouped]
  rcases hlen : (filled c.links).length with _ | _ | n
  · exact absurd (linksText_of_filled_eq_nil (List.length_eq_zero_iff.1 hlen) "") h.ne_empty
  · exact ⟨c.toText, rfl, h⟩
  · refine ⟨"(" ++ c.toText ++ ")", rfl, ?_⟩
    have htext : ("(" ++ c.toText ++ ")").toList = '(' :: (c.toText.toList ++ [')']) := by simp
    rw [htext, if_pos (by omega)]
    exact h.parenthesized

theorem wholeText_group (h : WholeText c.toText.toList es) :
    WholeText (group c).toText.toList (c.grouped es) := by
  obtain ⟨text, ht, hwhole⟩ := exists_nodeText_group h
  have htext : (group c).toText = (nodeText? (.group c.links)).getD "" := toText_of_links_eq rfl
  rwa [htext, ht]

end Parentheses

def stocked : Criteria :=
  ((raw "title:a OR title:b").andField ⟨"stocked", by decide⟩).is (.bool true)

theorem exists_ofText_stocked : ∃ e, Expr.ofText stocked.toText = .ok e :=
  ⟨_, Plain.ofText_of_toText_eq
    (c := ((((start ⟨"title", by decide⟩).is (.text "a")).orField ⟨"title", by decide⟩).is
      (.text "b")).andField ⟨"stocked", by decide⟩ |>.is (.bool true))
    (by decide) (by decide) (by decide)⟩

section And

variable {c₁ c₂ : Criteria} {es₁ es₂ : List Expr} {e₁ e₂ : Expr}

/-- AND joins the last alternative of the first text to the first one of the second. -/
theorem wholeText_group_and_group (h₁ : WholeText c₁.toText.toList es₁)
    (h₂ : WholeText c₂.toText.toList es₂) :
    ∃ front run₁ run₂ back, c₁.grouped es₁ = front ++ [conjunction run₁] ∧
      c₂.grouped es₂ = conjunction run₂ :: back ∧
      WholeText ((group c₁).andCriteria (group c₂)).toText.toList
        (front ++ conjunction (run₁ ++ run₂) :: back) := by
  obtain ⟨text₂, ht₂, hw₂⟩ := exists_nodeText_group h₂
  have hw₁ := wholeText_group h₁
  have htext : ((group c₁).andCriteria (group c₂)).toText =
      joined (group c₁).toText .and text₂ := toText_link ht₂
  obtain ⟨front, run₁, run₂, back, hf, hb, hjoined⟩ := hw₁.and hw₂
  rw [← Plain.joined_toList hw₁.ne_empty, ← htext] at hjoined
  exact ⟨front, run₁, run₂, back, hf, hb, hjoined⟩

theorem hits_eq_hits_filter_iff {e : Expr} :
    (∀ records, Index.hits records e [] = Index.hits records e₁ [e₂]) ↔
      ∀ record, e.holds record = (e₁.holds record && e₂.holds record) := by
  constructor
  · intro h record
    have hvalues : (Dictionary.ofList [("1", record)]).values = [record] := rfl
    have hmem (query : Expr) (filters : List Expr) :
        record ∈ Index.hits (.ofList [("1", record)]) query filters ↔
          (query.holds record && filters.all (·.holds record)) = true := by
      simp [Index.hits, hvalues]
    have hiff := hmem e []
    rw [h, hmem] at hiff
    rw [Bool.eq_iff_iff]
    simpa using hiff.symm
  · intro h records
    simp [Index.hits, h]

/-- Two groups joined by AND match what both match, and so what one finds with the other for a
filter, just when each record that matches an alternative outside of the AND matches the other side
as well. A group in parentheses leaves no alternative outside. -/
theorem and_groups_iff (h₁ : Expr.ofText c₁.toText = .ok e₁) (h₂ : Expr.ofText c₂.toText = .ok e₂) :
    ∃ es₁ es₂ e, (WholeText c₁.toText.toList es₁ ∧ disjunction es₁ = e₁) ∧
      (WholeText c₂.toText.toList es₂ ∧ disjunction es₂ = e₂) ∧
      Expr.ofText ((group c₁).andCriteria (group c₂)).toText = .ok e ∧
      ((∀ records, Index.hits records e [] = Index.hits records e₁ [e₂]) ↔
        ∀ record, e.holds record = (e₁.holds record && e₂.holds record)) ∧
      ((∀ record, e.holds record = (e₁.holds record && e₂.holds record)) ↔
        ∀ record, ((c₁.grouped es₁).dropLast.any (·.holds record) → e₂.holds record) ∧
          ((c₂.grouped es₂).tail.any (·.holds record) → e₁.holds record)) := by
  obtain ⟨es₁, hw₁, rfl⟩ := Index.Grammar.ofText_eq_ok_iff.1 h₁
  obtain ⟨es₂, hw₂, rfl⟩ := Index.Grammar.ofText_eq_ok_iff.1 h₂
  obtain ⟨front, run₁, run₂, back, hg₁, hg₂, hw⟩ := wholeText_group_and_group hw₁ hw₂
  refine ⟨es₁, es₂, _, ⟨hw₁, rfl⟩, ⟨hw₂, rfl⟩, Index.Grammar.ofText_eq_ok_iff.2 ⟨_, hw, rfl⟩,
    hits_eq_hits_filter_iff, forall_congr' fun record => ?_⟩
  have hany₁ := any_grouped c₁ es₁ record
  have hany₂ := any_grouped c₂ es₂ record
  rw [hg₁, List.any_append, List.any_cons, List.any_nil, Bool.or_false] at hany₁
  rw [hg₂, List.any_cons] at hany₂
  rw [Expr.holds_disjunction, Expr.holds_disjunction, Expr.holds_disjunction, ← hany₁, ← hany₂,
    List.any_append, List.any_cons, hg₁, hg₂, List.dropLast_concat, List.tail_cons]
  simp only [Expr.holds_conjunction, List.all_append]
  -- Four truth values are left: what is outside on both sides, and what the AND joins.
  generalize front.any (·.holds record) = outside₁
  generalize back.any (·.holds record) = outside₂
  generalize run₁.all (·.holds record) = last
  generalize run₂.all (·.holds record) = first
  revert outside₁ outside₂ last first
  decide

theorem and_groups_iff_stocked :
    ∃ e₁ e₂ e, Expr.ofText stocked.toText = .ok e₁ ∧ Expr.ofText "-id:2" = .ok e₂ ∧
      ((group stocked).andCriteria (group (raw "-id:2"))).toText =
        "(title:a OR title:b AND stocked:true) AND -id:2" ∧
      Expr.ofText "(title:a OR title:b AND stocked:true) AND -id:2" = .ok e ∧
      ∀ records, Index.hits records e [] = Index.hits records e₁ [e₂] := by
  obtain ⟨e₁, h₁⟩ := exists_ofText_stocked
  have h₂ : Expr.ofText (raw "-id:2").toText = .ok (.not _) := Plain.ofText_of_toText_eq
    (c := (start ⟨"id", by decide⟩).isNot (.int 2))
    (by decide) (by decide) (by decide)
  obtain ⟨es₁, es₂, e, -, ⟨-, hes₂⟩, he, hhits, hiff⟩ := and_groups_iff h₁ h₂
  have htail : (grouped (raw "-id:2") es₂).tail = [] := by
    rw [grouped, if_neg (by decide)]
    unfold disjunction at hes₂
    split at hes₂
    · rfl
    · cases hes₂
  refine ⟨e₁, _, e, h₁, h₂, by decide, he, hhits.2 (hiff.2 fun record => ?_)⟩
  rw [grouped, if_pos (by decide), htail]
  simp

/-- The AND takes the last alternative only, so that the record is found for its title alone. -/
theorem and_groups_splits_raw_text :
    ∃ e₁ e₂ e, Expr.ofText (raw "title:a OR title:b").toText = .ok e₁ ∧
      Expr.ofText (raw "id:2").toText = .ok e₂ ∧
      ((group (raw "title:a OR title:b")).andCriteria (group (raw "id:2"))).toText =
        "title:a OR title:b AND id:2" ∧
      Expr.ofText "title:a OR title:b AND id:2" = .ok e ∧
      e.holds [("id", .text "1"), ("title", .text "a")] = true ∧
      e₁.holds [("id", .text "1"), ("title", .text "a")] = true ∧
      e₂.holds [("id", .text "1"), ("title", .text "a")] = false := by
  have h₁ : Expr.ofText (raw "title:a OR title:b").toText = .ok _ := Plain.ofText_of_toText_eq
    (c := (((start ⟨"title", by decide⟩).is (.text "a")).orField ⟨"title", by decide⟩).is
      (.text "b"))
    (by decide) (by decide) (by decide)
  have h₂ : Expr.ofText (raw "id:2").toText = .ok _ := Plain.ofText_of_toText_eq
    (c := (start ⟨"id", by decide⟩).is (.int 2))
    (by decide) (by decide) (by decide)
  have he : Expr.ofText "title:a OR title:b AND id:2" = .ok _ := Plain.ofText_of_toText_eq
    (c := ((((start ⟨"title", by decide⟩).is (.text "a")).orField ⟨"title", by decide⟩).is
      (.text "b")).andField ⟨"id", by decide⟩ |>.is (.int 2))
    (by decide) (by decide) (by decide)
  exact ⟨_, _, _, h₁, h₂, by decide, he, by decide, by decide,
    by decide⟩

end And

end Criteria

end SearchMapper
