import SearchMapper.Proofs.Query.Groups
import SearchMapper.Query.Basic

namespace SearchMapper

open Index (Expr)
open Index.Grammar (WholeText)
open Index.Reading (disjunction)

namespace Criteria

variable {c root : Criteria} {es : List Expr} {e f : Expr}

/-- Criteria that are appended keep their meaning, be it as a single node or as a group. -/
theorem exists_joinCriteria (h : WholeText c.toText.toList es) (front : Criteria)
    (join : Conjunction) :
    ∃ node text fs, front.joinCriteria join c = front.link join node ∧
      nodeText? node = some text ∧ WholeText text.toList fs ∧
      ∀ record, fs.any (·.holds record) = es.any (·.holds record) := by
  unfold joinCriteria
  split
  · next join' node hlinks =>
    have htext := toText_of_links_eq hlinks
    cases hnode : nodeText? node with
    | none => exact absurd (by rw [htext, hnode]; rfl) h.ne_empty
    | some text =>
      have htext' : c.toText = text := by
        rw [htext, hnode]
        rfl
      exact ⟨node, text, es, rfl, hnode, htext' ▸ h, fun _ => rfl⟩
  · obtain ⟨text, hnode, hwhole⟩ := exists_nodeText_group h
    exact ⟨.group c.links, text, c.grouped es, rfl, hnode, hwhole, any_grouped c es⟩

theorem exists_ofText_orCriteria (he : Expr.ofText root.toText = .ok e)
    (hf : Expr.ofText c.toText = .ok f) :
    ∃ e', Expr.ofText (root.orCriteria c).toText = .ok e' ∧
      ∀ record, e'.holds record = (e.holds record || f.holds record) := by
  obtain ⟨es, hes, rfl⟩ := Index.Grammar.ofText_eq_ok_iff.1 he
  obtain ⟨fs, hfs, rfl⟩ := Index.Grammar.ofText_eq_ok_iff.1 hf
  obtain ⟨node, text, fs', hlink, hnode, htext, hany⟩ := exists_joinCriteria hfs root .or
  have hwhole := hes.or htext
  rw [← Plain.joined_toList hes.ne_empty, ← toText_link hnode, ← hlink] at hwhole
  refine ⟨_, Index.Grammar.ofText_eq_ok_iff.2 ⟨_, hwhole, rfl⟩, fun record => ?_⟩
  rw [Expr.holds_disjunction, Expr.holds_disjunction, Expr.holds_disjunction, List.any_append,
    hany record]

theorem exists_ofText_group (he : Expr.ofText root.toText = .ok e) :
    ∃ e', Expr.ofText (group root).toText = .ok e' ∧
      ∀ record, e'.holds record = e.holds record := by
  obtain ⟨es, hes, rfl⟩ := Index.Grammar.ofText_eq_ok_iff.1 he
  refine ⟨_, Index.Grammar.ofText_eq_ok_iff.2 ⟨_, wholeText_group hes, rfl⟩, fun record => ?_⟩
  rw [Expr.holds_disjunction, Expr.holds_disjunction, any_grouped]

end Criteria

namespace Query

open Criteria

variable {q : Query} {root c : Criteria} {e f : Expr}

theorem exists_ofText_addCriteria (hroot : q.criteria = some root)
    (he : Expr.ofText root.toText = .ok e) (hf : Expr.ofText c.toText = .ok f) :
    ∃ root' e', (q.addCriteria c).criteria = some root' ∧ Expr.ofText root'.toText = .ok e' ∧
      ∀ record, e'.holds record = (e.holds record || f.holds record) := by
  simp only [addCriteria, hroot]
  split
  · obtain ⟨e₁, he₁, hsame⟩ := exists_ofText_group he
    obtain ⟨e', he', hor⟩ := exists_ofText_orCriteria he₁ hf
    exact ⟨_, e', rfl, he', fun record => by rw [hor, hsame]⟩
  · obtain ⟨e', he', hor⟩ := exists_ofText_orCriteria he hf
    exact ⟨_, e', rfl, he', hor⟩

/-- A query matches what its root matched at first, and what any of the criteria added to it
matches. -/
theorem exists_ofText_addCriteria_all {cs : List Criteria} {fs : List Expr}
    (hroot : q.criteria = some root) (he : Expr.ofText root.toText = .ok e)
    (hcs : List.Forall₂ (fun c f => Expr.ofText c.toText = .ok f) cs fs) :
    ∃ root' e', (cs.foldl addCriteria q).criteria = some root' ∧
      Expr.ofText root'.toText = .ok e' ∧
      ∀ record, e'.holds record = (e.holds record || fs.any (·.holds record)) := by
  induction hcs generalizing q root e with
  | nil => exact ⟨root, e, hroot, he, fun record => by simp⟩
  | cons hf _ ih =>
    obtain ⟨root₁, e₁, hroot₁, he₁, hor⟩ := exists_ofText_addCriteria hroot he hf
    obtain ⟨root', e', hroot', he', hany⟩ := ih hroot₁ he₁
    refine ⟨root', e', hroot', he', fun record => ?_⟩
    rw [hany, hor, List.any_cons, Bool.or_assoc]

theorem exists_ofText_addCriteria_all_stocked :
    ∃ e f₁ f₂ root' e', Expr.ofText stocked.toText = .ok e ∧
      Expr.ofText "id:2 AND -title:(x y)" = .ok f₁ ∧
      Expr.ofText "id:3 AND maker:\"le \\\"b\\\" c\"" = .ok f₂ ∧
      ([raw "id:2 AND -title:(x y)",
        ((raw "id:3").andField ⟨"maker", by decide⟩).is (.text "le \"b\" c")].foldl
          addCriteria (.ofCriteria stocked)).criteria = some root' ∧
      root'.toText = "((title:a OR title:b AND stocked:true) OR id:2 AND -title:(x y)) OR " ++
        "(id:3 AND maker:\"le \\\"b\\\" c\")" ∧
      Expr.ofText root'.toText = .ok e' ∧
      ∀ record, e'.holds record = (e.holds record || (f₁.holds record || f₂.holds record)) := by
  obtain ⟨e, he⟩ := exists_ofText_stocked
  have hf₁ : Expr.ofText (raw "id:2 AND -title:(x y)").toText = .ok _ := Plain.ofText_of_toText_eq
    (c := (((start ⟨"id", by decide⟩).is (.int 2)).andField ⟨"title", by decide⟩).isNot (.text "x")
      |>.isNot (.text "y"))
    (by decide) (by decide) (by decide)
  have hf₂ : Expr.ofText (((raw "id:3").andField ⟨"maker", by decide⟩).is
      (.text "le \"b\" c")).toText = .ok _ := Plain.ofText_of_toText_eq
    (c := (((start ⟨"id", by decide⟩).is (.int 3)).andField ⟨"maker", by decide⟩).is
      (.text "le \"b\" c"))
    (by decide) (by decide) (by decide)
  obtain ⟨root', e', hroot', he', hany⟩ := exists_ofText_addCriteria_all
    (q := .ofCriteria stocked) rfl he (.cons hf₁ (.cons hf₂ .nil))
  have htext : root'.toText =
      "((title:a OR title:b AND stocked:true) OR id:2 AND -title:(x y)) OR " ++
        "(id:3 AND maker:\"le \\\"b\\\" c\")" := by
    rw [← Option.some.inj hroot']
    decide
  refine ⟨e, _, _, root', e', he, hf₁, hf₂, hroot', htext, he', fun record => ?_⟩
  rw [hany, List.any_cons, List.any_cons, List.any_nil, Bool.or_false]

end Query

end SearchMapper
