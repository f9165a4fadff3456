import SearchMapper.Proofs.Index.Grammar
import SearchMapper.Proofs.Query.Members

namespace SearchMapper

open Index (Expr FieldTest Test)
open Text (trimStart)

namespace Plain

open Index.Grammar Index.Reading

variable {name s : String} {tail : List Char} {asked : FieldTest}

theorem term_of_isQuoted (h : isQuoted s = true) : (Value.text s).term = Value.quoted s := by
  have hcases : s = "" ∨ Text.hasBlank s = true := by simpa [isQuoted] using h
  apply if_pos
  exact hcases.elim .inl fun hb => .inr (.inl hb)

theorem exists_askedText_of_ofText {query field : String} (hne : name ≠ "")
    (hname : isName name = true) (hq : query.toList = name.toList ++ ':' :: tail)
    (h : Expr.ofText query = .ok (.field field asked)) : ∃ rest, AskedText tail asked rest := by
  obtain ⟨c, r, hc, hb, hm, hp⟩ := isName_starts (isBlankText_eq_false hne hname) hname
  simp only [isName, Bool.and_eq_true, decide_eq_true_eq, List.all_eq_true] at hname
  have htrim : trimStart query.toList = name.toList ++ ':' :: tail := by
    rw [hq, hc]
    exact Text.trimStart_eq_self (by simpa using hb)
  have hspan : Text.span (fun c => !endsField c) (name.toList ++ ':' :: tail) =
      (name.toList, ':' :: tail) := Text.span_append hname.2 (by simp; decide)
  obtain ⟨rest, hsigned⟩ := exists_signedText_of_ofText h
  have hprimary := hsigned.primaryText (by rw [htrim, hc]; simpa using hm)
  have hfield := hprimary.fieldText (by rw [htrim, hc]; simpa using hp)
  cases hfield with
  | field _ _ hs hasked =>
    rw [htrim, hspan, Prod.mk.injEq] at hs
    rw [(List.cons.inj hs.2).2]
    exact ⟨rest, hasked⟩

end Plain

namespace Criteria

open Index.Grammar Index.Reading

variable {name s : String} {field : Field}

theorem ofText_is_of_isTerm {v : Value} (hname : Plain.isName field.name = true)
    (hv : Plain.isTerm ['('] v = true) :
    Expr.ofText ((start field).push (.is v)).toText =
      .ok (.field field.name (.one (.exact v.toText))) := by
  obtain ⟨text, ht, ho⟩ := @Plain.operand_single ⟨field, [.is v], none⟩ _ hname rfl rfl hv
  exact Plain.ofText_of_operand ht ho

theorem text?_of_isExclusion_eq_false {p : Predicate} (hname : Plain.isName field.name = true)
    (hp : p.isExclusion = false) :
    (FieldNode.mk field [p] none).text? = some (field.name ++ ":" ++ Plain.body p) := by
  have ht := @Plain.predicatesText?_one ⟨field, [p], none⟩ _ rfl
  rw [Plain.qualifier_eq hname, if_neg (by simp [hp])] at ht
  simp [FieldNode.text?, ht, FieldNode.boostText]

theorem toText_push_start {p : Predicate} (hname : Plain.isName field.name = true)
    (hp : p.isExclusion = false) :
    ((start field).push p).toText.toList = field.name.toList ++ ':' :: (Plain.body p).toList := by
  have htext : ((start field).push p).toText = field.name ++ ":" ++ Plain.body p :=
    Plain.toText_field (text?_of_isExclusion_eq_false hname hp)
  simp [htext]

theorem toText_is_of_isQuoted (hname : Plain.isName field.name = true)
    (hs : Plain.isQuoted s = true) :
    ((start field).is (.text s)).toText.toList =
      field.name.toList ++ ':' :: '"' :: (escaped s.toList ++ ['"']) := by
  have ht := @toText_push_start field (.is (.text s)) hname rfl
  have hbody : Plain.body (.is (.text s)) = Value.quoted s := Plain.term_of_isQuoted hs
  rwa [hbody, Plain.quoted_toList] at ht

theorem ofText_is_of_phrase? {read : List Char} (hname : Plain.isName field.name = true)
    (hs : Plain.isQuoted s = true)
    (h : ∀ rest, phrase? (escaped s.toList ++ '"' :: rest) = some (read, rest)) :
    Expr.ofText ((start field).is (.text s)).toText =
      .ok (.field field.name (.one (.exact (String.ofList read)))) := by
  have hasked := @Plain.readsAs_quoted ['('] _ (by simp [Plain.Bars]) s h
  have ho := @Plain.operand_one ⟨field, [.is (.text s)], none⟩ false hname rfl _ _ hasked
  have ht := @text?_of_isExclusion_eq_false field (.is (.text s)) hname rfl
  have hbody : Plain.body (.is (.text s)) = Value.quoted s := Plain.term_of_isQuoted hs
  apply Plain.ofText_of_operand ht
  simpa [FieldNode.boostText, hbody] using ho

theorem backslash_notMem_of_ofText_is (hname : Plain.isName field.name = true)
    (hs : Plain.isQuoted s = true)
    (h : Expr.ofText ((start field).is (.text s)).toText =
      .ok (.field field.name (.one (.exact s)))) : '\\' ∉ s.toList := by
  intro hm
  have hne : field.name ≠ "" := fun he => absurd field.visible (by rw [he]; decide)
  obtain ⟨rest, hasked⟩ :=
    Plain.exists_askedText_of_ofText hne hname (toText_is_of_isQuoted hname hs) h
  obtain ⟨text, rest', hphrase, he⟩ := exists_phrase_of_valueText hasked.valueText
  have htext : s.toList = text := by
    rw [Test.exact.injEq] at he
    rw [he, String.toList_ofList]
  have hlt := (length_of_phrase?_escaped hphrase).2 hm
  rw [htext] at hlt
  exact Nat.lt_irrefl _ hlt

/-- A term that is put in quotes is what its field is asked for just when no backslash stands in
it. -/
theorem ofText_is_quoted_iff (hne : name ≠ "") (hname : Plain.isName name = true)
    (hs : Plain.isQuoted s = true) :
    ∃ c, (onField name).map (·.is (.text s)) = .ok c ∧
      (Expr.ofText c.toText = .ok (.field name (.one (.exact s))) ↔ '\\' ∉ s.toList) := by
  have hvisible := Plain.isBlankText_eq_false hne hname
  refine ⟨(start ⟨name, hvisible⟩).is (.text s), ?_, ?_, ?_⟩
  · rw [onField_eq hvisible]
    rfl
  · exact backslash_notMem_of_ofText_is hname hs
  · intro hm
    have hread := @ofText_is_of_phrase? _ ⟨name, hvisible⟩ _ hname hs (phrase?_escaped hm)
    rwa [String.ofList_toList] at hread

theorem ofText_is_quoted_iff_shirt :
    ∃ c, (onField "title").map (·.is (.text "red \"wool\" shirt")) = .ok c ∧
      Expr.ofText c.toText = .ok (.field "title" (.one (.exact "red \"wool\" shirt"))) := by
  have hname : Plain.isName "title" = true := by decide
  have hs : Plain.isQuoted "red \"wool\" shirt" = true := by decide
  obtain ⟨c, hc, hiff⟩ := ofText_is_quoted_iff (by decide) hname hs
  exact ⟨c, hc, hiff.2 (by decide)⟩

/-- The text is `title:"a \b"`, which asks the field for `a b`. -/
theorem ofText_is_drops_backslash :
    Plain.isName "title" = true ∧ Plain.isQuoted "a \\b" = true ∧
      ∃ c, (onField "title").map (·.is (.text "a \\b")) = .ok c ∧
        c.toText = "title:\"a \\b\"" ∧
        Expr.ofText c.toText = .ok (.field "title" (.one (.exact "a b"))) ∧
        (Test.exact "a b").holds ["a \\b"] = false := by
  have hname : Plain.isName "title" = true := by decide
  have hs : Plain.isQuoted "a \\b" = true := by decide
  have hread := @ofText_is_of_phrase? "a \\b" ⟨"title", by decide⟩ ['a', ' ', 'b'] hname
    hs fun rest => rfl
  exact ⟨hname, hs, _, rfl, by decide, hread, by decide⟩

end Criteria

end SearchMapper
