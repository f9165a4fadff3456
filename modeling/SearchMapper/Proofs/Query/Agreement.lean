import SearchMapper.Proofs.Query.FieldText

namespace SearchMapper.Plain

open Index (Expr)
open Index.Reading
open Criteria (alternatives chainExpr filled joined keptExprs linksAreEmpty linksText nodeExpr
  nodeIsEmpty nodeText?)

section Empty

theorem filled_eq_nil {links : List (Conjunction × Node)} :
    filled links = [] ↔ linksAreEmpty links = true := by
  rw [Criteria.linksAreEmpty_eq_all, filled, List.filter_eq_nil_iff, List.all_eq_true]
  simp

theorem nodeText?_of_isEmpty {node : Node} (h : nodeIsEmpty node = true) :
    nodeText? node = none := by
  cases node with
  | field node =>
    have hp : node.predicates = [] := List.isEmpty_iff.1 h
    simp [nodeText?, FieldNode.text?, FieldNode.predicatesText?, hp]
  | group links =>
    have hf : filled links = [] := filled_eq_nil.2 h
    simp [nodeText?, hf]

end Empty

section Links

theorem chainText_append (join join' : Conjunction) (front text : List Char)
    (rest : List (Conjunction × List Char)) :
    chainText ((join, front ++ text) :: rest) = front ++ chainText ((join', text) :: rest) := by
  cases rest with
  | nil => rfl
  | cons link rest => simp [chainText]

theorem joined_toList {out : String} (ho : out ≠ "") (join : Conjunction) (text : String) :
    (joined out join text).toList =
      out.toList ++ ' ' :: (join.word.toList ++ ' ' :: text.toList) := by
  simp [joined, ho]

/-- The links written so far stand in front of a chain like one more operand. -/
def Follows (links : List (Conjunction × Node)) (chain : Chain) : Prop :=
  (linksText "" links).toList = chain.text ∧
    ∀ out, out ≠ "" → ∀ join e,
      (linksText out links).toList = Chain.text ((join, out.toList, e) :: chain)

theorem Follows.cons {links : List (Conjunction × Node)} {chain : Chain} (h : Follows links chain)
    {node : Node} {text : String} (ht : nodeText? node = some text) (hne : text ≠ "")
    (join : Conjunction) (e : Expr) :
    Follows ((join, node) :: links) ((join, text.toList, e) :: chain) := by
  refine ⟨?_, fun out ho join' e' => ?_⟩
  · rw [linksText, ht]
    exact h.2 _ (by simpa [joined] using hne) join e
  · have hj := joined_toList ho join text
    have hjne : joined out join text ≠ "" := by
      intro he
      simp [he] at hj
    rw [linksText, ht]
    simp only
    rw [h.2 _ hjne join e, Chain.text, List.map_cons]
    simp only
    rw [hj]
    have hs : out.toList ++ ' ' :: (join.word.toList ++ ' ' :: text.toList) =
        (out.toList ++ ' ' :: (join.word.toList ++ [' '])) ++ text.toList := by
      simp
    rw [hs, chainText_append join join]
    simp [Chain.text, chainText]

theorem Follows.skip {links : List (Conjunction × Node)} {chain : Chain} (h : Follows links chain)
    {node : Node} (ht : nodeText? node = none) (join : Conjunction) :
    Follows ((join, node) :: links) chain := by
  refine ⟨?_, fun out ho join' e => ?_⟩
  · rw [linksText, ht]
    exact h.1
  · rw [linksText, ht]
    exact h.2 out ho join' e

theorem Operand.ne_empty {text : String} {e : Expr} (h : Operand text.toList e) : text ≠ "" := by
  rintro rfl
  obtain ⟨c, r, ht, -⟩ := h.starts
  simp at ht

end Links

mutual

theorem nodeText?_operand :
    ∀ node, isNode node = true → nodeIsEmpty node = false →
      ∃ text, nodeText? node = some text ∧ Operand text.toList (nodeExpr node)
  | .field node, h, hne => by
    refine operand_lowered h ?_
    simpa [nodeIsEmpty] using hne
  | .group links, h, hne => by
    obtain ⟨chain, hc, he, hl, ht, -⟩ := links_chain links h
    rw [nodeText?, nodeExpr, ← he]
    match hlen : (filled links).length with
    | 0 =>
      rw [List.length_eq_zero_iff, filled_eq_nil] at hlen
      simp [nodeIsEmpty, hlen] at hne
    | 1 =>
      rw [hlen] at hl
      obtain ⟨⟨join, text, e⟩, rfl⟩ := List.length_eq_one_iff.1 hl
      refine ⟨_, rfl, ?_⟩
      rw [ht]
      exact hc _ (List.mem_singleton_self _)
    | n + 2 =>
      have hne : chain ≠ [] := by
        rintro rfl
        simp [hlen] at hl
      refine ⟨_, rfl, ?_⟩
      have hp := chain.parenthesized hne hc
      rw [← ht] at hp
      simpa [chainExpr] using hp

theorem links_chain :
    ∀ links, areLinks links = true →
      ∃ chain : Chain, chain.Readable ∧ chain.exprs = keptExprs links ∧
        chain.length = (filled links).length ∧ Follows links chain
  | [], _ => ⟨[], by simp [Chain.Readable], rfl, rfl, rfl, fun out _ join e => rfl⟩
  | (join, node) :: links, h => by
    rw [areLinks, Bool.and_eq_true] at h
    obtain ⟨chain, hc, he, hl, hf⟩ := links_chain links h.2
    cases hempty : nodeIsEmpty node with
    | true =>
      refine ⟨chain, hc, ?_, ?_, hf.skip (nodeText?_of_isEmpty hempty) join⟩
      · rw [he, keptExprs, if_pos hempty]
      · rw [hl, filled, filled, List.filter_cons_of_neg (by simp [hempty])]
    | false =>
      obtain ⟨text, ht, ho⟩ := nodeText?_operand node h.1 hempty
      refine ⟨(join, text.toList, nodeExpr node) :: chain, ?_, ?_, ?_,
        hf.cons ht (Operand.ne_empty ho) join _⟩
      · intro link hm
        rcases List.mem_cons.1 hm with rfl | hm
        · exact ho
        · exact hc link hm
      · rw [keptExprs, if_neg (by simp [hempty]), ← he]
        rfl
      · rw [filled, List.filter_cons_of_pos (by simp [hempty]), List.length_cons, List.length_cons,
          hl, filled]

end

theorem ofText_toText {c : Criteria} (h : c.isPlain = true) (hne : c.isEmpty = false) :
    Expr.ofText c.toText = .ok c.toExpr := by
  obtain ⟨chain, hc, he, hl, ht, -⟩ := links_chain c.links h
  have hchain : chain ≠ [] := by
    rintro rfl
    rw [List.length_nil, eq_comm, List.length_eq_zero_iff, filled_eq_nil] at hl
    simp [Criteria.isEmpty, hl] at hne
  have htrim : Text.trimStart c.toText.toList = chain.text ++ [] := by
    obtain ⟨d, r, hd, hb⟩ := chain.text_starts hchain hc
    rw [Criteria.toText, ht, List.append_nil, hd]
    exact Text.trimStart_eq_self (by simpa using hb)
  have hr := chain.reads_anyOf c.toText.toList.length hchain hc htrim (by simp [ClosesChain])
  rw [he] at hr
  exact ofText_of_reads hr rfl

theorem ofText_of_toText_eq {c : Criteria} {text : String} (ht : c.toText = text)
    (h : c.isPlain = true) (hne : c.isEmpty = false) : Expr.ofText text = .ok c.toExpr :=
  ht ▸ ofText_toText h hne

end SearchMapper.Plain

namespace SearchMapper.Criteria

theorem exists_ofText_toText_holds {c : Criteria} (h : c.isPlain = true)
    (hne : c.isEmpty = false) :
    ∃ e, Index.Expr.ofText c.toText = .ok e ∧ ∀ record, e.holds record = c.holds record :=
  ⟨c.toExpr, Plain.ofText_toText h hne, fun record => c.holds_toExpr record⟩

/-- Two links carry nothing, and the last group holds a single field. -/
def shirts : Criteria :=
  ⟨[(.and, .field ⟨⟨"title", by decide⟩, [.is (.text "shirt"), .isNot (.text "red wool")],
      some (.finite false 10485760 (-22) (by decide))⟩),
    (.and, .field (.fresh ⟨"stock", by decide⟩)),
    (.or, .group [
      (.and, .field ⟨⟨"price", by decide⟩, [.between (.int 10) .null false true], none⟩),
      (.or, .group []),
      (.and, .field ⟨⟨"maker", by decide⟩, [.startsWith "ac"], none⟩)]),
    (.and, .group [(.or, .field ⟨⟨"size", by decide⟩,
      [.isNot (.text "xl"), .isNot (.text "xxl")], none⟩)])]⟩

theorem exists_ofText_toText_holds_shirts :
    shirts.isPlain = true ∧ shirts.isEmpty = false ∧
      shirts.toText =
        "title:(shirt -\"red wool\")^2.5 OR (price:\x7b10 TO *] AND maker:ac*) AND -size:(xl xxl)" ∧
      ∃ e, Index.Expr.ofText shirts.toText = .ok e ∧
        ∀ record, e.holds record = shirts.holds record :=
  have hp : shirts.isPlain = true := by decide
  have he : shirts.isEmpty = false := by decide
  ⟨hp, he, by decide, exists_ofText_toText_holds hp he⟩

end SearchMapper.Criteria
