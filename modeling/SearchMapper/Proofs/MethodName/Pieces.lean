import Mathlib
import SearchMapper.Proofs.MethodName.Wording

namespace SearchMapper

namespace MethodName

open Text

/-- The word stands in the text with a capital behind it. -/
def Divides (word s : List Char) : Prop :=
  ∃ front rest, s = front ++ (word ++ rest) ∧ startsUpper rest = true

theorem divides_cons {word s : List Char} {c : Char} : Divides word (c :: s) ↔
    (∃ rest, c :: s = word ++ rest ∧ startsUpper rest = true) ∨ Divides word s := by
  constructor
  · rintro ⟨front, rest, hs, hrest⟩
    cases front with
    | nil => exact .inl ⟨rest, hs, hrest⟩
    | cons d front => exact .inr ⟨front, rest, (List.cons.inj hs).2, hrest⟩
  · rintro (⟨rest, hs, hrest⟩ | ⟨front, rest, rfl, hrest⟩)
    · exact ⟨[], rest, hs, hrest⟩
    · exact ⟨c :: front, rest, rfl, hrest⟩

theorem Divides.of_infix {word s t : List Char} (h : Divides word s) (hst : s <:+: t) :
    Divides word t := by
  obtain ⟨front, rest, rfl, hrest⟩ := h
  obtain ⟨before, behind, rfl⟩ := hst
  exact ⟨before ++ front, rest ++ behind, by simp, startsUpper_append hrest _⟩

section Cuts

variable {k c : Char} {ks p s rest separator : List Char} {pieces : List (List Char)}

theorem intercalate_nil_cons (hne : pieces ≠ []) :
    separator.intercalate ([] :: pieces) = separator ++ separator.intercalate pieces := by
  obtain ⟨p, pieces, rfl⟩ := List.exists_cons_of_ne_nil hne
  rw [List.intercalate_cons_cons, List.nil_append]

theorem intercalate_extend (c : Char) (pieces : List (List Char)) :
    separator.intercalate (extend c pieces) = c :: separator.intercalate pieces := by
  match pieces with
  | [] => simp [extend]
  | [p] => simp [extend]
  | p :: q :: pieces => simp [extend, List.intercalate_cons_cons]

theorem isPrefix_intercalate (p : List Char) (pieces : List (List Char)) :
    p <+: separator.intercalate (p :: pieces) := by
  cases pieces with
  | nil => simp
  | cons q pieces => simp [List.intercalate_cons_cons]

theorem isInfix_intercalate (h : p ∈ pieces) : p <:+: separator.intercalate pieces := by
  induction pieces with
  | nil => cases h
  | cons q pieces ih =>
    obtain rfl | hm := List.mem_cons.1 h
    · exact (isPrefix_intercalate p pieces).isInfix
    · obtain ⟨r, pieces, rfl⟩ := List.exists_cons_of_ne_nil (List.ne_nil_of_mem hm)
      rw [List.intercalate_cons_cons]
      exact (ih hm).trans (List.suffix_append _ _).isInfix

theorem dite_after? (k c : Char) (ks s : List Char) :
    (if _ : c = k then after? ks s else none) = after? (k :: ks) (c :: s) := by
  simp [after?, eq_comm]

theorem cutAtWord_ne_nil (k : Char) (ks s : List Char) : cutAtWord k ks s ≠ [] := by
  have hextend (c : Char) (pieces : List (List Char)) : extend c pieces ≠ [] := by
    cases pieces <;> simp [extend]
  cases s with
  | nil => simp [cutAtWord]
  | cons c s =>
    rw [cutAtWord]
    split
    · exact hextend _ _
    · split
      · simp
      · exact hextend _ _

theorem intercalate_cutAtWord (k : Char) (ks s : List Char) :
    (k :: ks).intercalate (cutAtWord k ks s) = s := by
  fun_induction cutAtWord k ks s with
  | case1 => rfl
  | case2 c s _ ih => rw [intercalate_extend, ih]
  | case3 c s rest h _ _ ih =>
    rw [dite_after?] at h
    rw [intercalate_nil_cons (cutAtWord_ne_nil k ks rest), ih, eq_append_of_after? h]
  | case4 c s rest _ _ _ ih => rw [intercalate_extend, ih]

theorem not_divides_of_mem_extend
    (hcut : ∀ rest, c :: s = k :: ks ++ rest → startsUpper rest = false)
    (ih : ∀ p ∈ cutAtWord k ks s, ¬Divides (k :: ks) p)
    (hp : p ∈ extend c (cutAtWord k ks s)) : ¬Divides (k :: ks) p := by
  obtain ⟨q, pieces, hpieces⟩ := List.exists_cons_of_ne_nil (cutAtWord_ne_nil k ks s)
  rw [hpieces] at ih hp
  obtain rfl | hm := List.mem_cons.1 hp
  · rw [divides_cons, not_or]
    refine ⟨?_, ih q List.mem_cons_self⟩
    rintro ⟨rest, hq, hrest⟩
    obtain ⟨t, ht⟩ : q <+: s := by
      rw [← intercalate_cutAtWord k ks s, hpieces]
      exact isPrefix_intercalate q pieces
    have hs : c :: s = k :: ks ++ (rest ++ t) := by
      rw [← ht, ← List.cons_append, hq, List.append_assoc]
    exact absurd (startsUpper_append hrest t) (by simp [hcut _ hs])
  · exact ih p (List.mem_cons_of_mem q hm)

theorem not_divides_of_mem_cutAtWord (hp : p ∈ cutAtWord k ks s) : ¬Divides (k :: ks) p := by
  fun_induction cutAtWord k ks s generalizing p with
  | case1 =>
    obtain rfl := List.mem_singleton.1 hp
    rintro ⟨front, rest, hs, -⟩
    simp at hs
  | case2 c s h ih =>
    rw [dite_after?] at h
    refine not_divides_of_mem_extend (fun rest hs => ?_) (fun _ => ih) hp
    rw [hs, after?_append] at h
    cases h
  | case3 c s rest _ _ _ ih =>
    obtain rfl | hm := List.mem_cons.1 hp
    · rintro ⟨front, rest, hs, -⟩
      simp at hs
    · exact ih hm
  | case4 c s rest h _ hrest ih =>
    rw [dite_after?] at h
    refine not_divides_of_mem_extend (fun rest' hs => ?_) (fun _ => ih) hp
    rw [hs, after?_append, Option.some.injEq] at h
    simpa [h] using hrest

end Cuts

section Subjects

variable {subject : Subject} {name rest : List Char}

theorem exists_word_of_subjectOf? {table : List (String × Subject)}
    (h : subjectOf? name table = some (subject, rest)) :
    ∃ word, (word, subject) ∈ table ∧ name = word.toList ++ rest ∧ WordEnd rest := by
  induction table with
  | nil => cases h
  | cons first table ih =>
    have hlater (h : subjectOf? name table = some (subject, rest)) :
        ∃ word, (word, subject) ∈ first :: table ∧ name = word.toList ++ rest ∧ WordEnd rest := by
      obtain ⟨word, hm, hword⟩ := ih h
      exact ⟨word, List.mem_cons_of_mem first hm, hword⟩
    rw [subjectOf?] at h
    split at h
    · next behind hafter =>
      split at h
      · next hend =>
        cases h
        exact ⟨first.1, List.mem_cons_self, eq_append_of_after? hafter, hend⟩
      · exact hlater h
    · exact hlater h

end Subjects

namespace Keyword

variable {suffix : String} {raw stem : List Char} {keyword : Keyword}
  {table : List (String × Keyword)}

theorem stem?_eq_some_iff :
    stem? suffix raw = some stem ↔ raw = stem ++ suffix.toList ∧ stem ≠ [] := by
  rw [stem?, Option.filter_eq_some_iff, Text.before?_eq_some_iff, decide_eq_true_eq]

theorem stem?_eq_none (h : longest? raw table = none) :
    ∀ entry ∈ table, stem? entry.1 raw = none := by
  induction table with
  | nil => simp
  | cons first table ih =>
    rw [longest?] at h
    split at h
    · next hfirst => exact List.forall_mem_cons.2 ⟨hfirst, ih h⟩
    · cases h
    · split at h <;> cases h

theorem longest?_eq_some (h : longest? raw table = some (stem, keyword)) :
    (∃ suffix, (suffix, keyword) ∈ table ∧ stem? suffix raw = some stem) ∧
      ∀ entry ∈ table, ∀ other, stem? entry.1 raw = some other → stem.length ≤ other.length := by
  induction table generalizing stem keyword with
  | nil => cases h
  | cons first table ih =>
    obtain ⟨suffix, word⟩ := first
    rw [longest?] at h
    split at h
    · next hfirst =>
      obtain ⟨⟨suffix', hm, hstem⟩, hleast⟩ := ih h
      refine ⟨⟨suffix', List.mem_cons_of_mem _ hm, hstem⟩, List.forall_mem_cons.2 ⟨?_, hleast⟩⟩
      simp [hfirst]
    · next hfirst hnone =>
      cases h
      refine ⟨⟨suffix, List.mem_cons_self, hfirst⟩, List.forall_mem_cons.2 ⟨?_, ?_⟩⟩
      · simp [hfirst]
      · simp +contextual [stem?_eq_none hnone]
    · next stem' stem'' keyword'' hfirst hrest =>
      obtain ⟨⟨suffix'', hm, hstem⟩, hleast⟩ := ih hrest
      split at h
      · next hlt =>
        cases h
        refine ⟨⟨suffix, List.mem_cons_self, hfirst⟩, List.forall_mem_cons.2 ⟨?_, ?_⟩⟩
        · simp [hfirst]
        · exact fun entry he other ho => hlt.le.trans (hleast entry he other ho)
      · next hlt =>
        cases h
        refine ⟨⟨suffix'', List.mem_cons_of_mem _ hm, hstem⟩,
          List.forall_mem_cons.2 ⟨?_, hleast⟩⟩
        simpa [hfirst] using hlt

theorem detect_cases (raw : List Char) :
    (∃ suffix, (suffix, (detect raw).2) ∈ suffixes ∧ stem? suffix raw = some (detect raw).1 ∧
      ∀ entry ∈ suffixes, ∀ other, stem? entry.1 raw = some other →
        entry.1.length ≤ suffix.length) ∨
    (detect raw = (raw, simpleProperty) ∧ ∀ entry ∈ suffixes, stem? entry.1 raw = none) := by
  rw [detect]
  cases h : longest? raw suffixes with
  | none => exact .inr ⟨rfl, stem?_eq_none h⟩
  | some found =>
    obtain ⟨⟨suffix, hm, hstem⟩, hleast⟩ := longest?_eq_some h
    refine .inl ⟨suffix, hm, hstem, fun entry he other ho => ?_⟩
    have hlength := congrArg List.length (stem?_eq_some_iff.1 hstem).1
    have hlength' := congrArg List.length (stem?_eq_some_iff.1 ho).1
    have hle := hleast entry he other ho
    simp only [List.length_append, String.length_toList] at hlength hlength'
    omega

end Keyword

namespace Condition

/-- The text of a condition is its source and the longest suffix with something in front of it, or
its source alone where there is none. No word that parts conditions or clauses stands in it. -/
@[mk_iff]
structure Splits (part : Condition) : Prop where
  raw_ne_empty : part.raw ≠ ""
  source_ne_empty : part.source ≠ ""
  keyword :
    (∃ suffix, (suffix, part.keyword) ∈ Keyword.suffixes ∧ part.raw = part.source ++ suffix ∧
      ∀ entry ∈ Keyword.suffixes, ∀ stem, part.raw = stem ++ entry.1 → stem ≠ "" →
        entry.1.length ≤ suffix.length) ∨
    (part.raw = part.source ∧ part.keyword = .simpleProperty ∧
      ∀ entry ∈ Keyword.suffixes, ∀ stem, part.raw = stem ++ entry.1 → stem = "")
  noAnd : ¬Divides "And".toList part.raw.toList
  noOr : ¬Divides "Or".toList part.raw.toList

end Condition

section Clauses

variable {raw predicate : List Char} {text : String} {part : Condition} {clause : List Condition}
  {clauses : List (List Condition)}

theorem condition_eq_ok_iff :
    condition raw = .ok part ↔ raw ≠ [] ∧ part = conditionOf (String.ofList raw) := by
  by_cases hraw : raw = []
  · simp [condition, hraw]
  · have hpart := @condition_toList (String.ofList raw) (by simpa using hraw)
    rw [String.toList_ofList] at hpart
    rw [hpart, Except.ok.injEq]
    simp [hraw, eq_comm]

theorem splits_conditionOf (hne : text ≠ "") (hand : ¬Divides "And".toList text.toList)
    (hor : ¬Divides "Or".toList text.toList) : (conditionOf text).Splits := by
  have hstem {stem : String} {entry : String × Keyword} (h : text = stem ++ entry.1)
      (hs : stem ≠ "") : Keyword.stem? entry.1 text.toList = some stem.toList := by
    rw [Keyword.stem?_eq_some_iff, h]
    exact ⟨String.toList_append, by simpa using hs⟩
  obtain ⟨suffix, hm, hsome, hlongest⟩ | ⟨hwhole, hnone⟩ := Keyword.detect_cases text.toList
  · obtain ⟨hraw, hsource⟩ := Keyword.stem?_eq_some_iff.1 hsome
    refine ⟨hne, by simpa [conditionOf] using hsource, .inl ⟨suffix, hm, ?_, ?_⟩, hand, hor⟩
    · simpa [conditionOf, ← String.toList_inj] using hraw
    · exact fun entry he stem h hs => hlongest entry he _ (hstem h hs)
  · refine ⟨hne, by simpa [conditionOf, hwhole] using hne, .inr ⟨?_, ?_, ?_⟩, hand, hor⟩
    · simp [conditionOf, hwhole]
    · simp [conditionOf, hwhole]
    · intro entry he stem h
      by_contra hs
      have hsome := hstem h hs
      rw [hnone entry he] at hsome
      cases hsome

theorem mapM_condition_eq_ok {pieces : List (List Char)}
    (h : pieces.mapM condition = .ok clause) :
    pieces = clause.map fun part => part.raw.toList := by
  rw [mapM_eq_ok_iff] at h
  rw [← List.forall₂_eq_eq_eq, List.forall₂_map_right_iff]
  refine h.imp fun raw part hpart => ?_
  rw [(condition_eq_ok_iff.1 hpart).2, conditionOf, String.toList_ofList]

theorem intercalate_clause (h : (cutAtWord 'A' ['n', 'd'] raw).mapM condition = .ok clause) :
    "And".intercalate (clause.map Condition.raw) = String.ofList raw := by
  have hpieces := mapM_condition_eq_ok h
  have hraw : (String.ofList raw).toList = raw := String.toList_ofList
  rw [← String.toList_inj, String.toList_intercalate, List.map_map, hraw]
  exact (congrArg _ hpieces.symm).trans (intercalate_cutAtWord 'A' ['n', 'd'] raw)

theorem splits_of_clause (h : (cutAtWord 'A' ['n', 'd'] raw).mapM condition = .ok clause)
    (hor : ¬Divides "Or".toList raw) : ∀ part ∈ clause, part.Splits := by
  intro part hpart
  obtain ⟨piece, hm, hpiece⟩ := exists_of_mapM_mem h hpart
  obtain ⟨hne, rfl⟩ := condition_eq_ok_iff.1 hpiece
  have hin : piece <:+: raw := by
    rw [← intercalate_cutAtWord 'A' ['n', 'd'] raw]
    exact isInfix_intercalate hm
  have htext : (String.ofList piece).toList = piece := String.toList_ofList
  refine splits_conditionOf (by simpa using hne) ?_ ?_
  · rw [htext]
    exact not_divides_of_mem_cutAtWord hm
  · rw [htext]
    exact fun hd => hor (hd.of_infix hin)

theorem clausesOf_ne_nil (h : clausesOf predicate = .ok clauses) :
    ∀ clause ∈ clauses, clause ≠ [] := by
  unfold clausesOf at h
  split at h
  · obtain rfl := Except.ok.inj h
    simp
  · intro clause hm
    obtain ⟨piece, -, hp⟩ := exists_of_mapM_mem h hm
    rintro rfl
    have hlen := (mapM_eq_ok_iff.1 hp).length_eq
    exact cutAtWord_ne_nil _ _ _ (List.length_eq_zero_iff.1 hlen)

theorem predicate_of_clausesOf (h : clausesOf predicate = .ok clauses) :
    Wording.predicate (clauses.map (·.map Condition.raw)) = String.ofList predicate ∧
      ∀ part ∈ clauses.flatten, part.Splits := by
  rw [clausesOf] at h
  split at h
  · next hnil =>
    cases h
    simp [hnil, Wording.predicate]
  · rw [mapM_eq_ok_iff] at h
    constructor
    · have hpieces : (clauses.map (·.map Condition.raw)).map "And".intercalate =
          (cutAtWord 'O' ['r'] predicate).map String.ofList := by
        rw [List.map_map, ← List.forall₂_eq_eq_eq, List.forall₂_map_left_iff,
          List.forall₂_map_right_iff]
        exact h.flip.imp fun _ _ => intercalate_clause
      rw [Wording.predicate, hpieces, ← String.toList_inj, String.toList_intercalate, List.map_map]
      simpa [Function.comp_def] using intercalate_cutAtWord 'O' ['r'] predicate
    · intro part hpart
      obtain ⟨clause, hclause, hm⟩ := List.mem_flatten.1 hpart
      obtain ⟨piece, hpiece, hread⟩ := exists_of_forall₂_mem h hclause
      exact splits_of_clause hread (not_divides_of_mem_cutAtWord hpiece) part hm

end Clauses

section Orders

variable {front s rest : List Char} {d : Direction}

theorem eq_append_of_direction? (h : direction? s = some (d, rest)) :
    s = (directionWord d).toList ++ rest ∧ WordEnd rest := by
  have hword {word : List Char} {d' : Direction}
      (h : ((after? word s).bind fun rest =>
        if rest = [] ∨ startsUpper rest then some (d', rest) else none) = some (d, rest)) :
      (s = word ++ rest ∧ WordEnd rest) ∧ d' = d := by
    obtain ⟨back, hafter, hback⟩ := Option.bind_eq_some_iff.1 h
    split at hback
    · next hend =>
      cases hback
      exact ⟨⟨eq_append_of_after? hafter, hend⟩, rfl⟩
    · cases hback
  rw [direction?, Option.or_eq_some_iff] at h
  obtain h | ⟨-, h⟩ := h
  · obtain ⟨hs, rfl⟩ := hword h
    exact hs
  · obtain ⟨hs, rfl⟩ := hword h
    exact hs

theorem exists_orderClause (front s : List Char) :
    ∃ keys last, ordersFrom front s = keys ++ (last.map (⟨·, .asc⟩)).toList ∧
      front.reverse ++ s = (Wording.orderClause last keys).toList ∧
      ∀ key ∈ ordersFrom front s, key.source ≠ "" := by
  induction front, s using ordersFrom.induct with
  | case1 => exact ⟨[], none, by simp [ordersFrom], by simp [Wording.orderClause],
      by simp [ordersFrom]⟩
  | case2 front hne =>
    have hkeys : ordersFrom front [] = [⟨String.ofList front.reverse, .asc⟩] := by
      rw [ordersFrom, if_neg hne]
    refine ⟨[], some (String.ofList front.reverse), hkeys, by simp [Wording.orderClause], ?_⟩
    simpa [hkeys] using hne
  | case3 c s _ _ _ _ ih =>
    rw [ordersFrom_nil_cons]
    exact ih
  | case4 front c s d rest h _ hne ih =>
    obtain ⟨keys, last, hkeys, htext, hsources⟩ := ih
    obtain ⟨hs, hend⟩ := eq_append_of_direction? h
    rw [hs, ordersFrom_word d hend hne]
    refine ⟨⟨String.ofList front.reverse, d⟩ :: keys, last, by rw [hkeys]; rfl, ?_, ?_⟩
    · simp [Wording.orderClause, ← htext]
    · exact List.forall_mem_cons.2 ⟨by simpa using hne, hsources⟩
  | case5 front c s h ih =>
    rw [ordersFrom_of_none h]
    simpa using ih

theorem orderClause_of_ordersOf {name : String} {clause : Option (List Char)}
    {orders : List OrderKey} (h : ordersOf name clause = .ok orders) :
    (clause = none ∧ orders = [] ∨ ∃ keys last, orders = keys ++ (last.map (⟨·, .asc⟩)).toList ∧
      clause = some (Wording.orderClause last keys).toList) ∧ ∀ key ∈ orders, key.source ≠ "" := by
  cases clause with
  | none =>
    cases h
    exact ⟨.inl ⟨rfl, rfl⟩, by simp⟩
  | some clause =>
    obtain ⟨keys, last, hkeys, htext, hsources⟩ := exists_orderClause [] clause
    have horders : ordersFrom [] clause = orders := by
      rw [ordersOf] at h
      split at h
      · cases h
      · exact Except.ok.inj h
    rw [horders] at hkeys hsources
    exact ⟨.inr ⟨keys, last, hkeys, congrArg some htext⟩, hsources⟩

end Orders

section Limits

theorem pos_of_limitOf {rest : List Char} {n : Nat} (h : limitOf rest = .ok n) : 0 < n := by
  unfold limitOf at h
  split at h
  · cases h
    decide
  · split at h
    · cases h
    · cases h
    · next hne _ =>
      cases h
      exact Nat.pos_of_ne_zero fun hzero => hne (hzero ▸ rfl)

theorem pos_of_limitIn {modifiers : List Char} {n : Nat} (h : limitIn modifiers = .ok (some n)) :
    0 < n := by
  have hpos {rest : List Char} (h : some <$> limitOf rest = .ok (some n)) : 0 < n := by
    obtain ⟨limit, hlimit, heq⟩ := map_eq_ok_iff.1 h
    cases heq
    exact pos_of_limitOf hlimit
  unfold limitIn at h
  split at h
  · exact hpos h
  · exact hpos h
  · cases h

end Limits

section Names

variable {name : String} {m : MethodName}

theorem eq_append_of_cutOr {word : String} {s front : List Char} {back : Option (List Char)}
    (hne : word ≠ "") (h : cutOr word s = (front, back)) :
    s = front ++ (back.map (word.toList ++ ·)).getD [] ∧ ¬word.toList <:+: front := by
  rw [cutOr] at h
  split at h
  · next hcut =>
    cases h
    exact ⟨eq_append_of_cut? hcut, not_infix_of_cut? (by simpa using hne) hcut⟩
  · next hcut =>
    cases h
    exact ⟨by simp, cut?_eq_none_iff.1 hcut⟩

theorem exists_readings_of_ofText (h : ofText name = .ok m) :
    ∃ rest head modifiers predicate orderClause,
      subjectOf? name.toList subjects = some (m.subject, rest) ∧
      cutOr "OrderBy" rest = (head, orderClause) ∧ cutOr "By" head = (modifiers, predicate) ∧
      clausesOf (predicate.getD []) = .ok m.clauses ∧ ordersOf name orderClause = .ok m.orders ∧
      limitIn modifiers = .ok m.limit ∧ m.text = name := by
  unfold ofText at h
  split at h
  · cases h
  · next subject rest hsubject =>
    obtain ⟨clauses, hclauses, h⟩ := exists_of_bind_eq_ok h
    obtain ⟨orders, horders, h⟩ := exists_of_bind_eq_ok h
    obtain ⟨limit, hlimit, h⟩ := exists_of_bind_eq_ok h
    obtain rfl := Except.ok.inj h
    exact ⟨_, _, _, _, _, hsubject, rfl, rfl, hclauses, horders, hlimit, rfl⟩

theorem exists_cuts_of_ofText (h : ofText name = .ok m) :
    ∃ predicate orderClause modifiers, m.text = name ∧ clausesOf predicate = .ok m.clauses ∧
      ordersOf name orderClause = .ok m.orders ∧ limitIn modifiers = .ok m.limit := by
  obtain ⟨_, _, _, _, _, -, -, -, hclauses, horders, hlimit, htext⟩ := exists_readings_of_ofText h
  exact ⟨_, _, _, htext, hclauses, horders, hlimit⟩

theorem clause_ne_nil (h : ofText name = .ok m) : ∀ clause ∈ m.clauses, clause ≠ [] := by
  obtain ⟨_, _, _, -, hclauses, -, -⟩ := exists_cuts_of_ofText h
  exact clausesOf_ne_nil hclauses

theorem limit_pos (h : ofText name = .ok m) : ∀ limit, m.limit = some limit → 0 < limit := by
  obtain ⟨_, _, _, -, -, -, hlimit⟩ := exists_cuts_of_ofText h
  intro limit he
  exact pos_of_limitIn (he ▸ hlimit)

/-- The text says the clauses behind `By`. Without `By` there are none. -/
def SaysClauses (text : String) (clauses : List (List Condition)) : Prop :=
  text = "" ∧ clauses = [] ∨
    text = "By" ++ Wording.predicate (clauses.map (·.map Condition.raw))

/-- The text says the sort keys behind `OrderBy`. Without `OrderBy` there are none. -/
def SaysOrders (text : String) (orders : List OrderKey) : Prop :=
  text = "" ∧ orders = [] ∨ ∃ keys last, orders = keys ++ (last.map (⟨·, .asc⟩)).toList ∧
    text = "OrderBy" ++ Wording.orderClause last keys

theorem exists_says_of_clausesOf {predicate : Option (List Char)} {clauses : List (List Condition)}
    (h : clausesOf (predicate.getD []) = .ok clauses) :
    ∃ text, SaysClauses text clauses ∧
      text.toList = (predicate.map ("By".toList ++ ·)).getD [] := by
  obtain ⟨htext, -⟩ := predicate_of_clausesOf h
  cases predicate with
  | none =>
    obtain rfl := Except.ok.inj h
    exact ⟨"", .inl ⟨rfl, rfl⟩, rfl⟩
  | some predicate =>
    refine ⟨_, .inr rfl, ?_⟩
    rw [htext]
    simp

theorem exists_says_of_ordersOf {clause : Option (List Char)} {orders : List OrderKey}
    (h : ordersOf name clause = .ok orders) :
    ∃ text, SaysOrders text orders ∧
      text.toList = (clause.map ("OrderBy".toList ++ ·)).getD [] := by
  obtain ⟨rfl, rfl⟩ | ⟨keys, last, hkeys, rfl⟩ := (orderClause_of_ordersOf h).1
  · exact ⟨"", .inl ⟨rfl, rfl⟩, rfl⟩
  · exact ⟨_, .inr ⟨keys, last, hkeys, rfl⟩, by simp⟩

/-- A name is its subject, its modifiers, and what its conditions and sort keys say. The modifiers
end at the first `By`, and the sort keys begin at the first `OrderBy`. -/
theorem exists_pieces_of_ofText (h : ofText name = .ok m) :
    ∃ word modifiers conditions orders, name = word ++ (modifiers ++ conditions ++ orders) ∧
      (word, m.subject) ∈ subjects ∧ SaysClauses conditions m.clauses ∧
      SaysOrders orders m.orders ∧ WordEnd (modifiers ++ conditions ++ orders).toList ∧
      ¬"By".toList <:+: modifiers.toList ∧
      ¬"OrderBy".toList <:+: (modifiers ++ conditions).toList ∧
      (∀ clause ∈ m.clauses, clause ≠ []) ∧ (∀ part ∈ m.conditions, part.Splits) ∧
      (∀ key ∈ m.orders, key.source ≠ "") ∧ ∀ limit, m.limit = some limit → 1 ≤ limit := by
  obtain ⟨rest, head, modifiers, predicate, clause, hsubject, horder, hby, hclauses, horders, -⟩ :=
    exists_readings_of_ofText h
  obtain ⟨word, hm, hname, hend⟩ := exists_word_of_subjectOf? hsubject
  obtain ⟨hhead, hnoBy⟩ := eq_append_of_cutOr (by decide) hby
  obtain ⟨hrest, hnoOrder⟩ := eq_append_of_cutOr (by decide) horder
  obtain ⟨conditions, hconditions, hctext⟩ := exists_says_of_clausesOf hclauses
  obtain ⟨orders, hkeys, hotext⟩ := exists_says_of_ordersOf horders
  rw [← hctext] at hhead
  rw [← hotext, hhead] at hrest
  have htext : (String.ofList modifiers ++ conditions ++ orders).toList = rest := by
    rw [hrest]
    simp
  refine ⟨word, String.ofList modifiers, conditions, orders, ?_, hm, hconditions, hkeys, ?_, ?_, ?_,
    clause_ne_nil h, (predicate_of_clausesOf hclauses).2, (orderClause_of_ordersOf horders).2,
    limit_pos h⟩
  · rw [← String.toList_inj, hname, String.toList_append, htext]
  · rwa [htext]
  · simpa using hnoBy
  · have hfront : (String.ofList modifiers ++ conditions).toList = head := by
      rw [hhead]
      simp
    rwa [hfront]

section Books

theorem exists_pieces_of_newestBooks :
    ∃ word modifiers conditions orders,
      "findTop2DistinctBooksByÜberTitelNotInOrInOrderByAscAscDescent" =
          word ++ (modifiers ++ conditions ++ orders) ∧
        (word, Subject.find) ∈ subjects ∧
        SaysClauses conditions
          [[⟨"ÜberTitelNotIn", "ÜberTitel", .notIn⟩], [⟨"In", "In", .simpleProperty⟩]] ∧
        SaysOrders orders [⟨"Asc", .asc⟩, ⟨"Descent", .asc⟩] ∧
        ¬"By".toList <:+: modifiers.toList := by
  have h : ofText "findTop2DistinctBooksByÜberTitelNotInOrInOrderByAscAscDescent" = .ok
      ⟨"findTop2DistinctBooksByÜberTitelNotInOrInOrderByAscAscDescent", .find, true, some 2,
        [[⟨"ÜberTitelNotIn", "ÜberTitel", .notIn⟩], [⟨"In", "In", .simpleProperty⟩]],
        [⟨"Asc", .asc⟩, ⟨"Descent", .asc⟩]⟩ := by
    cbv
  obtain ⟨word, modifiers, conditions, orders, hname, hm, hconditions, horders, -, hby, -⟩ :=
    exists_pieces_of_ofText h
  exact ⟨word, modifiers, conditions, orders, hname, hm, hconditions, horders, hby⟩

end Books

end Names

end MethodName

end SearchMapper
