import SearchMapper.Proofs.Index.Chains
import SearchMapper.Proofs.Query.Lowered
import SearchMapper.Proofs.Query.ValueText

namespace SearchMapper.Plain

open Index (Expr FieldTest Test)
open Index.Reading
open Text (isBlank trimStart)

variable {s rest : List Char} {size : Nat}

theorem Closes.ends (h : Closes rest) : Ends rest :=
  h.endsToken_eq_true

section Groups

structure Part where
  negated : Bool
  text : List Char
  test : Test

namespace Part

def written (part : Part) : List Char :=
  (if part.negated then ['-'] else []) ++ part.text

/-- A minus in front of a test would negate it, but behind a minus it belongs to the term. -/
def barred (part : Part) : List Char :=
  if part.negated then [] else ['-']

def Readable (part : Part) : Prop :=
  ReadsAs part.barred part.text part.test

theorem reads_item {part : Part} (h : part.Readable) {items : List (Bool × Test)}
    {rest' : List Char} (hs : trimStart s = part.written ++ rest) (hr : Closes rest)
    (hskip : skipBoost rest = rest) (hg : Reads (groupItems size rest) items rest') :
    Reads (groupItems size s) ((part.negated, part.test) :: items) rest' := by
  have hv := h.reads size rest (Closes.ends hr)
  rw [hskip] at hv
  obtain ⟨negated, text, test⟩ := part
  cases negated with
  | true => exact reads_groupItem hs (by decide) hv hg
  | false =>
    obtain ⟨c, r, ht, hc, hm⟩ := h.starts
    simp only at ht
    subst ht
    have hminus : c ≠ '-' := fun he => hm (by simp [barred, he])
    have hclose : c ≠ ')' := by
      rintro rfl
      exact absurd hc (by decide)
    have hd : decide (c = '-') = false := decide_eq_false hminus
    have hi := reads_groupItem hs hclose (by rwa [if_neg hminus]) hg
    rwa [hd] at hi

def ofTerm (v : Value) : Part :=
  ⟨false, v.term.toList, .exact v.toText⟩

def ofPredicate (p : Predicate) : Part :=
  ⟨p.isExclusion, (body p).toList, p.test⟩

theorem readable_ofTerm {v : Value} (h : isTerm ['-'] v = true) : (ofTerm v).Readable := by
  refine readsAs_term ?_ h
  simp [Bars, ofTerm, barred]

theorem readable_ofPredicate {p : Predicate}
    (h : isPredicate (if p.isNegation then [] else ['-']) p = true) : (ofPredicate p).Readable := by
  have hp : isPredicate (ofPredicate p).barred p = true := by
    cases p <;> exact h
  refine readsAs_body ?_ hp
  unfold barred
  split <;> simp [Bars]

theorem written_ofPredicate (p : Predicate) : (ofPredicate p).written = p.fragment.toList :=
  (fragment_toList p).symm

theorem written_starts {part : Part} (h : part.Readable) :
    ∃ c r, part.written = c :: r ∧ isBlank c = false := by
  obtain ⟨negated, text, test⟩ := part
  cases negated with
  | true => exact ⟨'-', text, rfl, by decide⟩
  | false =>
    obtain ⟨c, r, ht, hc, -⟩ := h.starts
    simp only [endsToken, Bool.or_eq_false_iff] at hc
    exact ⟨c, r, ht, hc.1.1⟩

end Part

theorem reads_parts (parts : List Part) (hne : parts ≠ []) (h : ∀ part ∈ parts, part.Readable)
    (hs : trimStart s = [' '].intercalate (parts.map Part.written) ++ ')' :: rest) :
    Reads (groupItems size s) (parts.map fun part => (part.negated, part.test)) rest := by
  induction parts generalizing s with
  | nil => exact absurd rfl hne
  | cons part parts ih =>
    have hp : part.Readable := h part List.mem_cons_self
    have hps : ∀ part ∈ parts, part.Readable := fun q hq => h q (List.mem_cons_of_mem _ hq)
    cases parts with
    | nil =>
      rw [List.map_singleton, List.intercalate_singleton] at hs
      exact Part.reads_item hp hs (by simp [Closes]) rfl (reads_groupEnd rfl)
    | cons next parts =>
      rw [List.map_cons, List.map_cons, List.intercalate_cons_cons, List.append_assoc,
        List.append_assoc, List.singleton_append] at hs
      refine Part.reads_item hp hs (by simp [Closes]; decide) rfl (ih (by simp) hps ?_)
      obtain ⟨c, r, ht, hc⟩ := Part.written_starts (hps next List.mem_cons_self)
      rw [Text.trimStart_blank_cons rfl, List.map_cons]
      refine Text.trimStart_eq_self ?_
      cases parts <;> simpa [ht] using hc

theorem reads_partGroup (size : Nat) (parts : List Part) (hne : parts ≠ [])
    (h : ∀ part ∈ parts, part.Readable) (rest : List Char) :
    Reads (fieldTest size ('(' :: ([' '].intercalate (parts.map Part.written) ++ ')' :: rest)))
      (.group (parts.map fun part => (part.negated, part.test))) (skipBoost rest) := by
  refine reads_group (reads_parts parts hne h ?_)
  obtain ⟨part, parts, rfl⟩ := List.exists_cons_of_ne_nil hne
  obtain ⟨c, r, ht, hc⟩ := Part.written_starts (h part List.mem_cons_self)
  refine Text.trimStart_eq_self ?_
  cases parts <;> simpa [ht] using hc

end Groups

section Names

variable {name : String} {test : FieldTest}

theorem isName_starts (hv : Text.isBlankText name = false) (h : isName name = true) :
    ∃ c r, name.toList = c :: r ∧ isBlank c = false ∧ c ≠ '-' ∧ c ≠ '(' := by
  simp only [isName, Bool.and_eq_true, decide_eq_true_eq, List.all_eq_true] at h
  have hne : name.toList ≠ [] := by
    intro he
    simp [Text.isBlankText, he] at hv
  obtain ⟨c, r, ht⟩ := List.exists_cons_of_ne_nil hne
  rw [ht] at h
  have hc := h.2 c List.mem_cons_self
  simp only [endsField, Bool.not_eq_true', Bool.or_eq_false_iff, decide_eq_false_iff_not] at hc
  exact ⟨c, r, ht, hc.1.1.1, fun he => h.1.2 (by simp [he]), hc.1.2⟩

theorem reads_named (hv : Text.isBlankText name = false) (h : isName name = true)
    {tail : List Char} (hs : trimStart s = name.toList ++ ':' :: tail)
    (ht : Reads (fieldTest size tail) test rest) :
    Reads (primary size s) (.field name test) rest := by
  obtain ⟨c, r, hname, hb, hm, hp⟩ := isName_starts hv h
  simp only [isName, Bool.and_eq_true, decide_eq_true_eq, List.all_eq_true] at h
  have hstar : name.toList ≠ ['*'] := fun he => h.1.1 (String.toList_inj.1 he)
  have hspan : Text.span (fun c => !endsField c) (name.toList ++ ':' :: tail) =
      (name.toList, ':' :: tail) := Text.span_append h.2 (by simp; decide)
  have hf := reads_field (by simp [hname]) (fun he => absurd he hstar) hspan ht
  rw [String.ofList_toList] at hf
  refine reads_primary ?_ (by rwa [hs])
  rw [hs, hname]
  simpa using hp

theorem reads_signedField (negated : Bool) (hv : Text.isBlankText name = false)
    (h : isName name = true) {tail : List Char}
    (hs : trimStart s = (if negated then ['-'] else []) ++ (name.toList ++ ':' :: tail))
    (ht : Reads (fieldTest size tail) test rest) :
    Reads (signed size s)
      (if negated then .not (.field name test) else .field name test) rest := by
  obtain ⟨c, r, hname, hb, hm, -⟩ := isName_starts hv h
  cases negated with
  | true =>
    refine reads_negated hs (reads_named hv h ?_ ht)
    rw [hname]
    exact Text.trimStart_eq_self (by simpa using hb)
  | false =>
    refine reads_unnegated ?_ (reads_named hv h hs ht)
    rw [hs, hname]
    simpa using hm

end Names

section Boosts

theorem skipBoost_boostText {boost : Option Number.Single} (h : boost.all isFactor = true)
    (hr : Closes rest) :
    skipBoost ((FieldNode.boostText boost).toList ++ rest) = rest := by
  cases boost with
  | none => simpa [FieldNode.boostText] using hr.skipBoost_eq
  | some factor =>
    have hf : (factor.convert .double : Number.Double).isFinite = true ∧
        (factor.convert .double : Number.Double).isNegative = false := by
      simpa [isFactor] using h
    have htext : (FieldNode.boostText (some factor)).toList =
        '^' :: (Value.floatText (factor.convert .double)).toList := by
      simp [FieldNode.boostText]
    rw [htext, List.cons_append, skipBoost, List.dropWhile_append_of_pos, hr.dropWhile_eq]
    exact fun c hc => Value.isPlainMark_of_mem_floatText hf.1 hf.2 hc

theorem ends_boostText (boost : Option Number.Single) (hr : Closes rest) :
    Ends ((FieldNode.boostText boost).toList ++ rest) := by
  cases boost with
  | none => simpa [FieldNode.boostText] using Closes.ends hr
  | some factor =>
    intro c hc
    obtain rfl : '^' = c := by simpa [FieldNode.boostText] using hc
    decide

end Boosts

section Nodes

variable {node : FieldNode} {ps : List Predicate}

theorem operand_field (negated : Bool) (hn : isName node.field.name = true) {tail : List Char}
    {test : FieldTest}
    (ht : ∀ size rest, Closes rest →
      Reads (fieldTest size (tail ++ ((FieldNode.boostText node.boost).toList ++ rest)))
        test rest) :
    Operand ((if negated then ['-'] else []) ++
      (node.field.name.toList ++ ':' :: (tail ++ (FieldNode.boostText node.boost).toList)))
      (if negated then .not (.field node.field.name test) else .field node.field.name test) := by
  refine ⟨fun size s rest hs hr => ?_, ?_⟩
  · refine reads_signedField negated node.field.visible hn ?_ (ht size rest hr)
    rw [hs]
    simp only [List.append_assoc, List.cons_append]
  · obtain ⟨c, r, hname, hc, -⟩ := isName_starts node.field.visible hn
    cases negated with
    | true => exact ⟨'-', _, rfl, by decide⟩
    | false =>
      rw [hname]
      exact ⟨c, _, rfl, hc⟩

theorem operand_one (negated : Bool) (hn : isName node.field.name = true)
    (hb : node.boost.all isFactor = true) {text : List Char} {test : Test}
    (h : ReadsAs ['('] text test) :
    Operand ((if negated then ['-'] else []) ++
      (node.field.name.toList ++ ':' :: (text ++ (FieldNode.boostText node.boost).toList)))
      (if negated then .not (.field node.field.name (.one test))
        else .field node.field.name (.one test)) := by
  refine operand_field negated hn fun size rest hr => reads_one ?_ ?_
  · obtain ⟨c, r, rfl, -, hc⟩ := h.starts
    simpa using hc
  · have hread := h.reads size _ (ends_boostText node.boost hr)
    rwa [skipBoost_boostText hb hr] at hread

theorem operand_group (negated : Bool) (hn : isName node.field.name = true)
    (hb : node.boost.all isFactor = true) (parts : List Part) (hne : parts ≠ [])
    (h : ∀ part ∈ parts, part.Readable) :
    Operand ((if negated then ['-'] else []) ++
      (node.field.name.toList ++ ':' ::
        ('(' :: ([' '].intercalate (parts.map Part.written) ++ [')']) ++
          (FieldNode.boostText node.boost).toList)))
      (if negated then
        .not (.field node.field.name (.group (parts.map fun part => (part.negated, part.test))))
      else
        .field node.field.name (.group (parts.map fun part => (part.negated, part.test)))) := by
  refine operand_field negated hn fun size rest hr => ?_
  have hread := reads_partGroup size parts hne h
    ((FieldNode.boostText node.boost).toList ++ rest)
  rw [skipBoost_boostText hb hr] at hread
  rwa [List.cons_append, List.append_assoc, List.singleton_append]

theorem qualifier_eq (hn : isName node.field.name = true) :
    node.qualifier = node.field.name ++ ":" := by
  simp only [isName, Bool.and_eq_true, decide_eq_true_eq] at hn
  exact if_neg (by simpa [Field.isWildcard] using hn.1.1)

theorem predicatesText?_one {p : Predicate} (hp : node.predicates = [p]) :
    node.predicatesText? =
      some ((if p.isExclusion then "-" else "") ++ node.qualifier ++ body p) := by
  unfold FieldNode.predicatesText?
  rw [hp]
  cases p <;> simp [Predicate.isExclusion, body]

theorem mapM_excluded?_isNot (vs : List Value) :
    (vs.map Predicate.isNot).mapM Predicate.excluded? = some vs := by
  induction vs with
  | nil => rfl
  | cons v vs ih => simp [ih, Predicate.excluded?]

theorem exists_values_of_negations (h : ps.all Predicate.isNegation = true) :
    ∃ vs : List Value, ps = vs.map Predicate.isNot := by
  induction ps with
  | nil => exact ⟨[], rfl⟩
  | cons p ps ih =>
    rw [List.all_cons, Bool.and_eq_true] at h
    obtain ⟨vs, rfl⟩ := ih h.2
    cases p with
    | isNot v => exact ⟨v :: vs, rfl⟩
    | _ => simp [Predicate.isNegation] at h

theorem mapM_excluded?_eq_none (h : ps.all Predicate.isNegation = false) :
    ps.mapM Predicate.excluded? = none := by
  induction ps with
  | nil => simp at h
  | cons p ps ih =>
    cases p with
    | isNot v =>
      rw [List.all_cons, Bool.and_eq_false_iff] at h
      have hps := ih (h.resolve_left (by simp [Predicate.isNegation]))
      simp [hps, Predicate.excluded?]
    | _ => rfl

theorem predicatesText?_negations {p q : Predicate} {vs : List Value}
    (hp : node.predicates = p :: q :: ps) (hvs : p :: q :: ps = vs.map Predicate.isNot) :
    node.predicatesText? =
      some ("-" ++ node.qualifier ++ FieldNode.parenthesized (vs.map Value.term)) := by
  have hm := mapM_excluded?_isNot vs
  rw [← hvs] at hm
  unfold FieldNode.predicatesText?
  rw [hp]
  simp only [hm]

theorem predicatesText?_mixed {p q : Predicate} (hp : node.predicates = p :: q :: ps)
    (h : (p :: q :: ps).all Predicate.isNegation = false) :
    node.predicatesText? = some (node.qualifier ++
      FieldNode.parenthesized ((p :: q :: ps).map Predicate.fragment)) := by
  unfold FieldNode.predicatesText?
  rw [hp]
  simp only [mapM_excluded?_eq_none h]

theorem parenthesized_toList (parts : List Part) (texts : List String)
    (h : parts.map Part.written = texts.map String.toList) :
    (FieldNode.parenthesized texts).toList =
      '(' :: ([' '].intercalate (parts.map Part.written) ++ [')']) := by
  rw [h]
  simp [FieldNode.parenthesized, String.toList_intercalate]

theorem operand_single {p : Predicate} (hn : isName node.field.name = true)
    (hb : node.boost.all isFactor = true) (hp : node.predicates = [p])
    (h : isPredicate ['('] p = true) :
    ∃ text, node.text? = some text ∧ Operand text.toList node.lowered := by
  have hread := readsAs_body (by simp [Bars]) h
  have ho := operand_one p.isExclusion hn hb hread
  refine ⟨_, by rw [FieldNode.text?, predicatesText?_one hp]; rfl, ?_⟩
  rw [qualifier_eq hn, FieldNode.lowered, hp, FieldNode.loweredTo]
  cases hx : p.isExclusion <;> simpa [hx] using ho

theorem operand_negations {p q : Predicate} (hn : isName node.field.name = true)
    (hb : node.boost.all isFactor = true) (hp : node.predicates = p :: q :: ps)
    (hall : (p :: q :: ps).all Predicate.isNegation = true)
    (h : ∀ r ∈ p :: q :: ps, isPredicate ['-'] r = true) :
    ∃ text, node.text? = some text ∧ Operand text.toList node.lowered := by
  obtain ⟨vs, hvs⟩ := exists_values_of_negations hall
  have hne : vs.map Part.ofTerm ≠ [] := by
    rintro he
    simp [List.map_eq_nil_iff.1 he] at hvs
  have hparts : ∀ part ∈ vs.map Part.ofTerm, part.Readable := by
    intro part hm
    obtain ⟨v, hv, rfl⟩ := List.mem_map.1 hm
    exact Part.readable_ofTerm (h (.isNot v) (hvs ▸ List.mem_map_of_mem hv))
  have ho := operand_group true hn hb _ hne hparts
  rw [← parenthesized_toList _ (vs.map Value.term) (by simp [Part.ofTerm, Part.written])] at ho
  have hl : node.lowered = .not (.field node.field.name
      (.group ((vs.map Part.ofTerm).map fun part => (part.negated, part.test)))) := by
    rw [FieldNode.lowered, hp, FieldNode.loweredTo.eq_2 _ _ (by simp), if_pos hall, hvs]
    simp [Part.ofTerm, Predicate.test, Function.comp_def]
  refine ⟨_, by rw [FieldNode.text?, predicatesText?_negations hp hvs]; rfl, ?_⟩
  rw [qualifier_eq hn, hl]
  simpa using ho

theorem operand_mixed {p q : Predicate} (hn : isName node.field.name = true)
    (hb : node.boost.all isFactor = true) (hp : node.predicates = p :: q :: ps)
    (hall : (p :: q :: ps).all Predicate.isNegation = false)
    (h : ∀ r ∈ p :: q :: ps, isPredicate (if r.isNegation then [] else ['-']) r = true) :
    ∃ text, node.text? = some text ∧ Operand text.toList node.lowered := by
  have hparts : ∀ part ∈ (p :: q :: ps).map Part.ofPredicate, part.Readable := by
    intro part hm
    obtain ⟨r, hr, rfl⟩ := List.mem_map.1 hm
    exact Part.readable_ofPredicate (h r hr)
  have ho := operand_group false hn hb _ (by simp) hparts
  rw [← parenthesized_toList _ ((p :: q :: ps).map Predicate.fragment)
    (by simp [Part.written_ofPredicate])] at ho
  have hl : node.lowered = .field node.field.name
      (.group (((p :: q :: ps).map Part.ofPredicate).map fun part =>
        (part.negated, part.test))) := by
    rw [FieldNode.lowered, hp, FieldNode.loweredTo.eq_2 _ _ (by simp), if_neg (by simp [hall]),
      List.map_map]
    rfl
  refine ⟨_, by rw [FieldNode.text?, predicatesText?_mixed hp hall]; rfl, ?_⟩
  rw [qualifier_eq hn, hl]
  simpa using ho

theorem operand_lowered (h : isField node = true) (hne : node.predicates ≠ []) :
    ∃ text, node.text? = some text ∧ Operand text.toList node.lowered := by
  obtain ⟨⟨hn, hb⟩, hps⟩ : (isName node.field.name = true ∧ node.boost.all isFactor = true) ∧
      arePredicates node.predicates = true := by
    simpa [isField, hne] using h
  cases hp : node.predicates with
  | nil => exact absurd hp hne
  | cons p rest =>
    rw [hp] at hps
    cases rest with
    | nil => exact operand_single hn hb hp hps
    | cons q rest =>
      rw [arePredicates.eq_2 _ (by simp)] at hps
      cases hall : (p :: q :: rest).all Predicate.isNegation with
      | true =>
        rw [if_pos hall, List.all_eq_true] at hps
        exact operand_negations hn hb hp hall hps
      | false =>
        rw [if_neg (by simp [hall]), List.all_eq_true] at hps
        exact operand_mixed hn hb hp hall hps

end Nodes

end SearchMapper.Plain
