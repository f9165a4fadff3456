import SearchMapper.Proofs.Index.Reads
import SearchMapper.Proofs.Number.Characters
import SearchMapper.Proofs.Query.Meaning

namespace SearchMapper.Index.Reading

open Criteria (alternatives)
open Text (isBlank trimStart)

variable {s rest front : List Char} {e : Expr} {size : Nat}

def Closes (rest : List Char) : Prop :=
  ∀ c ∈ rest.head?, isBlank c = true ∨ c = ')'

def ClosesChain (rest : List Char) : Prop :=
  ∀ c ∈ rest.head?, c = ')'

theorem Closes.skipBoost_eq (h : Closes rest) : skipBoost rest = rest := by
  unfold skipBoost
  split
  · next c r => exact absurd (h _ rfl) (by decide)
  · rfl

theorem Closes.dropWhile_eq (h : Closes rest) :
    rest.dropWhile (fun c => c.isDigit || c = '.') = rest := by
  refine Text.dropWhile_eq_self fun c hc => ?_
  rcases h c hc with hb | rfl
  · have hd : c.isDigit = false := by
      refine Bool.eq_false_iff.2 fun hd => ?_
      rw [Text.isBlank_of_isDigit hd] at hb
      exact absurd hb (by decide)
    have hp : c ≠ '.' := by
      rintro rfl
      exact absurd hb (by decide)
    simp [hd, hp]
  · decide

theorem Closes.head?_notMem (h : Closes rest) {chars : List Char}
    (hc : (chars.all fun c => !isBlank c && c ≠ ')') = true) : ∀ c ∈ rest.head?, c ∉ chars := by
  intro c hm hin
  have hmark := List.all_eq_true.1 hc c hin
  obtain hb | rfl := h c hm
  · simp [hb] at hmark
  · simp at hmark

theorem Closes.endsToken_eq_true (h : Closes rest) : ∀ c ∈ rest.head?, endsToken c = true := by
  intro c hc
  obtain hb | rfl := h c hc
  · simp [endsToken, hb]
  · decide

theorem Closes.endsField_eq_true (h : Closes rest) : ∀ c ∈ rest.head?, endsField c = true := by
  intro c hc
  obtain hb | rfl := h c hc
  · simp [endsField, hb]
  · decide

theorem ClosesChain.closes (h : ClosesChain rest) : Closes rest :=
  fun c hc => .inr (h c hc)

/-- A text read as one expression between AND and OR. -/
structure Operand (text : List Char) (e : Expr) : Prop where
  reads : ∀ size s rest, trimStart s = text ++ rest → Closes rest → Reads (signed size s) e rest
  starts : ∃ c r, text = c :: r ∧ isBlank c = false

theorem ClosesChain.keyword?_eq_none {k : Char} (h : ClosesChain rest) (hk : k ≠ ')')
    (ks : List Char) : keyword? (k :: ks) rest = none := by
  cases rest with
  | nil => rfl
  | cons c rest =>
    obtain rfl := h c rfl
    rw [keyword?, Text.trimStart_eq_self (by simp; decide), Text.after?_cons_of_ne hk]

theorem keyword?_self (word rest : List Char) (hw : ∀ c ∈ word.head?, isBlank c = false)
    (hne : word ≠ []) : keyword? word (' ' :: (word ++ ' ' :: rest)) = some (' ' :: rest) := by
  have ht : trimStart (word ++ ' ' :: rest) = word ++ ' ' :: rest := by
    obtain ⟨c, r, rfl⟩ := List.exists_cons_of_ne_nil hne
    exact Text.trimStart_eq_self hw
  rw [keyword?, Text.trimStart_blank_cons rfl, ht, Text.after?_append]
  rfl

theorem keyword?_and (rest : List Char) :
    keyword? ['A', 'N', 'D'] (' ' :: (Conjunction.and.word.toList ++ ' ' :: rest)) =
      some (' ' :: rest) :=
  keyword?_self ['A', 'N', 'D'] rest (by simp; decide) (by decide)

theorem keyword?_or (rest : List Char) :
    keyword? ['O', 'R'] (' ' :: (Conjunction.or.word.toList ++ ' ' :: rest)) =
      some (' ' :: rest) :=
  keyword?_self ['O', 'R'] rest (by simp; decide) (by decide)

theorem keyword?_and_of_or (rest : List Char) :
    keyword? ['A', 'N', 'D'] (' ' :: (Conjunction.or.word.toList ++ ' ' :: rest)) = none := rfl

def chainText : List (Conjunction × List Char) → List Char
  | [] => []
  | [(_, text)] => text
  | (_, text) :: (join, next) :: rest =>
    text ++ ' ' :: (join.word.toList ++ ' ' :: chainText ((join, next) :: rest))

abbrev Chain := List (Conjunction × List Char × Expr)

namespace Chain

def text (chain : Chain) : List Char :=
  chainText (chain.map fun link => (link.1, link.2.1))

def exprs (chain : Chain) : List (Conjunction × Expr) :=
  chain.map fun link => (link.1, link.2.2)

def Readable (chain : Chain) : Prop :=
  ∀ link ∈ chain, Operand link.2.1 link.2.2

/-- One AND-run is read off the front of a chain, and the rest behind the OR that ends it. -/
theorem reads_run (chain : Chain) (size : Nat) (hne : chain ≠ []) (h : chain.Readable)
    (hs : trimStart s = chain.text ++ rest) (hr : ClosesChain rest) :
    ∃ run runs rest', alternatives chain.exprs = run :: runs ∧ Reads (allOf size s) run rest' ∧
      ((runs = [] ∧ rest' = rest) ∨
        ∃ r, keyword? ['O', 'R'] rest' = some r ∧
          Reads (anyOf size r) (runs.map conjunction) rest) := by
  induction chain generalizing s with
  | nil => exact absurd rfl hne
  | cons link chain ih =>
    obtain ⟨join, front, e⟩ := link
    have hf : Operand front e := h _ List.mem_cons_self
    have hc : Chain.Readable chain := fun link hm => h link (List.mem_cons_of_mem _ hm)
    cases chain with
    | nil =>
      have hread := hf.reads size s rest hs hr.closes
      refine ⟨[e], [], rest, rfl, ?_, .inl ⟨rfl, rfl⟩⟩
      exact reads_lastFactor hread (hr.keyword?_eq_none (by decide) _)
    | cons next chain =>
      obtain ⟨join', front', e'⟩ := next
      have hspace : trimStart (' ' :: (Chain.text ((join', front', e') :: chain) ++ rest)) =
          Chain.text ((join', front', e') :: chain) ++ rest := by
        have hf' : Operand front' e' := hc _ List.mem_cons_self
        obtain ⟨c, r, rfl, hb⟩ := hf'.starts
        rw [Text.trimStart_blank_cons rfl]
        refine Text.trimStart_eq_self ?_
        cases chain <;> simpa [Chain.text, chainText] using hb
      have hsplit : Chain.text ((join, front, e) :: (join', front', e') :: chain) ++ rest =
          front ++ ' ' :: (join'.word.toList ++ ' ' ::
            (Chain.text ((join', front', e') :: chain) ++ rest)) := by
        simp [Chain.text, chainText]
      have hread := hf.reads size s _ (hs.trans hsplit) (by simp [Closes]; decide)
      obtain ⟨run, runs, rest', halt, hrun, hrest⟩ := ih (by simp) hc hspace
      -- In front of an AND the operand joins the run behind it, and in front of an OR it is one alone.
      cases join' with
      | and =>
        have halts : alternatives (Chain.exprs ((join, front, e) :: (.and, front', e') :: chain)) =
            (e :: run) :: runs := by
          simp only [Chain.exprs, List.map_cons] at halt ⊢
          rw [alternatives, halt]
          rfl
        exact ⟨e :: run, runs, rest', halts, reads_factor hread (keyword?_and _) hrun, hrest⟩
      | or =>
        have halts : alternatives (Chain.exprs ((join, front, e) :: (.or, front', e') :: chain)) =
            [e] :: run :: runs := by
          simp only [Chain.exprs, List.map_cons] at halt ⊢
          rw [alternatives, halt]
        refine ⟨[e], run :: runs, _, halts, reads_lastFactor hread (keyword?_and_of_or _),
          .inr ⟨_, keyword?_or _, ?_⟩⟩
        rcases hrest with ⟨rfl, rfl⟩ | ⟨r, hk, hterms⟩
        · exact reads_lastTerm hrun (hr.keyword?_eq_none (by decide) _)
        · exact reads_term hrun hk hterms

theorem reads_anyOf (chain : Chain) (size : Nat) (hne : chain ≠ []) (h : chain.Readable)
    (hs : trimStart s = chain.text ++ rest) (hr : ClosesChain rest) :
    Reads (anyOf size s) ((alternatives chain.exprs).map conjunction) rest := by
  obtain ⟨run, runs, rest', halt, hrun, hrest⟩ := chain.reads_run size hne h hs hr
  rw [halt, List.map_cons]
  rcases hrest with ⟨rfl, rfl⟩ | ⟨r, hk, hterms⟩
  · exact reads_lastTerm hrun (hr.keyword?_eq_none (by decide) _)
  · exact reads_term hrun hk hterms

theorem text_starts (chain : Chain) (hne : chain ≠ []) (h : chain.Readable) :
    ∃ c r, chain.text = c :: r ∧ isBlank c = false := by
  obtain ⟨⟨join, front, e⟩, chain, rfl⟩ := List.exists_cons_of_ne_nil hne
  obtain ⟨c, r, rfl, hc⟩ := (h _ List.mem_cons_self).starts
  cases chain with
  | nil => exact ⟨c, r, rfl, hc⟩
  | cons next chain => exact ⟨c, _, rfl, hc⟩

theorem parenthesized (chain : Chain) (hne : chain ≠ []) (h : chain.Readable) :
    Operand ('(' :: (chain.text ++ [')']))
      (disjunction ((alternatives chain.exprs).map conjunction)) := by
  refine ⟨fun size s rest hs hr => ?_, '(', _, rfl, by decide⟩
  have hs' : trimStart s = '(' :: (chain.text ++ ')' :: rest) := by
    simpa using hs
  have hinner : trimStart (chain.text ++ ')' :: rest) = chain.text ++ ')' :: rest := by
    obtain ⟨c, r, ht, hc⟩ := chain.text_starts hne h
    rw [ht]
    exact Text.trimStart_eq_self (by simpa using hc)
  have hread := chain.reads_anyOf size hne h hinner (by simp [ClosesChain])
  have hparen := reads_parenthesized hs' hread (Text.trimStart_eq_self (by simp; decide))
  rw [hr.skipBoost_eq] at hparen
  exact reads_unnegated (by simp [hs']) hparen

end Chain

end SearchMapper.Index.Reading
