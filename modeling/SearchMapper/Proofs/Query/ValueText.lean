import SearchMapper.Proofs.Index.Tokens
import SearchMapper.Proofs.Number.Characters
import SearchMapper.Proofs.Query.Plain

namespace SearchMapper.Plain

open Index (Test)
open Index.Reading

variable {barred s t rest : List Char} {v : Value} {p : Predicate}

def Ends (rest : List Char) : Prop :=
  ∀ c ∈ rest.head?, endsToken c = true

/-- A text read as a test wherever a value may end behind it. None of the barred characters stands
first in it, and nothing that a reader would pass over or stop at. -/
structure ReadsAs (barred t : List Char) (test : Test) : Prop where
  reads : ∀ size rest, Ends rest → Reads (value size (t ++ rest)) test (skipBoost rest)
  starts : ∃ c r, t = c :: r ∧ endsToken c = false ∧ c ∉ barred

/-- The places at which characters are barred have only these two to bar. -/
def Bars (barred : List Char) : Prop :=
  ∀ c ∈ barred, c = '(' ∨ c = '-'

theorem notMem_of_bars (hb : Bars barred) {c : Char} (hp : c ≠ '(') (hm : c ≠ '-') :
    c ∉ barred := fun hc => (hb c hc).elim hp hm

theorem readsAs_word (hne : t ≠ []) (ht : ∀ c ∈ t, endsToken c = false)
    (hs : startsFree barred t = true) : ReadsAs barred t (tokenTest t) := by
  obtain ⟨c, r, rfl⟩ := List.exists_cons_of_ne_nil hne
  have hc : c ∉ ['"', '[', '\x7b'] ∧ c ∉ barred := by simpa [startsFree] using hs
  refine ⟨fun size rest hr => ?_, c, r, rfl, ht c List.mem_cons_self, hc.2⟩
  refine reads_token ?_ hne (Text.span_append ?_ ?_)
  · intro d hd
    rw [← Option.some.inj hd]
    exact hc.1
  · exact fun d hd => by simp [ht d hd]
  · exact fun d hd => by simp [hr d hd]

theorem forall_endsToken_of_isWord (h : isWord t = true) : ∀ c ∈ t, endsToken c = false := by
  intro c hc
  have := List.all_eq_true.1 h c hc
  simp only [Bool.and_eq_true, Bool.not_eq_true'] at this
  exact this.1

theorem isWord_of_notMem (hb : ∀ c ∈ t, Text.isBlank c = false) (hp : ')' ∉ t) (hc : '^' ∉ t)
    (ht : '~' ∉ t) : isWord t = true := by
  refine List.all_eq_true.2 fun c hm => ?_
  have hmarks : c ≠ ')' ∧ c ≠ '^' ∧ c ≠ '~' := by
    refine ⟨?_, ?_, ?_⟩ <;> rintro rfl <;> contradiction
  simp [endsToken, hb c hm, hmarks]

theorem tilde_notMem_of_isWord (h : isWord t = true) : '~' ∉ t := by
  intro hm
  simpa using List.all_eq_true.1 h _ hm

section Terms

theorem isTerm_eq (hi : v.isInstant = false) :
    isTerm barred v = if isQuoted v.toText then decide ('\\' ∉ v.toText.toList)
      else isWord v.toText.toList && decide ('*' ∉ v.toText.toList) &&
        startsFree barred v.toText.toList := by
  cases v <;> simp_all [isTerm, Value.isInstant]

theorem isTerm_cases (h : isTerm barred v = true) :
    (v.term = Value.quoted v.toText ∧ '\\' ∉ v.toText.toList) ∨
    (v.term = v.toText ∧ v.toText.toList ≠ [] ∧ isWord v.toText.toList = true ∧
      '*' ∉ v.toText.toList ∧ startsFree barred v.toText.toList = true) := by
  by_cases hi : v.isInstant = true
  · left
    obtain ⟨t, rfl⟩ : ∃ t, v = .instant t := by
      cases v <;> simp_all [Value.isInstant]
    refine ⟨by simp [Value.term, Value.isInstant], fun hm => ?_⟩
    have := List.all_eq_true.1 (Time.all_isStampMark_text t) _ hm
    exact absurd this (by decide)
  · rw [isTerm_eq (by simpa using hi)] at h
    by_cases hq : isQuoted v.toText = true
    · left
      rw [if_pos hq, decide_eq_true_eq] at h
      refine ⟨if_pos ?_, h⟩
      simp only [isQuoted, Bool.or_eq_true, decide_eq_true_eq] at hq
      exact hq.elim .inl fun hb => .inr (.inl hb)
    · right
      rw [if_neg hq] at h
      simp only [Bool.and_eq_true, decide_eq_true_eq] at h
      simp only [isQuoted, Bool.or_eq_true, decide_eq_true_eq, not_or] at hq
      refine ⟨if_neg ?_, ?_, h.1.1, h.1.2, h.2⟩
      · rintro (he | hb | hi')
        · exact hq.1 he
        · exact hq.2 hb
        · exact hi hi'
      · exact fun he => hq.1 (String.toList_eq_nil_iff.1 he)

theorem isTerm_of_isWord (hw : isWord v.toText.toList = true) (hstar : '*' ∉ v.toText.toList)
    (hs : startsFree barred v.toText.toList = true) : isTerm barred v = true := by
  by_cases hi : v.isInstant = true
  · cases v with
    | instant t => rfl
    | _ => simp [Value.isInstant] at hi
  · rw [isTerm_eq (by simpa using hi)]
    split
    · next hq =>
      have hblank : Text.hasBlank v.toText = false := by
        refine List.any_eq_false.2 fun c hc => ?_
        have hends := forall_endsToken_of_isWord hw c hc
        simp only [endsToken, Bool.or_eq_false_iff] at hends
        simp [hends.1.1]
      have hempty : v.toText = "" := by
        simpa [isQuoted, hblank] using hq
      simp [hempty]
    · simp [hw, hstar, hs]

theorem quoted_toList (s : String) :
    (Value.quoted s).toList = '"' :: (escaped s.toList ++ ['"']) := by
  simp [Value.quoted, escaped]

theorem readsAs_quoted (hb : Bars barred) {raw : String}
    (h : ∀ rest, phrase? (escaped raw.toList ++ '"' :: rest) = some (t, rest)) :
    ReadsAs barred (Value.quoted raw).toList (.exact (String.ofList t)) := by
  rw [quoted_toList]
  refine ⟨fun size rest _ => ?_, '"', _, rfl, by decide, notMem_of_bars hb (by decide) (by decide)⟩
  rw [List.cons_append, List.append_assoc]
  exact reads_phrase (h rest)

theorem readsAs_term (hb : Bars barred) (h : isTerm barred v = true) :
    ReadsAs barred v.term.toList (.exact v.toText) := by
  rcases isTerm_cases h with ⟨ht, hs⟩ | ⟨ht, hne, hw, hstar, hs⟩
  · have hr := readsAs_quoted hb (phrase?_escaped hs)
    rwa [String.ofList_toList, ← ht] at hr
  · rw [ht]
    have hr := readsAs_word hne (forall_endsToken_of_isWord hw) hs
    rwa [tokenTest_exact (tilde_notMem_of_isWord hw) hstar, String.ofList_toList] at hr

end Terms

section Bounds

theorem escaped_eq_self (h : '"' ∉ s) : escaped s = s := by
  induction s with
  | nil => rfl
  | cons c s ih =>
    have hc : c ≠ '"' := fun he => h (he ▸ List.mem_cons_self)
    have hs := ih fun hm => h (List.mem_cons_of_mem _ hm)
    simp only [escaped, List.flatMap_cons, if_neg hc, List.singleton_append] at hs ⊢
    rw [hs]

/-- What a plain bound is written as. -/
inductive Written (v : Value) (written : List Char) : Prop
  | openEnd (hw : written = ['*']) (hl : v.limit? = none)
  | bare (hw : written = v.toText.toList) (hl : v.limit? = some v.toText)
      (hb : ∀ c ∈ v.toText.toList, Text.isBlank c = false)
      (hh : v.toText.toList.head? ≠ some '"') (hg : v.toText.toList.getLast? ≠ some '"')
      (hs : v.toText.toList ≠ ['*']) (hr : ∀ c ∈ v.toText.toList, endsRange c = false)
  | quoted (hw : written = '"' :: (v.toText.toList ++ ['"'])) (hl : v.limit? = some v.toText)
      (hq : '"' ∉ v.toText.toList) (hs : v.toText.toList ≠ ['*'])
      (hr : ∀ c ∈ v.toText.toList, endsRange c = false)

theorem written_instant (t : Time.Instant) : Written (.instant t) t.text.toList := by
  have hm : ∀ c ∈ t.text.toList, Time.isStampMark c = true :=
    List.all_eq_true.1 (Time.all_isStampMark_text t)
  have hno : ∀ c, Time.isStampMark c = false → c ∉ t.text.toList := fun c hc hin => by
    simp [hm c hin] at hc
  refine .bare rfl rfl (fun c hc => Time.isBlank_of_isStampMark (hm c hc)) ?_ ?_ ?_ ?_
  · exact fun he => hno '"' (by decide) (List.mem_of_mem_head? he)
  · exact fun he => hno '"' (by decide) (List.mem_of_mem_getLast? he)
  · exact fun he => hno '*' (by decide) (he ▸ List.mem_singleton_self _)
  · intro c hc
    have hb : c ≠ ']' := fun he => hno ']' (by decide) (he ▸ hc)
    have hc : c ≠ '\x7d' := fun he => hno '\x7d' (by decide) (he ▸ hc)
    simp [endsRange, hb, hc]

theorem written_bound (h : isBound v = true) : Written v v.bound.toList := by
  have hother (hi : v.isInstant = false) (hl : v.limit? = some v.toText) (hv : v.bound = v.term)
      (hp : ((v.toText.toList.all fun c => !endsRange c) &&
        if isQuoted v.toText then decide ('"' ∉ v.toText.toList)
        else decide (v.toText ≠ "*") && decide (v.toText.toList.head? ≠ some '"') &&
          decide (v.toText.toList.getLast? ≠ some '"')) = true) : Written v v.bound.toList := by
    rw [Bool.and_eq_true, List.all_eq_true] at hp
    have hr : ∀ c ∈ v.toText.toList, endsRange c = false := fun c hc => by simpa using hp.1 c hc
    have hstar : v.toText ≠ "*" → v.toText.toList ≠ ['*'] := fun hne he =>
      hne (String.toList_inj.1 he)
    by_cases hq : isQuoted v.toText = true
    · have hnq : '"' ∉ v.toText.toList := by simpa [hq] using hp.2
      have hcases : v.toText = "" ∨ Text.hasBlank v.toText = true := by simpa [isQuoted] using hq
      have ht : v.term = Value.quoted v.toText :=
        if_pos (hcases.elim .inl fun hb => .inr (.inl hb))
      refine .quoted ?_ hl hnq (hstar ?_) hr
      · rw [hv, ht, quoted_toList, escaped_eq_self hnq]
      · rintro he
        rw [he] at hcases
        exact absurd hcases (by decide)
    · have hcases : v.toText ≠ "" ∧ Text.hasBlank v.toText = false := by
        simpa [isQuoted] using hq
      have ht : v.term = v.toText := if_neg (by simp [hcases, hi])
      rw [if_neg hq] at hp
      simp only [Bool.and_eq_true, decide_eq_true_eq] at hp
      refine .bare (by rw [hv, ht]) hl ?_ hp.2.1.2 hp.2.2 (hstar hp.2.1.1) hr
      intro c hc
      simpa using List.any_eq_false.1 hcases.2 c hc
  cases v with
  | null => exact .openEnd rfl rfl
  | instant t => exact written_instant t
  | text s => exact hother rfl rfl rfl h
  | int i => exact hother rfl rfl rfl h
  | float x => exact hother rfl rfl rfl h
  | bool b => exact hother rfl rfl rfl h
  | list items => exact hother rfl rfl rfl h

theorem Written.bound_eq (h : Written v t) : bound t = v.limit? := by
  cases h with
  | openEnd hw hl => rw [hw, hl, bound_star]
  | bare hw hl hb hh hg hs => rw [hw, hl, bound_bare hb hh hg hs, String.ofList_toList]
  | quoted hw hl hq hs => rw [hw, hl, bound_quoted hq hs, String.ofList_toList]

theorem Written.endsRange_eq_false (h : Written v t) : ∀ c ∈ t, endsRange c = false := by
  cases h with
  | openEnd hw =>
    subst hw
    intro c hc
    rw [List.mem_singleton.1 hc]
    decide
  | bare hw hl hb hh hg hs hr => exact hw ▸ hr
  | quoted hw hl hq hs hr =>
    subst hw
    intro c hc
    simp only [List.mem_cons, List.mem_append, List.not_mem_nil, or_false] at hc
    rcases hc with rfl | hc | rfl
    · decide
    · exact hr c hc
    · decide

theorem Written.cut?_eq (h : Written v t)
    (hno : Text.occursIn " TO ".toList v.toText.toList = false) (rest : List Char) :
    Text.cut? " TO ".toList (t ++ (" TO ".toList ++ rest)) = some (t, rest) := by
  cases h with
  | openEnd hw =>
    subst hw
    exact Text.cut?_append_of_notMem (by decide) rest
  | bare hw hl hb =>
    subst hw
    exact Text.cut?_append_of_notMem (fun hm => absurd (hb _ hm) (by decide)) rest
  | quoted hw =>
    subst hw
    have hn : Text.cut? [' ', 'T', 'O', ' '] v.toText.toList = none := by
      simpa [Text.occursIn] using hno
    have hq : Text.cut? (' ' :: ['T', 'O', ' ']) ('"' :: v.toText.toList) = none := by
      rw [Text.cut?_cons _ rfl, hn]
      rfl
    have hc := Text.cut?_append_cons (k := ' ') (c := '"') (by decide) hq rest
    simpa using hc

theorem readsAs_range {lower upper : Value} (hb : Bars barred) (hl : isBound lower = true)
    (hu : isBound upper = true)
    (hno : Text.occursIn " TO ".toList lower.toText.toList = false)
    (includeLower includeUpper : Bool) :
    ReadsAs barred (Predicate.between lower upper includeLower includeUpper).fragment.toList
      (.range lower.limit? upper.limit? includeLower includeUpper) := by
  have wl := written_bound hl
  have wu := written_bound hu
  have hread (close : Char) (hc : endsRange close = true) (rest : List Char) :=
    range_eq includeLower wl.endsRange_eq_false wu.endsRange_eq_false hc
      (wl.cut?_eq hno upper.bound.toList) rest
  rw [wl.bound_eq, wu.bound_eq] at hread
  have ht : (Predicate.between lower upper includeLower includeUpper).fragment.toList =
      (if includeLower then '[' else '\x7b') :: (lower.bound.toList ++ (" TO ".toList ++
        upper.bound.toList) ++ [if includeUpper then ']' else '\x7d']) := by
    cases includeLower <;> cases includeUpper <;> simp [Predicate.fragment]
  rw [ht]
  refine ⟨fun size rest _ => ?_, _, _, rfl, by split <;> decide, ?_⟩
  · rw [List.cons_append, List.append_assoc _ [_], List.singleton_append]
    have hclose : endsRange (if includeUpper then ']' else '\x7d') = true := by
      cases includeUpper <;> decide
    have hr := hread _ hclose rest
    have hi : decide ((if includeUpper then ']' else '\x7d') = ']') = includeUpper := by
      cases includeUpper <;> decide
    rw [hi] at hr
    cases includeLower with
    | true => exact reads_closedRange hr
    | false => exact reads_openRange hr
  · cases includeLower <;> exact notMem_of_bars hb (by decide) (by decide)

end Bounds

section Predicates

def body : Predicate → String
  | .isNot v => v.term
  | .isNull => "[* TO *]"
  | p => p.fragment

theorem fragment_toList (p : Predicate) :
    p.fragment.toList = (if p.isExclusion then ['-'] else []) ++ (body p).toList := by
  cases p <;> simp [Predicate.fragment, Predicate.isExclusion, body]

theorem endsToken_of_isNumberMark {c : Char} (h : Number.isNumberMark c = true) :
    endsToken c = false := by
  have hmark : ∀ d ∈ ['.', '-', 'i', 'n', 'f', 'N', 'a'], (!endsToken d) = true :=
    List.all_eq_true.1 (by decide)
  simp only [Number.isNumberMark, Number.isPlainMark, Bool.or_eq_true, decide_eq_true_eq] at h
  rcases h with (hd | rfl) | hm
  · have hb := Text.isBlank_of_isDigit hd
    have hp : c ≠ ')' := fun he => absurd (he ▸ hd) (by decide)
    have hc : c ≠ '^' := fun he => absurd (he ▸ hd) (by decide)
    simp [endsToken, hb, hp, hc]
  · decide
  · simpa using hmark c (List.mem_cons_of_mem _ hm)

theorem startsFree_append_cons (hb : Bars barred) (h : startsFree barred s = true) {c : Char}
    (hc : c ∉ ['"', '[', '\x7b', '(', '-']) (t : List Char) :
    startsFree barred (s ++ c :: t) = true := by
  cases s with
  | nil =>
    have hn : c ∉ barred := notMem_of_bars hb (by grind) (by grind)
    simp only [startsFree, List.nil_append, List.head?_cons, Option.all_some, Bool.and_eq_true,
      decide_eq_true_eq]
    exact ⟨by grind, hn⟩
  | cons d s => simpa [startsFree] using h

theorem readsAs_wildcard (hb : Bars barred) (front back : List Char) (hf : isWord front = true)
    (hback : isWord back = true) (hs : startsFree barred front = true) :
    ReadsAs barred (front ++ '*' :: back) (.wildcard (String.ofList (front ++ '*' :: back))) := by
  have hw : isWord (front ++ '*' :: back) = true := by
    simp only [isWord, List.all_append, List.all_cons, Bool.and_eq_true] at hf hback ⊢
    exact ⟨hf, by decide, hback⟩
  have hr := readsAs_word (by simp) (forall_endsToken_of_isWord hw)
    (startsFree_append_cons hb hs (by decide) back)
  rwa [tokenTest_wildcard (tilde_notMem_of_isWord hw) (by simp)] at hr

theorem readsAs_fuzzy (hb : Bars barred) (term distance : List Char) (hw : isWord term = true)
    (hs : startsFree barred term = true) (hd : ∀ c ∈ distance, endsToken c = false) :
    ReadsAs barred (term ++ '~' :: distance) (.fuzzy (String.ofList term)) := by
  have ht : ∀ c ∈ term ++ '~' :: distance, endsToken c = false := by
    intro c hc
    simp only [List.mem_append, List.mem_cons] at hc
    rcases hc with hc | rfl | hc
    · exact forall_endsToken_of_isWord hw c hc
    · decide
    · exact hd c hc
  have hr := readsAs_word (by simp) ht (startsFree_append_cons hb hs (by decide) distance)
  rwa [tokenTest_fuzzy (tilde_notMem_of_isWord hw)] at hr

theorem readsAs_open (hb : Bars barred) :
    ReadsAs barred "[* TO *]".toList (.range none none true true) :=
  @readsAs_range barred .null .null hb rfl rfl (by decide) true true

theorem readsAs_body (hb : Bars barred) (h : isPredicate barred p = true) :
    ReadsAs barred (body p).toList p.test := by
  cases p with
  | is v | isNot v => exact readsAs_term hb h
  | startsWith start =>
    have hp : isWord start.toList = true ∧ startsFree barred start.toList = true := by
      simpa [isPredicate] using h
    have hr := readsAs_wildcard hb start.toList [] hp.1 rfl hp.2
    have ht : (start ++ "*").toList = start.toList ++ ['*'] := by simp
    rwa [← ht, String.ofList_toList] at hr
  | endsWith ending =>
    have hr := readsAs_wildcard hb [] ending.toList rfl h rfl
    have ht : ("*" ++ ending).toList = [] ++ '*' :: ending.toList := by simp
    rwa [← ht, String.ofList_toList] at hr
  | contains part =>
    have hw : isWord (part.toList ++ ['*']) = true := by
      simp only [isWord, List.all_append, Bool.and_eq_true]
      exact ⟨h, by decide⟩
    have hr := readsAs_wildcard hb [] (part.toList ++ ['*']) rfl hw rfl
    have ht : ("*" ++ part ++ "*").toList = [] ++ '*' :: (part.toList ++ ['*']) := by simp
    rwa [← ht, String.ofList_toList] at hr
  | fuzzy term distance =>
    have hp : isWord term.toList = true ∧ startsFree barred term.toList = true := by
      simpa [isPredicate] using h
    cases distance with
    | none =>
      have hr := readsAs_fuzzy hb term.toList [] hp.1 hp.2 (by simp)
      have ht : (term ++ "~").toList = term.toList ++ ['~'] := by simp
      rwa [← ht, String.ofList_toList] at hr
    | some distance =>
      have hr := readsAs_fuzzy hb term.toList (Number.plain.write distance).toList hp.1 hp.2
        fun c hc => endsToken_of_isNumberMark (Number.isNumberMark_of_mem_write (x := distance) hc)
      have ht : (term ++ "~" ++ Number.plain.write distance).toList =
          term.toList ++ '~' :: (Number.plain.write distance).toList := by simp
      rwa [← ht, String.ofList_toList] at hr
  | expression raw =>
    have hp : (raw.toList ≠ [] ∧ ∀ c ∈ raw.toList, endsToken c = false) ∧
        startsFree barred raw.toList = true := by
      simpa [isPredicate] using h
    exact readsAs_word hp.1.1 hp.1.2 hp.2
  | between lower upper includeLower includeUpper =>
    have hp : (isBound lower = true ∧ isBound upper = true) ∧
        Text.occursIn " TO ".toList lower.toText.toList = false := by
      simpa [isPredicate] using h
    exact readsAs_range hb hp.1.1 hp.1.2 hp.2 includeLower includeUpper
  | isNull | isNotNull => exact readsAs_open hb

end Predicates

end SearchMapper.Plain
