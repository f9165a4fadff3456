import SearchMapper.Query.Template
import SearchMapper.Proofs.Failure
import SearchMapper.Proofs.Text.Scanning

namespace SearchMapper.Template

inductive Token
  | literal (c : Char)
  | placeholder (digits : List Char)

def EndsDigits (s : List Char) : Prop :=
  ∀ c ∈ s.head?, c.isDigit = false

theorem endsDigits_cons_iff {c : Char} {s : List Char} :
    EndsDigits (c :: s) ↔ c.isDigit = false := by
  simp [EndsDigits]

instance : (s : List Char) → Decidable (EndsDigits s)
  | [] => .isTrue nofun
  | _ :: _ => decidable_of_iff _ endsDigits_cons_iff.symm

/-- A question mark takes all digits behind it, at least one. All else is literal. -/
inductive Reads : List Char → List Token → Prop
  | nil : Reads [] []
  | literal {c : Char} {s : List Char} {tokens : List Token} (hc : c = '?' → EndsDigits s)
      (hs : Reads s tokens) : Reads (c :: s) (.literal c :: tokens)
  | placeholder {digits s : List Char} {tokens : List Token} (hne : digits ≠ [])
      (hdigits : ∀ c ∈ digits, c.isDigit = true) (hend : EndsDigits s) (hs : Reads s tokens) :
      Reads ('?' :: (digits ++ s)) (.placeholder digits :: tokens)

/-- The number of the parameter. One that does not fit 64 bits counts as the largest that does. -/
def indexOf (digits : List Char) : Nat :=
  if Number.ofDigits digits < UInt64.size then Number.ofDigits digits else 18446744073709551615

inductive Shows (params : List Value) : Token → List Char → Prop
  | literal (c : Char) : Shows params (.literal c) [c]
  | placeholder {digits : List Char} {v : Value} (hv : params[indexOf digits]? = some v) :
      Shows params (.placeholder digits) v.toText.toList

def InRange (params : List Value) (tokens : List Token) : Prop :=
  ∀ digits, .placeholder digits ∈ tokens → indexOf digits < params.length

variable {params : List Value} {s t digits : List Char} {tokens tokens' : List Token}

section Readings

theorem endsDigits_dropWhile (s : List Char) : EndsDigits (s.dropWhile Char.isDigit) := by
  intro c hc
  have hhead := List.head?_dropWhile_not Char.isDigit s
  rw [Option.mem_def.1 hc] at hhead
  simpa using hhead

theorem exists_reads (s : List Char) : ∃ tokens, Reads s tokens := by
  induction hn : s.length using Nat.strongRecOn generalizing s with
  | ind n ih =>
    subst hn
    cases s with
    | nil => exact ⟨[], .nil⟩
    | cons c s =>
      by_cases hc : c = '?' ∧ s.takeWhile Char.isDigit ≠ []
      · obtain ⟨rfl, hne⟩ := hc
        obtain ⟨tokens, hs⟩ := ih (s.dropWhile Char.isDigit).length
          (Nat.lt_succ_of_le (List.dropWhile_suffix _).length_le) _ rfl
        refine ⟨.placeholder (s.takeWhile Char.isDigit) :: tokens, ?_⟩
        rw [← List.takeWhile_append_dropWhile (p := Char.isDigit) (l := s)]
        simpa using Reads.placeholder hne (fun _ hd => List.mem_takeWhile_imp hd)
          (endsDigits_dropWhile s) hs
      · obtain ⟨tokens, hs⟩ := ih s.length (Nat.lt_succ_self _) s rfl
        refine ⟨.literal c :: tokens, .literal (fun h => ?_) hs⟩
        have hnil : s.takeWhile Char.isDigit = [] := by simpa [h] using hc
        have hend := endsDigits_dropWhile s
        rwa [← s.takeWhile_append_dropWhile (p := Char.isDigit), hnil]

theorem not_endsDigits_append (hne : digits ≠ []) (hdigits : ∀ c ∈ digits, c.isDigit = true)
    (s : List Char) : ¬EndsDigits (digits ++ s) := by
  obtain ⟨d, digits, rfl⟩ := List.exists_cons_of_ne_nil hne
  intro h
  have hd := hdigits d List.mem_cons_self
  rw [h d rfl] at hd
  cases hd

theorem Reads.unique (h : Reads s tokens) (h' : Reads s tokens') : tokens = tokens' := by
  induction h generalizing tokens' with
  | nil =>
    cases h'
    rfl
  | literal hc _ ih =>
    cases h' with
    | literal _ hs' => rw [ih hs']
    | placeholder hne hdigits => exact absurd (hc rfl) (not_endsDigits_append hne hdigits _)
  | @placeholder digits s tokens hne hdigits hend _ ih =>
    generalize ht : '?' :: (digits ++ s) = text at h'
    cases h' with
    | nil => cases ht
    | literal hc' _ =>
      cases ht
      exact absurd (hc' rfl) (not_endsDigits_append hne hdigits s)
    | @placeholder digits' s' _ _ hdigits' hend' hs' =>
      -- Both runs of digits end where the digits do.
      have hspan := Text.span_append hdigits hend
      rw [(List.cons.inj ht).2, Text.span_append hdigits' hend'] at hspan
      obtain ⟨rfl, rfl⟩ := Prod.mk.inj hspan
      rw [ih hs']

/-- Texts that are read one after the other are read as one, unless digits of the second continue
a placeholder of the first. -/
theorem Reads.append (h : Reads s tokens) (h' : Reads t tokens') (ht : EndsDigits t) :
    Reads (s ++ t) (tokens ++ tokens') := by
  have hend {s : List Char} (hs : EndsDigits s) : EndsDigits (s ++ t) := by
    cases s with
    | nil => exact ht
    | cons c s => exact hs
  induction h with
  | nil => exact h'
  | literal hc _ ih => exact .literal (fun h => hend (hc h)) ih
  | placeholder hne hdigits hs _ ih =>
    rw [List.cons_append, List.append_assoc]
    exact .placeholder hne hdigits (hend hs) ih

end Readings

section Binding

def textOf (params : List Value) : Token → Except Error (List Char)
  | .literal c => .ok [c]
  | .placeholder digits => parameter params digits

theorem parameter_eq (params : List Value) (digits : List Char) :
    parameter params digits = match params[indexOf digits]? with
      | some v => .ok v.toText.toList
      | none => .error (.parameterOutOfRange (indexOf digits) params.length) := by
  have hindex : min (Number.ofDigits digits) (UInt64.size - 1) = indexOf digits := by
    have hsize : UInt64.size = 18446744073709551616 := rfl
    unfold indexOf
    split <;> omega
  exact hindex ▸ rfl

theorem textOf_eq_ok_iff {token : Token} {text : List Char} :
    textOf params token = .ok text ↔ Shows params token text := by
  cases token with
  | literal c =>
    refine ⟨fun h => ?_, fun h => ?_⟩
    · cases h
      exact .literal c
    · cases h
      rfl
  | placeholder digits =>
    rw [textOf, parameter_eq]
    cases hv : params[indexOf digits]? with
    | none => exact ⟨nofun, fun h => by cases h; simp_all⟩
    | some v =>
      refine ⟨fun h => ?_, fun h => ?_⟩
      · cases h
        exact .placeholder hv
      · cases h
        simp_all

theorem bindFrom_digits (hdigits : ∀ c ∈ digits, c.isDigit = true) (read s : List Char) :
    bindFrom params (some read) (digits ++ s) =
      bindFrom params (some (digits.reverse ++ read)) s := by
  induction digits generalizing read with
  | nil => rfl
  | cons d digits ih =>
    obtain ⟨hd, hdigits⟩ := List.forall_mem_cons.1 hdigits
    rw [List.cons_append, bindFrom]
    simp only [hd, if_true]
    rw [ih hdigits]
    simp

theorem bindFrom_endsDigits (hs : EndsDigits s) (read : List Char) :
    bindFrom params (some read) s =
      bindFrom.close params (some read) >>= fun text => (text ++ ·) <$> bindFrom params none s := by
  cases s with
  | nil =>
    rw [bindFrom, bindFrom]
    cases bindFrom.close params (some read) with
    | error cause => rfl
    | ok text => exact congrArg Except.ok (List.append_nil text).symm
  | cons c s =>
    have hc : c.isDigit = false := hs c rfl
    rw [bindFrom, bindFrom]
    simp only [hc, Bool.false_eq_true, if_false]
    split
    · simp only [map_eq_pure_bind]
    · simp only [map_eq_pure_bind, bind_assoc, pure_bind]

theorem bindFrom_eq (h : Reads s tokens) :
    bindFrom params none s = List.flatten <$> tokens.mapM (textOf params) := by
  induction h with
  | nil => rfl
  | @literal c s tokens hc _ ih =>
    rw [bindFrom, List.mapM_cons, textOf]
    split
    · next he =>
      rw [bindFrom_endsDigits (hc he), ih, he]
      simp [bindFrom.close]
    · rw [ih]
      simp only [map_eq_pure_bind, bind_assoc, pure_bind]
      rfl
  | @placeholder digits s tokens hne hdigits hend _ ih =>
    have hclose : bindFrom.close params (some (digits.reverse ++ [])) =
        parameter params digits := by
      obtain ⟨d, read, hread⟩ := List.exists_cons_of_ne_nil (List.reverse_ne_nil_iff.2 hne)
      rw [List.append_nil, hread, bindFrom.close, ← hread, List.reverse_reverse]
      simp
    rw [bindFrom, List.mapM_cons, textOf]
    simp only [if_true]
    rw [bindFrom_digits hdigits, bindFrom_endsDigits hend, hclose, ih]
    simp

theorem bind_eq {template : String} (h : Reads template.toList tokens) (params : List Value) :
    bind template params =
      tokens.mapM (textOf params) >>= fun texts => pure (String.ofList texts.flatten) := by
  rw [bind, bindFrom_eq h]
  simp only [map_eq_pure_bind, bind_assoc, pure_bind]

theorem bind_eq_ok_iff {template out : String} (h : Reads template.toList tokens) :
    bind template params = .ok out ↔
      ∃ texts, List.Forall₂ (Shows params) tokens texts ∧ out = String.ofList texts.flatten := by
  have hshows (texts : List (List Char)) :
      tokens.mapM (textOf params) = .ok texts ↔ List.Forall₂ (Shows params) tokens texts :=
    mapM_eq_ok_iff.trans
      ⟨.imp fun _ _ => textOf_eq_ok_iff.1, .imp fun _ _ => textOf_eq_ok_iff.2⟩
  rw [bind_eq h]
  constructor
  · intro hout
    obtain ⟨texts, htexts, hout⟩ := exists_of_bind_eq_ok hout
    exact ⟨texts, (hshows texts).1 htexts, (Except.ok.inj hout).symm⟩
  · rintro ⟨texts, htexts, rfl⟩
    rw [(hshows texts).2 htexts]
    rfl

theorem inRange_iff :
    InRange params tokens ↔ ∀ token ∈ tokens, ∃ text, textOf params token = .ok text := by
  constructor
  · intro h token hm
    cases token with
    | literal c => exact ⟨[c], rfl⟩
    | placeholder digits =>
      exact ⟨_, textOf_eq_ok_iff.2 (.placeholder (List.getElem?_eq_getElem (h digits hm)))⟩
  · intro h digits hm
    obtain ⟨text, htext⟩ := h _ hm
    cases textOf_eq_ok_iff.1 htext with
    | placeholder hv => exact (List.getElem?_eq_some_iff.1 hv).1

theorem textOf_eq_error {token : Token} {cause : Error} (h : textOf params token = .error cause) :
    ∃ digits, token = .placeholder digits ∧ params.length ≤ indexOf digits ∧
      cause = .parameterOutOfRange (indexOf digits) params.length := by
  cases token with
  | literal c => cases h
  | placeholder digits =>
    rw [textOf, parameter_eq] at h
    cases hv : params[indexOf digits]? with
    | some v =>
      rw [hv] at h
      cases h
    | none =>
      rw [hv] at h
      cases h
      exact ⟨digits, rfl, List.getElem?_eq_none_iff.1 hv, rfl⟩

theorem bind_eq_error {template : String} (h : Reads template.toList tokens)
    (hrange : ¬InRange params tokens) :
    ∃ before digits behind, tokens = before ++ .placeholder digits :: behind ∧
      InRange params before ∧ params.length ≤ indexOf digits ∧
      bind template params = .error (.parameterOutOfRange (indexOf digits) params.length) := by
  rw [bind_eq h]
  cases hall : tokens.mapM (textOf params) with
  | ok texts => exact absurd (inRange_iff.2 (exists_mapM_eq_ok_iff.1 ⟨texts, hall⟩)) hrange
  | error cause =>
    obtain ⟨before, token, behind, rfl, hbefore, hfails⟩ := mapM_eq_error_iff.1 hall
    obtain ⟨digits, rfl, hout, rfl⟩ := textOf_eq_error hfails
    exact ⟨before, digits, behind, rfl, inRange_iff.2 hbefore, hout, rfl⟩

end Binding

/-- A template has one reading. If its placeholders are in range they give way to the texts of their
parameters, as these are; else the first one out of range is reported. Templates that succeed can
be bound apart and put together, unless digits would continue a placeholder. -/
theorem bind_of_readings (template : String) (params : List Value) :
    (∃ tokens, Reads template.toList tokens ∧
      (∀ other, Reads template.toList other → other = tokens) ∧
      (InRange params tokens → ∃ texts, List.Forall₂ (Shows params) tokens texts ∧
        bind template params = .ok (String.ofList texts.flatten)) ∧
      (¬InRange params tokens → ∃ before digits behind,
        tokens = before ++ .placeholder digits :: behind ∧ InRange params before ∧
          params.length ≤ indexOf digits ∧
          bind template params = .error (.parameterOutOfRange (indexOf digits) params.length))) ∧
    ∀ back out out', bind template params = .ok out → bind back params = .ok out' →
      EndsDigits back.toList → bind (template ++ back) params = .ok (out ++ out') := by
  obtain ⟨tokens, htokens⟩ := exists_reads template.toList
  refine ⟨⟨tokens, htokens, fun _ h => h.unique htokens, fun hrange => ?_,
    bind_eq_error htokens⟩, ?_⟩
  · obtain ⟨texts, htexts⟩ := exists_mapM_eq_ok_iff.2 (inRange_iff.1 hrange)
    have hshows := (mapM_eq_ok_iff.1 htexts).imp fun _ _ => textOf_eq_ok_iff.1
    exact ⟨texts, hshows, (bind_eq_ok_iff htokens).2 ⟨texts, hshows, rfl⟩⟩
  · intro back out out' hout hout' hback
    obtain ⟨tokens', htokens'⟩ := exists_reads back.toList
    obtain ⟨texts, htexts, rfl⟩ := (bind_eq_ok_iff htokens).1 hout
    obtain ⟨texts', htexts', rfl⟩ := (bind_eq_ok_iff htokens').1 hout'
    have hboth : Reads (template ++ back).toList (tokens ++ tokens') := by
      rw [String.toList_append]
      exact htokens.append htokens' hback
    refine (bind_eq_ok_iff hboth).2 ⟨texts ++ texts', List.rel_append htexts htexts', ?_⟩
    rw [List.flatten_append, String.ofList_append]

section Greetings

def greeting : List Token :=
  [.placeholder ['1'], .placeholder ['0'], .literal '?', .literal '!']

theorem reads_greeting : Reads "?1?0?!".toList greeting := by
  have htext : "?1?0?!".toList = '?' :: (['1'] ++ '?' :: (['0'] ++ ['?', '!'])) := by decide
  rw [htext]
  have hone : ∀ c ∈ ['1'], c.isDigit = true := List.forall_mem_singleton.2 rfl
  have hzero : ∀ c ∈ ['0'], c.isDigit = true := List.forall_mem_singleton.2 rfl
  refine .placeholder (by simp) hone ?_ (.placeholder (by simp) hzero ?_
    (.literal (fun _ => ?_) (.literal (by decide) .nil))) <;> decide

theorem inRange_greeting (params : List Value) : InRange params greeting ↔ 1 < params.length := by
  constructor
  · intro h
    exact h ['1'] List.mem_cons_self
  · intro h digits hm
    simp only [greeting, List.mem_cons, Token.placeholder.injEq, reduceCtorEq, List.not_mem_nil,
      or_false] at hm
    obtain rfl | rfl := hm
    · exact h
    · exact Nat.zero_lt_of_lt h

theorem bind_of_readings_greeting :
    (∃ texts, List.Forall₂ (Shows [.text "Ann", .text "?0 1"]) greeting texts ∧
      bind "?1?0?!" [.text "Ann", .text "?0 1"] = .ok (String.ofList texts.flatten)) ∧
      bind "?1?0?!" [.text "Ann", .text "?0 1"] = .ok "?0 1Ann?!" ∧
      ¬InRange [.text "Ann"] greeting ∧
      bind "?1?0?!" [.text "Ann"] = .error (.parameterOutOfRange 1 1) ∧
      bind ("?1?0?!" ++ "?2") [.text "Ann", .text "?0 1", .null] = .ok ("?0 1Ann?!" ++ "null") := by
  obtain ⟨⟨tokens, -, hunique, hbind, -⟩, -⟩ :=
    bind_of_readings "?1?0?!" [.text "Ann", .text "?0 1"]
  obtain ⟨⟨tokens', -, hunique', -, hfails⟩, -⟩ := bind_of_readings "?1?0?!" [.text "Ann"]
  obtain rfl := hunique _ reads_greeting
  obtain rfl := hunique' _ reads_greeting
  have hone : ¬InRange [.text "Ann"] greeting := fun h =>
    absurd ((inRange_greeting _).1 h) (by decide)
  refine ⟨hbind ((inRange_greeting _).2 (by decide)), by decide, hone, ?_, ?_⟩
  · obtain ⟨before, digits, behind, heq, hbefore, -, hbind⟩ := hfails hone
    cases before with
    | nil =>
      cases heq
      exact hbind
    | cons first before =>
      obtain ⟨rfl, -⟩ := List.cons.inj heq
      exact absurd (hbefore ['1'] List.mem_cons_self) (by decide)
  · exact (bind_of_readings "?1?0?!" [.text "Ann", .text "?0 1", .null]).2 "?2" _ _
      (by decide) (by decide) (by decide)

end Greetings

end SearchMapper.Template
