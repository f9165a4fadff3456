import SearchMapper.Query.Value
import SearchMapper.Text.Blank

namespace SearchMapper

namespace Text

theorem isBlank_of_isAlphanum {c : Char} (h : c.isAlphanum = true) : isBlank c = false := by
  have hc : (65 ≤ c.toNat ∧ c.toNat ≤ 90 ∨ 97 ≤ c.toNat ∧ c.toNat ≤ 122) ∨
      48 ≤ c.toNat ∧ c.toNat ≤ 57 := by
    delta Char.isAlphanum Char.isAlpha Char.isUpper Char.isLower Char.isDigit at h
    simp only [Bool.or_eq_true, Bool.and_eq_true, decide_eq_true_eq] at h
    exact h
  simp only [isBlank, Bool.or_eq_false_iff, Bool.and_eq_false_iff, beq_eq_false_iff_ne,
    decide_eq_false_iff_not]
  omega

theorem isBlank_of_isDigit {c : Char} (h : c.isDigit = true) : isBlank c = false :=
  isBlank_of_isAlphanum (by simp [Char.isAlphanum, h])

end Text

namespace Number

theorem isDigit_of_mem_digitsOf {n : Nat} {c : Char} (h : c ∈ digitsOf n) : c.isDigit = true :=
  Nat.isDigit_of_mem_toDigits (by decide) (by decide) h

theorem isDigit_of_mem_ofNat {n : Nat} {c : Char} (h : c ∈ (ofNat n).toList) :
    c.isDigit = true := by
  rw [ofNat, String.toList_ofList] at h
  exact isDigit_of_mem_digitsOf h

theorem ofNat_ne_empty (n : Nat) : ofNat n ≠ "" := by
  intro h
  have hnil : digitsOf n = [] := String.ofList_eq_empty_iff.1 h
  exact Nat.toDigits_ne_nil hnil

theorem ofInt_toList (i : Int) :
    (ofInt i).toList = (if i < 0 then ['-'] else []) ++ (ofNat i.natAbs).toList := by
  unfold ofInt
  split <;> simp

def isPlainMark (c : Char) : Bool :=
  c.isDigit || c = '.'

theorem isPlainMark_of_mem_digitsOf {n : Nat} {c : Char} (h : c ∈ digitsOf n) :
    isPlainMark c = true := by
  simp [isPlainMark, isDigit_of_mem_digitsOf h]

theorem isPlainMark_of_mem_positional {digits : List Char} {place : Int}
    (hd : ∀ c ∈ digits, isPlainMark c = true) {c : Char} (h : c ∈ positional [] digits place) :
    isPlainMark c = true := by
  have hz : ∀ n, c ∈ List.replicate n '0' → isPlainMark c = true := by
    intro n hc
    rw [(List.mem_replicate.1 hc).2]
    decide
  unfold positional at h
  split at h
  · simp only [List.mem_cons, List.mem_append] at h
    rcases h with rfl | rfl | hc | hc
    · decide
    · decide
    · exact hz _ hc
    · exact hd c hc
  · split at h
    · simp only [List.mem_append, List.not_mem_nil, or_false] at h
      exact h.elim (hd c) (hz _)
    · simp only [List.mem_append, List.mem_cons] at h
      rcases h with hc | rfl | hc
      · exact hd c (List.mem_of_mem_take hc)
      · decide
      · exact hd c (List.mem_of_mem_drop hc)

theorem mem_digitsOf_of_mem_significant {d : Decimal} {c : Char} (h : c ∈ (significant d).1) :
    c ∈ digitsOf d.digits :=
  List.mem_reverse.1 (List.dropWhile_subset _ (List.mem_reverse.1 h))

theorem isPlainMark_of_mem_magnitude {F : Format} {m : Nat} {q : Int} {c : Char}
    (h : c ∈ plain.magnitude F m q) : isPlainMark c = true := by
  unfold Style.magnitude at h
  split at h
  · rw [List.mem_singleton.1 h]
    decide
  · exact isPlainMark_of_mem_positional
      (fun c hc => isPlainMark_of_mem_digitsOf (mem_digitsOf_of_mem_significant hc)) h

def isNumberMark (c : Char) : Bool :=
  isPlainMark c || c ∈ ['-', 'i', 'n', 'f', 'N', 'a']

theorem isNumberMark_of_mem_write {F : Format} {x : Binary F} {c : Char}
    (h : c ∈ (plain.write x).toList) : isNumberMark c = true := by
  cases x with
  | finite s m q canonical =>
    simp only [Style.write, String.toList_append, String.toList_ofList, List.mem_append] at h
    rcases h with h | h
    · cases s <;> simp_all [isNumberMark]
    · simp [isNumberMark, isPlainMark_of_mem_magnitude h]
  | infinite s => cases s <;> simp_all [Style.write, isNumberMark] <;> grind
  | nan => simp_all [Style.write, isNumberMark]; grind

end Number

namespace Value

open Number (isPlainMark isPlainMark_of_mem_digitsOf isPlainMark_of_mem_magnitude)

theorem isPlainMark_of_mem_floatText {x : Number.Double} (hf : x.isFinite = true)
    (hn : x.isNegative = false) {c : Char} (h : c ∈ (floatText x).toList) :
    isPlainMark c = true := by
  have hw : ∀ c ∈ (Number.plain.write x).toList, isPlainMark c = true := by
    intro c hc
    cases x with
    | finite s m q canonical =>
      have hs : s = false := hn
      simp only [hs, Number.Style.write, Bool.false_eq_true, if_false, String.toList_append,
        String.toList_ofList, List.mem_append] at hc
      exact isPlainMark_of_mem_magnitude (hc.resolve_left (by simp))
    | infinite s => simp [Number.Binary.isFinite] at hf
    | nan => simp [Number.Binary.isFinite] at hf
  unfold floatText at h
  split at h
  · split at h
    · simp only [hn, Bool.false_eq_true, if_false, String.toList_append, Number.ofNat,
        String.toList_ofList, List.mem_append] at h
      rcases h with (h | h) | h
      · simp at h
      · exact isPlainMark_of_mem_digitsOf h
      · have hc : c = '.' ∨ c = '0' := by simpa using h
        rcases hc with rfl | rfl <;> decide
    · exact hw c h
  · exact hw c h

end Value

namespace Time

def isStampMark (c : Char) : Bool :=
  c.isDigit || c ∈ ['-', '+', ':', '.', 'T', 'Z']

theorem isDigit_of_mem_padded {width n : Nat} {c : Char} (h : c ∈ (padded width n).toList) :
    c.isDigit = true := by
  rw [padded, String.toList_ofList, List.mem_append] at h
  obtain h | h := h
  · rw [(List.mem_replicate.1 h).2]
    decide
  · exact Number.isDigit_of_mem_digitsOf h

theorem isBlank_of_isStampMark {c : Char} (h : isStampMark c = true) : Text.isBlank c = false := by
  rw [isStampMark, Bool.or_eq_true] at h
  obtain h | h := h
  · exact Text.isBlank_of_isDigit h
  · have hmark : c = '-' ∨ c = '+' ∨ c = ':' ∨ c = '.' ∨ c = 'T' ∨ c = 'Z' := by simpa using h
    rcases hmark with rfl | rfl | rfl | rfl | rfl | rfl <;> rfl

theorem all_isStampMark_padded (width n : Nat) :
    (padded width n).toList.all isStampMark = true :=
  List.all_eq_true.2 fun c hc => by simp [isStampMark, isDigit_of_mem_padded hc]

theorem all_isStampMark_yearText (year : Int) : (yearText year).toList.all isStampMark = true := by
  unfold yearText
  split
  · exact all_isStampMark_padded 4 _
  · rw [String.toList_append, List.all_append, all_isStampMark_padded, Bool.and_true]
    split <;> decide

theorem all_isStampMark_wholeText (t : Instant) : t.wholeText.toList.all isStampMark = true := by
  simp [Instant.wholeText, Date.text, all_isStampMark_padded, all_isStampMark_yearText, isStampMark]

theorem all_isStampMark_text (t : Instant) : t.text.toList.all isStampMark = true := by
  simp [Instant.text, all_isStampMark_wholeText, all_isStampMark_padded, isStampMark]

theorem fractionText_cases (nanos : Nat) : Instant.fractionText nanos = "" ∨
    ∃ width n, Instant.fractionText nanos = "." ++ padded width n := by
  unfold Instant.fractionText
  split
  · exact .inl rfl
  · split
    · exact .inr ⟨_, _, rfl⟩
    · split <;> exact .inr ⟨_, _, rfl⟩

theorem all_isStampMark_exactText (t : Instant) : t.exactText.toList.all isStampMark = true := by
  have hfraction : (Instant.fractionText t.secondOfMinute.2).toList.all isStampMark = true := by
    obtain h | ⟨width, n, h⟩ := fractionText_cases t.secondOfMinute.2
    · rw [h]
      rfl
    · rw [h, String.toList_append, List.all_append, all_isStampMark_padded]
      rfl
  simp [Instant.exactText, all_isStampMark_wholeText, hfraction, isStampMark]

end Time

end SearchMapper
