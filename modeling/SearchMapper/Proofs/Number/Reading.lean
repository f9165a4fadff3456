import Mathlib
import SearchMapper.Number.Reading

namespace SearchMapper.Number

variable {s front rest : List Char} {c : Char}

def isReadMark (c : Char) : Bool :=
  c.isAlphanum || c ∈ ['.', '+', '-']

theorem isReadMark_of_isDigit (h : c.isDigit = true) : isReadMark c = true := by
  simp [isReadMark, Char.isAlphanum, h]

theorem isReadMark_of_readDigits? {n : Nat} (h : readDigits? s = some n) :
    ∀ c ∈ s, isReadMark c = true := by
  obtain ⟨hs, -⟩ := Option.ite_none_right_eq_some.1 h
  exact fun c hc => isReadMark_of_isDigit (List.all_eq_true.1 hs.2 c hc)

theorem isReadMark_of_readInt? {i : Int} (h : readInt? s = some i) :
    ∀ c ∈ s, isReadMark c = true := by
  have hdigits {r : List Char} (hr : readDigits? r ≠ none) : ∀ c ∈ r, isReadMark c = true := by
    obtain ⟨n, hn⟩ := Option.ne_none_iff_exists'.1 hr
    exact isReadMark_of_readDigits? hn
  unfold readInt? at h
  split at h
  · exact List.forall_mem_cons.2 ⟨by decide, hdigits fun hn => by simp [hn] at h⟩
  · exact List.forall_mem_cons.2 ⟨by decide, hdigits fun hn => by simp [hn] at h⟩
  · exact hdigits fun hn => by simp [hn] at h

theorem isReadMark_of_readExponent? {i : Int} (h : readExponent? s = some i) :
    ∀ c ∈ s, isReadMark c = true := by
  cases s with
  | nil => exact List.forall_mem_nil _
  | cons c r =>
    obtain ⟨hc, hr⟩ := Option.ite_none_right_eq_some.1 h
    refine List.forall_mem_cons.2 ⟨?_, isReadMark_of_readInt? hr⟩
    obtain rfl | rfl := hc <;> decide

theorem isReadMark_of_span (h : Text.span Char.isDigit s = (front, rest))
    (hrest : ∀ c ∈ rest, isReadMark c = true) : ∀ c ∈ s, isReadMark c = true := by
  rw [Text.eq_append_of_span h]
  refine List.forall_mem_append.2 ⟨fun c hc => ?_, hrest⟩
  rw [Text.span, Prod.mk.injEq] at h
  exact isReadMark_of_isDigit (List.mem_takeWhile_imp (h.1 ▸ hc))

theorem isReadMark_of_readDecimal? {d : List Char × Int} (h : readDecimal? s = some d) :
    ∀ c ∈ s, isReadMark c = true := by
  unfold readDecimal? at h
  split at h
  next front rest hfront =>
    refine isReadMark_of_span hfront ?_
    split at h
    next back rest' hback =>
      rw [Option.ite_none_left_eq_some] at h
      obtain ⟨e, he, -⟩ := Option.map_eq_some_iff.1 h.2
      have hmarks := isReadMark_of_readExponent? he
      split at hback
      · exact List.forall_mem_cons.2 ⟨by decide, isReadMark_of_span hback hmarks⟩
      · rwa [(Prod.mk.inj hback).2]

theorem isReadMark_of_name {name : String} (h : String.ofList (s.map Char.toLower) = name)
    (hname : name.toList.all Char.isAlpha = true) : ∀ c ∈ s, isReadMark c = true := by
  subst h
  rw [String.toList_ofList, List.all_map, List.all_eq_true] at hname
  intro c hc
  have halpha : c.isAlpha = true := by simpa using hname c hc
  simp [isReadMark, Char.isAlphanum, halpha]

theorem isReadMark_of_readBinary? {F : Format} {x : Binary F} (h : readBinary? F s = some x) :
    ∀ c ∈ s, isReadMark c = true := by
  unfold readBinary? at h
  split at h
  next negative body hs =>
    have hbody : ∀ c ∈ body, isReadMark c = true := by
      dsimp only at h
      split at h
      next hn => exact hn.elim (isReadMark_of_name · (by decide)) (isReadMark_of_name · (by decide))
      split at h
      next hn => exact isReadMark_of_name hn (by decide)
      obtain ⟨d, hd, -⟩ := Option.map_eq_some_iff.1 h
      exact isReadMark_of_readDecimal? hd
    split at hs
    · rw [← (Prod.mk.inj hs).2] at hbody
      exact List.forall_mem_cons.2 ⟨by decide, hbody⟩
    · rw [← (Prod.mk.inj hs).2] at hbody
      exact List.forall_mem_cons.2 ⟨by decide, hbody⟩
    · rwa [← (Prod.mk.inj hs).2] at hbody

end SearchMapper.Number
