import Mathlib
import SearchMapper.Mapping.Declaration.CaseRule
import SearchMapper.Proofs.Mapping.Paths
import SearchMapper.Proofs.Text.Scanning

namespace SearchMapper

namespace Text

variable {c : Char} {s : List Char}

theorem lower_toUpper (h : c.isLower = true) :
    isUpper c.toUpper = true ∧ lowerChar c.toUpper = [c] ∧ c.toUpper ≠ c ∧ c.toUpper ≠ '_' := by
  have hall : ∀ n < 128, (Char.ofNat n).isLower = true →
      isUpper (Char.ofNat n).toUpper = true ∧ lowerChar (Char.ofNat n).toUpper = [Char.ofNat n] ∧
        (Char.ofNat n).toUpper ≠ Char.ofNat n ∧ (Char.ofNat n).toUpper ≠ '_' := by
    decide
  have hn : c.toNat < 128 := by
    simp only [Char.isLower, Bool.and_eq_true, decide_eq_true_eq] at h
    have hz : c.val.toNat ≤ 122 := UInt32.le_iff_toNat_le.1 h.2
    exact Nat.lt_of_le_of_lt hz (by decide)
  have hc := hall c.toNat hn
  rw [Char.ofNat_toNat] at hc
  exact hc h

theorem decapitalize_toUpper (hc : c.isLower = true) (s : List Char) :
    decapitalize (c.toUpper :: s) = if startsUpper s then c.toUpper :: s else c :: s := by
  obtain ⟨hupper, hlower, -⟩ := lower_toUpper hc
  cases s with
  | nil => exact hlower
  | cons d s => cases hd : isUpper d <;> simp [decapitalize, startsUpper, hupper, hlower, hd]

end Text

namespace Path

open Property (Indexed chainsIn)
open Text (startsUpper)

variable {properties : Dictionary Property} {p : Property} {source : List Char}

theorem lookup?_of_resolveWords (hi : Indexed properties)
    (h : resolveWords properties source = some [p]) : lookup? properties source = some p := by
  obtain ⟨-, ⟨p', hp', hchain⟩ | ⟨-, hsplit⟩⟩ := resolveWords_cases h
  · cases hchain
    exact hp'
  · obtain ⟨⟨front, rest⟩, -, hsplit⟩ := List.exists_of_findSome?_eq_some hsplit
    obtain ⟨p', children, deeper, hp', hchildren, hdeeper, hchain⟩ := resolveSplit_eq_some.1 hsplit
    cases hchain
    obtain ⟨key, hkey⟩ := exists_find?_of_lookup? hp'
    have hmem := resolveWords_mem_chainsIn (hi.children hkey hchildren) hdeeper
    exact absurd hmem Property.nil_notMem_chainsIn

theorem resolvePieces_ne_singleton (hi : Indexed properties) (first next : List Char)
    (rest : List (List Char)) :
    resolvePieces properties (first :: next :: rest) ≠ some [p] := by
  intro h
  obtain ⟨chain, hchain, h⟩ := Option.bind_eq_some_iff.1 h
  obtain ⟨children, hchildren, h⟩ := Option.bind_eq_some_iff.1 h
  obtain ⟨deeper, hdeeper, h⟩ := Option.bind_eq_some_iff.1 h
  have hmem := resolveWords_mem_chainsIn hi hchain
  have hindexed := (hi.getLast?_children hmem hchildren).1
  have hfront := List.length_pos_iff.2 (Property.ne_nil_of_mem_chainsIn hmem)
  have hback := List.length_pos_iff.2
    (Property.ne_nil_of_mem_chainsIn (resolvePieces_mem_chainsIn hindexed hdeeper))
  have hlength := congrArg List.length (Option.some.inj h)
  simp only [List.length_append, List.length_singleton] at hlength
  omega

end Path

namespace Entity

open Declaration (CaseRule)
open Property (Indexed)
open Text (startsUpper)

/-- A name as a method name writes it. -/
def capitalized (name : String) : String :=
  String.ofList (CaseRule.mapFirst Char.toUpper name.toList)

variable {e : Entity} {name : String} {p : Property} {c : Char} {s : List Char}

theorem path_eq_ok_iff {source : String} {path : Path} :
    e.path source = .ok path ↔
      Path.resolvePieces e.properties (Text.pieces '_' source.toList) = some path.properties := by
  obtain ⟨chain⟩ := path
  rw [Entity.path, path?]
  cases Path.resolvePieces e.properties (Text.pieces '_' source.toList) <;> simp

theorem lookup?_toUpper (hi : Indexed e.properties) (hp : e.properties.find? name = some p)
    (hname : name.toList = c :: s) (hc : c.isLower = true) :
    Path.lookup? e.properties (c.toUpper :: s) = some p ↔ startsUpper s = false := by
  obtain ⟨-, -, hne, -⟩ := Text.lower_toUpper hc
  have hkept : name = String.ofList (c :: s) := by
    rw [← hname, String.ofList_toList]
  rw [Path.lookup?, Text.decapitalize_toUpper hc]
  cases hs : startsUpper s with
  | false => simp [← hkept, hp]
  | true =>
    simp only [if_true, Option.or_self, Bool.true_eq_false, iff_false]
    intro hother
    have hsame := (hi.name_eq hp).symm.trans (hi.name_eq hother)
    rw [hkept, String.ofList_inj] at hsame
    exact hne (List.cons.inj hsame).1.symm

/-- A top-level property whose name begins with a small letter is the path of its capitalised name
just if the name has no underscore and no capital in the second place. -/
theorem path_capitalized_iff {table : TypeTable} {type : String} {ds : List Descriptor}
    (he : Entity.ofDescriptors table type ds = .ok e) (hp : e.properties.find? name = some p)
    (hname : name.toList = c :: s) (hc : c.isLower = true) :
    (⟨[p]⟩ : Path).segments = [name] ∧
      (e.path (capitalized name) = .ok ⟨[p]⟩ ↔ '_' ∉ name.toList ∧ startsUpper s = false) := by
  have hi := (indexed_of_ofDescriptors he).1
  refine ⟨congrArg (fun name => [name]) (hi.name_eq hp), ?_⟩
  obtain ⟨-, -, -, hunderscore⟩ := Text.lower_toUpper hc
  have hcapital : (capitalized name).toList = c.toUpper :: s := by
    rw [capitalized, hname, String.toList_ofList, CaseRule.mapFirst]
  have hc' : c ≠ '_' := by
    rintro rfl
    cases hc
  rw [path_eq_ok_iff, hcapital, hname, List.mem_cons, not_or, and_iff_right hc'.symm]
  by_cases hm : '_' ∈ s
  · obtain ⟨first, next, rest, hpieces⟩ := Text.exists_pieces_of_mem (List.mem_cons_of_mem _ hm)
    rw [hpieces]
    simp [Path.resolvePieces_ne_singleton hi, hm]
  · have hpieces : Text.pieces '_' (c.toUpper :: s) = [c.toUpper :: s] :=
      Text.pieces_eq_singleton (by simp [hunderscore.symm, hm])
    rw [hpieces, and_iff_right hm, ← lookup?_toUpper hi hp hname hc]
    exact ⟨Path.lookup?_of_resolveWords hi, Path.resolveWords_of_lookup? (by simp)⟩

section Plots

def plotProperties : List Descriptor :=
  [{ name := "id" }, { name := "unit1" }, { name := "unit_price" }, { name := "xAxis" }]

def plotUnit : Property :=
  ⟨"unit1", "unit1", false, none⟩

def plotEntity : Entity :=
  ⟨"Plot", ⟨"id", "id", true, none⟩,
    [("id", ⟨"id", "id", true, none⟩), ("unit1", plotUnit),
      ("unit_price", ⟨"unit_price", "unit_price", false, none⟩),
      ("xAxis", ⟨"xAxis", "xAxis", false, none⟩)]⟩

theorem ofDescriptors_plot : ofDescriptors [] "Plot" plotProperties = .ok plotEntity := rfl

theorem path_capitalized_iff_plot : plotEntity.path "Unit1" = .ok ⟨[plotUnit]⟩ := by
  have hfound : plotEntity.properties.find? "unit1" = some plotUnit := rfl
  obtain ⟨-, hpath⟩ := path_capitalized_iff ofDescriptors_plot hfound rfl rfl
  exact hpath.2 ⟨by decide, by decide⟩

/-- Neither a name of two words nor one whose second letter is a capital is found. -/
theorem path_capitalized_unknown :
    ofDescriptors [] "Plot" plotProperties = .ok plotEntity ∧
      (plotEntity.properties.find? "unit_price").isSome ∧
      plotEntity.path (capitalized "unit_price") = .error (.unknownProperty "unit_price" "Plot") ∧
      (plotEntity.properties.find? "xAxis").isSome ∧
      plotEntity.path (capitalized "xAxis") = .error (.unknownProperty "XAxis" "Plot") := by
  refine ⟨ofDescriptors_plot, rfl, ?_, rfl, ?_⟩
  · cbv
  · cbv

end Plots

end Entity

end SearchMapper
