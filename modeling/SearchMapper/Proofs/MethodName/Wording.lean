import Mathlib.Tactic.MkIffOfInductiveProp
import SearchMapper.MethodName.Basic
import SearchMapper.Proofs.Failure
import SearchMapper.Proofs.Text.Words

namespace SearchMapper

namespace MethodName

open Text

def directionWord : Direction → String
  | .asc => "Asc"
  | .desc => "Desc"

/-- The pieces of a method name. The last sort key may be a source without its direction. -/
structure Wording where
  word : String
  modifiers : String := ""
  clauses : List (List String) := []
  orders : List OrderKey := []
  lastSource : Option String := none

namespace Wording

def predicate (clauses : List (List String)) : String :=
  "Or".intercalate (clauses.map "And".intercalate)

def orderClause (lastSource : Option String) : List OrderKey → String
  | [] => lastSource.getD ""
  | key :: keys => key.source ++ directionWord key.direction ++ orderClause lastSource keys

def keys (w : Wording) : List OrderKey :=
  w.orders ++ (w.lastSource.map (⟨·, .asc⟩)).toList

def text (w : Wording) : String :=
  w.word ++ w.modifiers ++
    (if w.clauses = [] then "" else "By" ++ predicate w.clauses) ++
    (if w.keys = [] then "" else "OrderBy" ++ orderClause w.lastSource w.orders)

/-- The text of a condition. No word that parts conditions, clauses or sort keys stands in it. -/
@[mk_iff]
structure IsPart (part : String) : Prop where
  capital : startsUpper part.toList = true
  noOrderBy : ¬"OrderBy".toList <:+: part.toList
  noAnd : ¬StandsIn "And".toList part.toList
  noOr : ¬StandsIn "Or".toList part.toList

/-- The source of a sort key. Behind its first character no direction stands in it. -/
@[mk_iff]
structure IsSource (source : String) : Prop where
  capital : startsUpper source.toList = true
  noAsc : ¬StandsIn "Asc".toList source.toList.tail
  noDesc : ¬StandsIn "Desc".toList source.toList.tail

/-- No piece looks as if another one began in it. -/
@[mk_iff]
structure Clear (w : Wording) : Prop where
  capital : WordEnd w.modifiers.toList
  noBy : ¬"By".toList <:+: w.modifiers.toList
  noFirst : ¬"First".toList <:+: w.modifiers.toList
  noTop : ¬"Top".toList <:+: w.modifiers.toList
  noOrder : ¬"Order".toList <:+ w.modifiers.toList
  clauses : ∀ clause ∈ w.clauses, clause ≠ [] ∧ ∀ part ∈ clause, IsPart part
  sources : ∀ key ∈ w.keys, IsSource key.source

instance (part : String) : Decidable (IsPart part) :=
  decidable_of_iff _ (isPart_iff part).symm

instance (source : String) : Decidable (IsSource source) :=
  decidable_of_iff _ (isSource_iff source).symm

instance (w : Wording) : Decidable w.Clear :=
  decidable_of_iff _ (clear_iff w).symm

end Wording

theorem startsUpper_words :
    ∀ word ∈ ["And", "Or", "By", "Asc", "Desc", "OrderBy"], startsUpper word.toList = true := by
  decide +kernel

theorem lower_words :
    ∀ rest ∈ [['n', 'd'], ['r'], ['s', 'c'], ['e', 's', 'c']], rest.any isUpper = false := by
  decide +kernel

section Subjects

variable {subject : Subject} {word : String} {rest : List Char}

theorem subjects_apart :
    subjects.Pairwise (fun a b => after? a.1.toList b.1.toList = none) ∧
      ∀ a ∈ subjects, a.1.toList.any isUpper = false := by
  decide +kernel

theorem subjectOf?_append {table : List (String × Subject)}
    (hapart : table.Pairwise fun a b => after? a.1.toList b.1.toList = none)
    (hlower : ∀ a ∈ table, a.1.toList.any isUpper = false)
    (hm : (word, subject) ∈ table) (hrest : WordEnd rest) :
    subjectOf? (word.toList ++ rest) table = some (subject, rest) := by
  induction table with
  | nil => cases hm
  | cons first table ih =>
    obtain ⟨hfirst, htable⟩ := List.pairwise_cons.1 hapart
    obtain ⟨hfirstLower, hlowers⟩ := List.forall_mem_cons.1 hlower
    obtain rfl | hm := List.mem_cons.1 hm
    · rw [subjectOf?, after?_append]
      exact if_pos hrest
    · have hnone : after? first.1.toList (word.toList ++ rest) = none := by
        rw [after?_append_of_notMem (hrest.notMem_of_head? hfirstLower), hfirst _ hm]
        rfl
      rw [subjectOf?, hnone]
      exact ih htable hlowers hm

end Subjects

section Cuts

variable {k : Char} {ks p s rest : List Char} {pieces : List (List Char)}

theorem cutAtWord_of_begins (h : startsUpper rest = true) :
    cutAtWord k ks (k :: ks ++ rest) = [] :: cutAtWord k ks rest := by
  rw [List.cons_append, cutAtWord]
  split
  · next hnone => simp [after?_append] at hnone
  · next r hsome =>
    have hr : rest = r := by simpa [after?_append] using hsome
    subst hr
    exact if_pos h

theorem cutAtWord_of_not_begins {c : Char} (h : ¬Begins (k :: ks) (c :: s)) :
    cutAtWord k ks (c :: s) = extend c (cutAtWord k ks s) := by
  rw [cutAtWord]
  split
  · rfl
  · next r hsome =>
    refine if_neg fun hr => h (begins_iff.2 ⟨r, ?_, .inr hr⟩)
    split at hsome
    · next hc => rwa [after?, if_pos hc.symm]
    · cases hsome

theorem foldr_extend (p : List Char) (s : List Char) (pieces : List (List Char)) :
    p.foldr extend (s :: pieces) = (p ++ s) :: pieces := by
  induction p with
  | nil => rfl
  | cons c p ih => rw [List.foldr_cons, ih]; rfl

theorem cutAtWord_append (hks : ks.any isUpper = false) (hs : WordEnd s)
    (hp : ¬StandsIn (k :: ks) p) :
    cutAtWord k ks (p ++ s) = p.foldr extend (cutAtWord k ks s) := by
  induction p with
  | nil => rfl
  | cons c p ih =>
    rw [standsIn_cons, not_or] at hp
    have hfront : ¬Begins (k :: ks) (c :: p ++ s) := by
      rw [begins_append hks hs]
      exact hp.1
    rw [List.cons_append] at hfront ⊢
    rw [cutAtWord_of_not_begins hfront, ih hp.2, List.foldr_cons]

theorem cutAtWord_intercalate (hk : isUpper k = true) (hks : ks.any isUpper = false)
    (hne : pieces ≠ [])
    (h : ∀ p ∈ pieces, startsUpper p = true ∧ ¬StandsIn (k :: ks) p) :
    cutAtWord k ks ((k :: ks).intercalate pieces) = pieces := by
  induction pieces with
  | nil => exact absurd rfl hne
  | cons p pieces ih =>
    obtain ⟨⟨-, hp⟩, hpieces⟩ := List.forall_mem_cons.1 h
    cases pieces with
    | nil =>
      have hcut := cutAtWord_append hks (s := []) (.inl rfl) hp
      rw [cutAtWord, foldr_extend] at hcut
      simpa using hcut
    | cons q pieces =>
      have hq : startsUpper ((k :: ks).intercalate (q :: pieces)) = true := by
        refine intercalate_induction (P := fun s => startsUpper s = true) ?_ (by simp) ?_
        · exact fun p s hp _ => startsUpper_append hp _
        · exact fun p hm => (hpieces p hm).1
      have hword : WordEnd (k :: ks ++ (k :: ks).intercalate (q :: pieces)) := .inr hk
      rw [List.intercalate_cons_cons, List.append_assoc, cutAtWord_append hks hword hp,
        cutAtWord_of_begins hq, ih (by simp) hpieces, foldr_extend, List.append_nil]

end Cuts

section Orders

variable {c : Char} {front p s : List Char} {source : String}

theorem direction?_eq_none (hasc : ¬Begins ['A', 's', 'c'] s)
    (hdesc : ¬Begins ['D', 'e', 's', 'c'] s) : direction? s = none := by
  have hnone {word : List Char} (h : ¬Begins word s) (d : Direction) :
      ((after? word s).bind fun rest =>
        if rest = [] ∨ startsUpper rest then some (d, rest) else none) = none := by
    refine Option.bind_eq_none_iff.2 fun rest hrest => if_neg fun hend => h ?_
    exact begins_iff.2 ⟨rest, hrest, hend⟩
  rw [direction?, hnone hasc, hnone hdesc]
  rfl

theorem direction?_word (d : Direction) (hs : WordEnd s) :
    direction? ((directionWord d).toList ++ s) = some (d, s) := by
  have hend : s = [] ∨ startsUpper s = true := hs
  cases d <;> simp [directionWord, direction?, after?, hend]

theorem ordersFrom_of_none (h : direction? (c :: s) = none) (front : List Char) :
    ordersFrom front (c :: s) = ordersFrom (c :: front) s := by
  rw [ordersFrom]
  split
  · next heq => simp [h] at heq
  · rfl

theorem ordersFrom_nil_cons (c : Char) (s : List Char) :
    ordersFrom [] (c :: s) = ordersFrom [c] s := by
  rw [ordersFrom]
  split
  · exact if_pos rfl
  · rfl

theorem ordersFrom_append (hs : WordEnd s) (hasc : ¬StandsIn ['A', 's', 'c'] p)
    (hdesc : ¬StandsIn ['D', 'e', 's', 'c'] p) (front : List Char) :
    ordersFrom front (p ++ s) = ordersFrom (p.reverse ++ front) s := by
  induction p generalizing front with
  | nil => rfl
  | cons c p ih =>
    rw [standsIn_cons, not_or] at hasc hdesc
    have hnone : direction? (c :: p ++ s) = none := by
      refine direction?_eq_none ?_ ?_
      · rw [begins_append (lower_words _ (by simp)) hs]
        exact hasc.1
      · rw [begins_append (lower_words _ (by simp)) hs]
        exact hdesc.1
    rw [List.cons_append] at hnone ⊢
    rw [ordersFrom_of_none hnone, ih hasc.2 hdesc.2]
    simp

theorem ordersFrom_source (h : Wording.IsSource source) (hs : WordEnd s) :
    ordersFrom [] (source.toList ++ s) = ordersFrom source.toList.reverse s := by
  obtain ⟨hcapital, hasc, hdesc⟩ := h
  cases hl : source.toList with
  | nil => simp [hl, startsUpper] at hcapital
  | cons c p =>
    rw [hl, List.tail_cons] at hasc hdesc
    rw [List.cons_append, ordersFrom_nil_cons, ordersFrom_append hs hasc hdesc, List.reverse_cons]

theorem ordersFrom_word (d : Direction) (hs : WordEnd s) (hfront : front ≠ []) :
    ordersFrom front ((directionWord d).toList ++ s) =
      ⟨String.ofList front.reverse, d⟩ :: ordersFrom [] s := by
  have hword := direction?_word d hs
  cases hl : (directionWord d).toList with
  | nil => cases d <;> simp [directionWord] at hl
  | cons c w =>
    rw [hl] at hword
    rw [List.cons_append] at hword ⊢
    rw [ordersFrom]
    split
    · next heq =>
      rw [hword] at heq
      cases heq
      exact if_neg hfront
    · next heq =>
      rw [hword] at heq
      cases heq

theorem startsUpper_directionWord (d : Direction) (s : List Char) :
    startsUpper ((directionWord d).toList ++ s) = true := by
  cases d <;> exact startsUpper_append (startsUpper_words _ (by simp [directionWord])) s

theorem wordEnd_orderClause {keys : List OrderKey} {last : Option String}
    (hkeys : ∀ key ∈ keys, Wording.IsSource key.source) (hlast : ∀ t ∈ last, Wording.IsSource t) :
    WordEnd (Wording.orderClause last keys).toList := by
  cases keys with
  | nil =>
    cases last with
    | none => exact .inl rfl
    | some t => exact .inr (hlast t rfl).capital
  | cons key keys =>
    simp only [Wording.orderClause, String.toList_append, List.append_assoc]
    exact .inr (startsUpper_append (hkeys key List.mem_cons_self).capital _)

theorem ordersFrom_orderClause {keys : List OrderKey} {last : Option String}
    (hkeys : ∀ key ∈ keys, Wording.IsSource key.source) (hlast : ∀ t ∈ last, Wording.IsSource t) :
    ordersFrom [] (Wording.orderClause last keys).toList =
      keys ++ (last.map (⟨·, .asc⟩)).toList := by
  induction keys with
  | nil =>
    cases last with
    | none => simp [Wording.orderClause, ordersFrom]
    | some t =>
      have ht := hlast t rfl
      have hsource := ordersFrom_source ht (s := []) (.inl rfl)
      have hne := ne_nil_of_startsUpper ht.capital
      rw [List.append_nil, ordersFrom, if_neg (by simpa using hne)] at hsource
      simpa [Wording.orderClause] using hsource
  | cons key keys ih =>
    obtain ⟨hkey, hrest⟩ := List.forall_mem_cons.1 hkeys
    have hne := ne_nil_of_startsUpper hkey.capital
    rw [Wording.orderClause, String.toList_append, String.toList_append, List.append_assoc,
      ordersFrom_source hkey (.inr (startsUpper_directionWord _ _)),
      ordersFrom_word _ (wordEnd_orderClause hrest hlast) (by simpa using hne), ih hrest]
    simp

end Orders

section Predicates

open Wording (IsPart predicate)

variable {a b p s : List Char} {clause : List String} {clauses : List (List String)}

theorem eq_order_of_startsUpper (h : "OrderBy".toList = a ++ b) (ha : a ≠ [])
    (hb : startsUpper b = true) : a = "Order".toList ∧ b = "By".toList := by
  have hcapital : ∀ n < 8, n ≠ 0 → startsUpper ("OrderBy".toList.drop n) = true → n = 5 := by
    decide +kernel
  have htake : a = "OrderBy".toList.take a.length := by simp [h]
  have hdrop : b = "OrderBy".toList.drop a.length := by simp [h]
  have hlength := congrArg List.length h
  simp only [List.length_append] at hlength
  have hfive : a.length = 5 :=
    hcapital _ (by simp at hlength; omega) (by simpa using ha) (hdrop ▸ hb)
  rw [hfive] at htake hdrop
  exact ⟨htake, hdrop⟩

theorem not_orderBy_append (hb : WordEnd b) (ha : ¬"OrderBy".toList <:+: a)
    (hob : ¬"OrderBy".toList <:+: b)
    (hjoint : "Order".toList <:+ a → ¬"By".toList <+: b) : ¬"OrderBy".toList <:+: a ++ b := by
  rw [List.infix_append_iff]
  rintro (h | h | ⟨front, back, hsplit, hfront, hback⟩)
  · exact ha h
  · exact hob h
  · by_cases hf : front = []
    · rw [hf, List.nil_append] at hsplit
      exact hob (hsplit ▸ hback.isInfix)
    · by_cases hn : back = []
      · rw [hn, List.append_nil] at hsplit
        exact ha (hsplit ▸ hfront.isInfix)
      · -- A joint inside of the word is a word's end, and so it stands in front of `By`.
        have hupper : startsUpper back = true := by
          obtain ⟨rest, rfl⟩ := hback
          obtain ⟨c, back, rfl⟩ := List.exists_cons_of_ne_nil hn
          exact hb.resolve_left (by simp)
        obtain ⟨rfl, rfl⟩ := eq_order_of_startsUpper hsplit hf hupper
        exact hjoint hfront hback

def Unordered (s : List Char) : Prop :=
  startsUpper s = true ∧ ¬"OrderBy".toList <:+: s

theorem Unordered.joined {separator : List Char} (hseparator : Unordered separator)
    (horder : ¬"Order".toList <:+ separator) (hhead : separator.head? ≠ some 'B')
    (hp : Unordered p) (hs : Unordered s) : Unordered (p ++ (separator ++ s)) := by
  have hback : ¬"OrderBy".toList <:+: separator ++ s :=
    not_orderBy_append (.inr hs.1) hseparator.2 hs.2 fun h => absurd h horder
  refine ⟨startsUpper_append hp.1 _, ?_⟩
  refine not_orderBy_append (.inr (startsUpper_append hseparator.1 s)) hp.2 hback ?_
  rintro - ⟨rest, hrest⟩
  obtain ⟨c, separator, rfl⟩ := List.exists_cons_of_ne_nil (ne_nil_of_startsUpper hseparator.1)
  have hc : 'B' = c := (List.cons.inj hrest).1
  exact hhead (hc ▸ rfl)

theorem unordered_clause (hne : clause ≠ []) (h : ∀ part ∈ clause, IsPart part) :
    Unordered ("And".intercalate clause).toList := by
  rw [String.toList_intercalate]
  refine intercalate_induction (fun p s hp hs => ?_) (by simpa using hne) ?_
  · exact .joined ⟨startsUpper_words "And" (by simp), by decide⟩ (by decide) (by decide) hp hs
  · rintro _ hm
    obtain ⟨part, hpart, rfl⟩ := List.mem_map.1 hm
    exact ⟨(h part hpart).capital, (h part hpart).noOrderBy⟩

theorem unordered_predicate (hne : clauses ≠ [])
    (h : ∀ clause ∈ clauses, clause ≠ [] ∧ ∀ part ∈ clause, IsPart part) :
    Unordered (predicate clauses).toList := by
  rw [predicate, String.toList_intercalate, List.map_map]
  refine intercalate_induction (fun p s hp hs => ?_) (by simpa using hne) ?_
  · exact .joined ⟨startsUpper_words "Or" (by simp), by decide⟩ (by decide) (by decide) hp hs
  · rintro _ hm
    obtain ⟨clause, hclause, rfl⟩ := List.mem_map.1 hm
    exact unordered_clause (h clause hclause).1 (h clause hclause).2

def conditionOf (part : String) : Condition :=
  ⟨part, String.ofList (Keyword.detect part.toList).1, (Keyword.detect part.toList).2⟩

theorem condition_toList {part : String} (h : part.toList ≠ []) :
    condition part.toList = .ok (conditionOf part) := by
  rw [condition, if_neg h, conditionOf, String.ofList_toList]

theorem conditions_clause (hne : clause ≠ []) (h : ∀ part ∈ clause, IsPart part) :
    (cutAtWord 'A' ['n', 'd'] ("And".intercalate clause).toList).mapM condition =
      .ok (clause.map conditionOf) := by
  have hcut : cutAtWord 'A' ['n', 'd'] ("And".intercalate clause).toList =
      clause.map String.toList := by
    rw [String.toList_intercalate]
    refine cutAtWord_intercalate (startsUpper_words "And" (by simp)) (lower_words _ (by simp))
      (by simpa using hne) ?_
    rintro _ hm
    obtain ⟨part, hpart, rfl⟩ := List.mem_map.1 hm
    exact ⟨(h part hpart).capital, (h part hpart).noAnd⟩
  rw [hcut, mapM_eq_ok_iff, List.forall₂_map_left_iff, List.forall₂_map_right_iff,
    List.forall₂_same]
  exact fun part hm => condition_toList (ne_nil_of_startsUpper (h part hm).capital)

theorem not_standsIn_clause (hne : clause ≠ []) (h : ∀ part ∈ clause, IsPart part) :
    startsUpper ("And".intercalate clause).toList = true ∧
      ¬StandsIn ['O', 'r'] ("And".intercalate clause).toList := by
  have hlower : ['r'].any isUpper = false := lower_words _ (by simp)
  rw [String.toList_intercalate]
  refine intercalate_induction (P := fun s => startsUpper s = true ∧ ¬StandsIn ['O', 'r'] s)
    (fun p s hp hs => ⟨startsUpper_append hp.1 _, ?_⟩) (by simpa using hne) ?_
  · have hback : ¬StandsIn ['O', 'r'] ("And".toList ++ s) :=
      not_standsIn_append hlower (.inr hs.1) (by decide) hs.2
    have hand : startsUpper ("And".toList ++ s) = true :=
      startsUpper_append (startsUpper_words _ (by simp)) s
    exact not_standsIn_append hlower (.inr hand) hp.2 hback
  · rintro _ hm
    obtain ⟨part, hpart, rfl⟩ := List.mem_map.1 hm
    exact ⟨(h part hpart).capital, (h part hpart).noOr⟩

theorem clausesOf_predicate (hne : clauses ≠ [])
    (h : ∀ clause ∈ clauses, clause ≠ [] ∧ ∀ part ∈ clause, IsPart part) :
    clausesOf (predicate clauses).toList = .ok (clauses.map (·.map conditionOf)) := by
  have hcut : cutAtWord 'O' ['r'] (predicate clauses).toList =
      clauses.map fun clause => ("And".intercalate clause).toList := by
    rw [predicate, String.toList_intercalate, List.map_map]
    refine cutAtWord_intercalate (startsUpper_words "Or" (by simp)) (lower_words _ (by simp))
      (by simpa using hne) ?_
    rintro _ hm
    obtain ⟨clause, hclause, rfl⟩ := List.mem_map.1 hm
    exact not_standsIn_clause (h clause hclause).1 (h clause hclause).2
  have hnil := ne_nil_of_startsUpper (unordered_predicate hne h).1
  rw [clausesOf, if_neg hnil, hcut, mapM_eq_ok_iff, List.forall₂_map_left_iff,
    List.forall₂_map_right_iff, List.forall₂_same]
  exact fun clause hm => conditions_clause (h clause hm).1 (h clause hm).2

end Predicates

section Names

variable {name : String} {subject : Subject} {rest head modifiers : List Char}
  {predicate orderClause : Option (List Char)} {clauses : List (List Condition)}
  {orders : List OrderKey} {limit : Option Nat}

theorem ofText_of_cuts (hsubject : subjectOf? name.toList subjects = some (subject, rest))
    (horder : cutOr "OrderBy" rest = (head, orderClause))
    (hby : cutOr "By" head = (modifiers, predicate))
    (hclauses : clausesOf (predicate.getD []) = .ok clauses)
    (horders : ordersOf name orderClause = .ok orders) (hlimit : limitIn modifiers = .ok limit) :
    ofText name = .ok
      ⟨name, subject, occursIn "Distinct".toList modifiers, limit, clauses, orders⟩ := by
  simp only [ofText, hsubject, horder, hby, hclauses, horders, hlimit]
  rfl

theorem cutOr_append {word : String} {k : Char} {ks : List Char} (hword : word.toList = k :: ks)
    (hk : k ∉ ks) (h : ¬word.toList <:+: head) (back : List Char) :
    cutOr word (head ++ (word.toList ++ back)) = (head, some back) := by
  rw [hword] at h
  rw [cutOr, hword, cut?_append_of_not_infix hk h]

theorem cutOr_of_not_infix {word : String} (h : ¬word.toList <:+: head) :
    cutOr word head = (head, none) := by
  rw [cutOr, cut?_eq_none_iff.2 h]

theorem limitIn_eq_none (hfirst : ¬"First".toList <:+: modifiers)
    (htop : ¬"Top".toList <:+: modifiers) : limitIn modifiers = .ok none := by
  rw [limitIn, cut?_eq_none_iff.2 hfirst, cut?_eq_none_iff.2 htop]

end Names

namespace Wording

variable {w : Wording}

def head (w : Wording) : List Char :=
  w.modifiers.toList ++ if w.clauses = [] then [] else "By".toList ++ (predicate w.clauses).toList

def orderText (w : Wording) : List Char :=
  if w.keys = [] then [] else "OrderBy".toList ++ (orderClause w.lastSource w.orders).toList

theorem toList_text (w : Wording) : w.text.toList = w.word.toList ++ (w.head ++ w.orderText) := by
  simp only [text, head, orderText]
  split <;> split <;> simp

theorem Clear.wordEnd_rest (h : w.Clear) : WordEnd (w.head ++ w.orderText) := by
  have horders : WordEnd w.orderText := by
    rw [orderText]
    split
    · exact .inl rfl
    · exact .inr (startsUpper_append (startsUpper_words _ (by simp)) _)
  rw [wordEnd_append horders, head, wordEnd_append]
  · exact h.capital
  · split
    · exact .inl rfl
    · exact .inr (startsUpper_append (startsUpper_words _ (by simp)) _)

theorem Clear.not_orderBy_head (h : w.Clear) : ¬"OrderBy".toList <:+: w.head := by
  have hmodifiers : ¬"OrderBy".toList <:+: w.modifiers.toList := fun hm =>
    h.noBy (List.IsInfix.trans (by decide) hm)
  rw [head]
  split
  · rwa [List.append_nil]
  · next hne =>
    obtain ⟨hcapital, hfree⟩ := unordered_predicate hne h.clauses
    have hby : ¬"OrderBy".toList <:+: "By".toList ++ (predicate w.clauses).toList :=
      not_orderBy_append (.inr hcapital) (by decide) hfree fun hm => absurd hm (by decide)
    have hend : WordEnd ("By".toList ++ (predicate w.clauses).toList) :=
      .inr (startsUpper_append (startsUpper_words _ (by simp)) _)
    exact not_orderBy_append hend hmodifiers hby fun hm => absurd hm h.noOrder

theorem Clear.cutOr_orderBy (h : w.Clear) : cutOr "OrderBy" (w.head ++ w.orderText) =
    (w.head, if w.keys = [] then none else some (orderClause w.lastSource w.orders).toList) := by
  rw [orderText]
  split
  · rw [List.append_nil, cutOr_of_not_infix h.not_orderBy_head]
  · exact cutOr_append rfl (by decide) h.not_orderBy_head _

theorem Clear.cutOr_by (h : w.Clear) : cutOr "By" w.head =
    (w.modifiers.toList, if w.clauses = [] then none else some (predicate w.clauses).toList) := by
  rw [head]
  split
  · rw [List.append_nil, cutOr_of_not_infix h.noBy]
  · exact cutOr_append rfl (by decide) h.noBy _

theorem Clear.clausesOf_eq (h : w.Clear) :
    clausesOf ((if w.clauses = [] then none else some (predicate w.clauses).toList).getD []) =
      .ok (w.clauses.map (·.map conditionOf)) := by
  split
  · next hnil => simp [hnil, clausesOf]
  · next hne => exact clausesOf_predicate hne h.clauses

theorem Clear.ordersOf_eq (h : w.Clear) (name : String) :
    ordersOf name (if w.keys = [] then none else some (orderClause w.lastSource w.orders).toList) =
      .ok w.keys := by
  have hkeys : ordersFrom [] (orderClause w.lastSource w.orders).toList = w.keys := by
    refine ordersFrom_orderClause (fun key hm => ?_) fun source hm => ?_
    · exact h.sources key (List.mem_append_left _ hm)
    · rw [Option.mem_def] at hm
      exact h.sources ⟨source, .asc⟩ (List.mem_append_right _ (by simp [hm]))
  split
  · next hnil => rw [hnil]; rfl
  · next hne =>
    rw [ordersOf, hkeys]
    cases hk : w.keys with
    | nil => exact absurd hk hne
    | cons key keys => rfl

end Wording

/-- Reading undoes writing. -/
theorem ofText_text {w : Wording} {subject : Subject} (hsubject : (w.word, subject) ∈ subjects)
    (h : w.Clear) :
    ∃ m, ofText w.text = .ok m ∧ m.subject = subject ∧
      m.clauses.map (·.map Condition.raw) = w.clauses ∧ m.orders = w.keys ∧ m.limit = none ∧
      (m.distinct = true ↔ "Distinct".toList <:+: w.modifiers.toList) := by
  have hread : subjectOf? w.text.toList subjects = some (subject, w.head ++ w.orderText) := by
    rw [Wording.toList_text]
    exact subjectOf?_append subjects_apart.1 subjects_apart.2 hsubject h.wordEnd_rest
  refine ⟨_, ofText_of_cuts hread h.cutOr_orderBy h.cutOr_by h.clausesOf_eq (h.ordersOf_eq _)
    (limitIn_eq_none h.noFirst h.noTop), rfl, ?_, rfl, rfl, occursIn_iff_infix⟩
  have hraw : Condition.raw ∘ conditionOf = id := rfl
  simp [hraw]

section Books

/-- Colors, orders and Androids are no conjunctions, and a description has no direction. -/
def lookalikes : Wording where
  word := "find"
  modifiers := "DistinctBooks"
  clauses := [["Color", "OrderNumber"], ["AndroidVersionGreaterThan"]]
  orders := [⟨"Description", .desc⟩]
  lastSource := some "Ascent"

theorem text_lookalikes : lookalikes.text = "findDistinctBooksByColorAndOrderNumberOr" ++
    "AndroidVersionGreaterThanOrderByDescriptionDescAscent" := by
  decide +kernel

theorem ofText_text_lookalikes :
    ∃ m, ofText ("findDistinctBooksByColorAndOrderNumberOr" ++
        "AndroidVersionGreaterThanOrderByDescriptionDescAscent") = .ok m ∧ m.subject = .find ∧
      m.clauses.map (·.map Condition.raw) =
        [["Color", "OrderNumber"], ["AndroidVersionGreaterThan"]] ∧
      m.orders = [⟨"Description", .desc⟩, ⟨"Ascent", .asc⟩] ∧ m.distinct = true := by
  have hclear : lookalikes.Clear := by decide +kernel
  obtain ⟨m, hm, hsubject, hclauses, horders, -, hdistinct⟩ :=
    @ofText_text lookalikes .find (by decide) hclear
  rw [text_lookalikes] at hm
  exact ⟨m, hm, hsubject, hclauses, horders, hdistinct.2 (by decide)⟩

end Books

end MethodName

end SearchMapper
