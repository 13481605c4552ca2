import Mathlib.Data.List.Chain
import Mathlib.Tactic.Lemma
import TableCalc.Expression.Token
import TableCalc.Proofs.Text.Uppercase

/-!
# The cut of an expression into lexemes

The lexemes of an expression are the one way to cut it into operators and runs of other characters
with no two runs next to each other (`lexemes_eq_iff`), and the same can be said lexeme by lexeme
(`cut_iff`). So a run in it can be replaced by another one, and the other lexemes stay as they are
(`Cut.replace`). This goes for a normal form as well, since what is in normal form remains so
(`tokenize_normalize_join`).
-/

namespace TableCalc.Expression

/-- The lexeme is the symbol of an operator. -/
def IsOperator (lexeme : List Char) : Prop := ∃ c, Operator.isSymbol c = true ∧ lexeme = [c]

/-- A lexeme between operators. -/
def IsRun (lexeme : List Char) : Prop := lexeme ≠ [] ∧ ∀ c ∈ lexeme, Operator.isSymbol c = false

/-- Operators and runs in any order, but for two runs next to each other. -/
inductive Cut : List (List Char) → Prop where
  | nil :
    Cut []
  | operator {c rest} :
    Operator.isSymbol c = true →
    Cut rest →
    Cut ([c] :: rest)
  | run {cs rest} :
    IsRun cs →
    (∀ next ∈ rest.head?, IsOperator next) →
    Cut rest →
    Cut (cs :: rest)

/-- A run has no operator in it. -/
lemma IsRun.not_isOperator {cs} (h : IsRun cs) : ¬ IsOperator cs := by
  rintro ⟨c, hc, rfl⟩
  rw [h.2 c (by simp)] at hc
  cases hc

/-- A run grows by characters that are no operators. -/
lemma IsRun.cons {c cs} (hc : Operator.isSymbol c = false) (h : IsRun cs) : IsRun (c :: cs) :=
  ⟨by simp, List.forall_mem_cons.2 ⟨hc, h.2⟩⟩

/-- A character that is no operator is a run. -/
lemma IsRun.singleton {c} (hc : Operator.isSymbol c = false) : IsRun [c] :=
  ⟨by simp, by simpa using hc⟩

/-- In front of an operator a character is a lexeme of its own. -/
lemma prependToLexemes_operator {c d rest} (hd : Operator.isSymbol d = true) :
    prependToLexemes c ([d] :: rest) = [c] :: [d] :: rest :=
  if_pos hd

/-- In front of a run a character is part of it. -/
lemma prependToLexemes_run {c cs rest} (h : IsRun cs) :
    prependToLexemes c (cs :: rest) = (c :: cs) :: rest := by
  obtain ⟨hne, hcs⟩ := h
  cases cs with
  | nil => exact absurd rfl hne
  | cons d ds => simp [prependToLexemes, hcs d (by simp)]

/-- A cut is still one with a character more in front that is no operator. -/
lemma Cut.prepend {c ls} (hc : Operator.isSymbol c = false) (h : Cut ls) :
    Cut (prependToLexemes c ls) := by
  cases h with
  | nil => exact .run (.singleton hc) (by simp) .nil
  | @operator d rest hd h =>
    rw [prependToLexemes_operator hd]
    exact .run (.singleton hc) (by simp [IsOperator, hd]) (.operator hd h)
  | run hrun next h =>
    rw [prependToLexemes_run hrun]
    exact .run (hrun.cons hc) next h

/-- A character in front is added to the text and nothing else. -/
lemma flatten_prependToLexemes {c ls} (h : Cut ls) :
    (prependToLexemes c ls).flatten = c :: ls.flatten := by
  cases h with
  | nil => rfl
  | operator hd _ => rw [prependToLexemes_operator hd, List.flatten_cons, List.singleton_append]
  | run hrun _ _ =>
    rw [prependToLexemes_run hrun, List.flatten_cons, List.flatten_cons, List.cons_append]

/-- The lexemes are a cut of the characters. -/
lemma cut_lexemes (cs : List Char) : Cut (lexemes cs) ∧ (lexemes cs).flatten = cs := by
  induction cs with
  | nil => exact ⟨.nil, rfl⟩
  | cons c cs ih =>
    obtain ⟨cut, flatten⟩ := ih
    unfold lexemes
    split
    case isTrue hc =>
      exact ⟨.operator hc cut, by rw [List.flatten_cons, flatten, List.singleton_append]⟩
    case isFalse hc =>
      exact ⟨cut.prepend (by simpa using hc), by rw [flatten_prependToLexemes cut, flatten]⟩

/-- A run is read off as one lexeme, up to the operator that follows it. -/
lemma lexemes_run_append {cs rest} (h : IsRun cs)
    (next : ∀ next ∈ (lexemes rest).head?, IsOperator next) :
    lexemes (cs ++ rest) = cs :: lexemes rest := by
  obtain ⟨hne, hcs⟩ := h
  induction cs with
  | nil => exact absurd rfl hne
  | cons c cs ih =>
    obtain ⟨hc, hcs⟩ := List.forall_mem_cons.1 hcs
    rw [List.cons_append, lexemes, if_neg (by simp [hc])]
    by_cases hnil : cs = []
    · subst hnil
      rw [List.nil_append]
      cases hrest : lexemes rest with
      | nil => rfl
      | cons l ls =>
        obtain ⟨d, hd, rfl⟩ := next l (by simp [hrest])
        exact prependToLexemes_operator hd
    · rw [ih hnil hcs, prependToLexemes_run ⟨hnil, hcs⟩]

/-- A cut is the one that is found. -/
lemma Cut.lexemes_flatten {ls} (h : Cut ls) : lexemes ls.flatten = ls := by
  induction h with
  | nil => rfl
  | operator hc _ ih => rw [List.flatten_cons, List.singleton_append, lexemes, if_pos hc, ih]
  | run hrun next _ ih => rw [List.flatten_cons, lexemes_run_append hrun (by rwa [ih]), ih]

/-- There is no other way to cut the characters. -/
theorem lexemes_eq_iff {cs ls} : lexemes cs = ls ↔ Cut ls ∧ ls.flatten = cs := by
  constructor
  · rintro rfl
    exact cut_lexemes cs
  · rintro ⟨cut, rfl⟩
    exact cut.lexemes_flatten

/-- What follows a run is an operator. -/
lemma Cut.next_of_run {before cs next after} (h : Cut (before ++ cs :: next :: after))
    (hrun : IsRun cs) :
    IsOperator next := by
  induction before with
  | nil =>
    cases h with
    | operator hc _ => exact absurd ⟨_, hc, rfl⟩ hrun.not_isOperator
    | run _ hnext _ => exact hnext next (by simp)
  | cons l before ih =>
    cases h with
    | operator _ h => exact ih h
    | run _ _ h => exact ih h

/-- What stands in front of a run is an operator. -/
lemma Cut.before_of_run {before previous cs after} (h : Cut (before ++ previous :: cs :: after))
    (hrun : IsRun cs) :
    IsOperator previous := by
  induction before with
  | nil =>
    cases h with
    | operator hc _ => exact ⟨_, hc, rfl⟩
    | run _ hnext _ => exact absurd (hnext cs (by simp)) hrun.not_isOperator
  | cons l before ih =>
    cases h with
    | operator _ h => exact ih h
    | run _ _ h => exact ih h

/-- An operator and a run can be put at the end. -/
lemma Cut.snoc {ls c cs} (h : Cut ls) (hc : Operator.isSymbol c = true) (hrun : IsRun cs) :
    Cut (ls ++ [[c], cs]) := by
  induction h with
  | nil => exact .operator hc (.run hrun (by simp) .nil)
  | operator hd _ ih => exact .operator hd ih
  | @run ds rest hds next _ ih =>
    refine .run hds ?_ ih
    cases rest with
    | nil => simpa using ⟨c, hc, rfl⟩
    | cons l rest => exact next

/-- One run may stand in the place of another one. -/
lemma Cut.replace {before cs ds after} (h : Cut (before ++ cs :: after)) (hcs : IsRun cs)
    (hds : IsRun ds) :
    Cut (before ++ ds :: after) := by
  induction before with
  | nil =>
    cases h with
    | operator hc _ => exact absurd ⟨_, hc, rfl⟩ hcs.not_isOperator
    | run _ next h => exact .run hds next h
  | cons l before ih =>
    cases h with
    | operator hc h => exact .operator hc (ih h)
    | run hrun next h =>
      refine .run hrun (fun other hother => ?_) (ih h)
      cases before with
      | nil => exact absurd (next cs (by simp)) hcs.not_isOperator
      | cons m before => exact next other (by simpa using hother)

/-- The characters are there to stay in a normal form. -/
def IsNormal (cs : List Char) : Prop := ∀ c ∈ cs, Text.isBlank c = false ∧ Text.uppercase c = [c]

/-- A text in normal form stays as it is. -/
lemma normalizeChars_eq_self {cs} (h : IsNormal cs) : normalizeChars cs = cs := by
  have kept : cs.filter (fun c => !Text.isBlank c) = cs := List.filter_eq_self.2 fun c hc => by
    simp [(h c hc).1]
  rw [normalizeChars, kept]
  induction cs with
  | nil => rfl
  | cons c cs ih =>
    obtain ⟨hc, hcs⟩ := List.forall_mem_cons.1 h
    rw [List.flatMap_cons, hc.2, ih hcs, List.singleton_append]
    exact List.filter_eq_self.2 fun c hc => by simp [(hcs c hc).1]

/-- Normalizing ends in the normal form. -/
lemma isNormal_normalizeChars (cs : List Char) : IsNormal (normalizeChars cs) := by
  intro d hd
  obtain ⟨c, hc, hd⟩ := List.mem_flatMap.1 hd
  have blank : Text.isBlank c = false := by simpa using (List.mem_filter.1 hc).2
  exact ⟨Text.isBlank_of_mem_uppercase hd blank, Text.uppercase_of_mem_uppercase hd⟩

/-- A digit is in normal form and is no operator. -/
lemma digit_isNormal {c : Char} (h : c.isDigit = true) :
    Text.isBlank c = false ∧ Text.uppercase c = [c] ∧ Operator.isSymbol c = false := by
  have all : ∀ i : Fin 10, Text.isBlank (Char.ofNat (48 + i)) = false ∧
      Text.uppercase (Char.ofNat (48 + i)) = [Char.ofNat (48 + i)] ∧
      Operator.isSymbol (Char.ofNat (48 + i)) = false := by
    decide +kernel
  have zero : '0'.toNat = 48 := rfl
  have nine : '9'.toNat = 57 := rfl
  have bounds := Char.isDigit_iff_toNat.1 h
  have := all ⟨c.toNat - 48, by omega⟩
  rwa [show 48 + (c.toNat - 48) = c.toNat by omega, Char.ofNat_toNat] at this

/-- A numeral is a run. -/
lemma isRun_of_isNumeral {cs} (h : Text.IsNumeral cs) : IsRun cs :=
  ⟨h.1, fun c hc => (digit_isNormal (List.all_eq_true.1 h.2 c hc)).2.2⟩

/-- A number is spelled by its decimal digits. -/
lemma toList_toString (n : Nat) : (toString n).toList = Nat.toDigits 10 n := String.toList_ofList

/-- The digits of a number are a numeral. -/
lemma isNumeral_toString (n : Nat) : Text.IsNumeral (toString n).toList := by
  rw [toList_toString]
  refine ⟨Nat.toDigits_ne_nil, List.all_eq_true.2 fun c hc => ?_⟩
  exact Nat.isDigit_of_mem_toDigits (by omega) (by omega) hc

/-- The digits of a number stand for it. -/
lemma classify_toString {n : Nat} {value : Int64} (h : value.toInt = n) :
    Token.classify (toString n) = .ok (.number value) := by
  refine Token.classify_number_iff.2 ⟨isNumeral_toString n, ?_⟩
  rw [toList_toString, Nat.ofDigitChars_ten_toDigits, h]

/-- What is spelled like a reference is a run. -/
lemma isRun_of_isReferenceShape {cs} (h : Token.IsReferenceShape cs) : IsRun cs := by
  obtain ⟨letter, digit, rfl, upper, isDigit⟩ := h.exists_chars
  -- the two characters are no operators, so they could not stand alone
  have symbol : ∀ c, Operator.isSymbol c = true → c.isUpper = false ∧ c.isDigit = false := by
    intro c h
    obtain ⟨op, hop⟩ := Option.isSome_iff_exists.1 h
    obtain rfl := Operator.ofSymbol?_eq_some_iff.1 hop
    cases op <;> decide
  refine ⟨by simp, List.forall_mem_cons.2 ⟨?_, List.forall_mem_cons.2 ⟨?_, by simp⟩⟩⟩
  · exact Bool.eq_false_iff.2 fun h => by simp [(symbol _ h).1] at upper
  · exact Bool.eq_false_iff.2 fun h => by simp [(symbol _ h).2] at isDigit

/-- What stands for a reference is a run. -/
lemma isRun_of_classify {lexeme : String} {z} (hc : Token.classify lexeme = .ok (.reference z)) :
    IsRun lexeme.toList :=
  isRun_of_isReferenceShape (Token.isReferenceShape_of_classify hc)

/-- The lexemes of a text are the same as characters. -/
lemma lexemes_toList (e : String) : lexemes e.toList = (tokenize e).map String.toList := by
  simp [tokenize, Function.comp_def]

/-- Nothing is lost in the cut. -/
theorem join_tokenize (e : String) : String.join (tokenize e) = e := by
  rw [← String.toList_inj, String.toList_join, List.flatMap_def, ← lexemes_toList,
    (cut_lexemes _).2]

/-- A cut is made of operators and runs, and of any two lexemes next to each other one is an
operator. -/
lemma cut_iff {ls} :
    Cut ls ↔ (∀ l ∈ ls, IsOperator l ∨ IsRun l) ∧ ls.IsChain fun l next =>
      ¬ (IsRun l ∧ IsRun next) := by
  constructor
  · intro h
    induction h with
    | nil => exact ⟨by simp, .nil⟩
    | @operator c rest hc _ ih =>
      refine ⟨List.forall_mem_cons.2 ⟨.inl ⟨c, hc, rfl⟩, ih.1⟩, List.isChain_cons.2 ⟨?_, ih.2⟩⟩
      rintro next - ⟨hrun, -⟩
      exact hrun.not_isOperator ⟨c, hc, rfl⟩
    | run hrun next _ ih =>
      refine ⟨List.forall_mem_cons.2 ⟨.inr hrun, ih.1⟩, List.isChain_cons.2 ⟨?_, ih.2⟩⟩
      rintro l hl ⟨-, hrun'⟩
      exact hrun'.not_isOperator (next l hl)
  · rintro ⟨kinds, apart⟩
    induction ls with
    | nil => exact .nil
    | cons l ls ih =>
      obtain ⟨hl, hls⟩ := List.forall_mem_cons.1 kinds
      obtain ⟨hnext, apart'⟩ := List.isChain_cons.1 apart
      rcases hl with ⟨c, hc, rfl⟩ | hrun
      · exact .operator hc (ih hls apart')
      · refine .run hrun (fun next hmem => ?_) (ih hls apart')
        exact (hls next (List.mem_of_mem_head? hmem)).resolve_right fun hrun' =>
          hnext next hmem ⟨hrun, hrun'⟩

/-- No character of the lexeme is an operator. -/
def OperatorFree (lexeme : String) : Prop := ∀ op : Operator, op.symbol ∉ lexeme.toList

/-- The lexemes make up the expression. None is empty, each is an operator or free of operators, and
of any two next to each other one is an operator. -/
structure IsCutOf (lexemes : List String) (e : String) : Prop where
  join : String.join lexemes = e
  ne_empty : ∀ lexeme ∈ lexemes, lexeme ≠ ""
  operator_or_free : ∀ lexeme ∈ lexemes, (∃ op : Operator, lexeme = String.singleton op.symbol) ∨
    OperatorFree lexeme
  apart : lexemes.IsChain fun lexeme next => ¬ (OperatorFree lexeme ∧ OperatorFree next)

/-- An operator is spelled by its symbol. -/
lemma isOperator_toList_iff {lexeme : String} :
    IsOperator lexeme.toList ↔ ∃ op : Operator, lexeme = String.singleton op.symbol := by
  constructor
  · rintro ⟨c, hc, hlexeme⟩
    obtain ⟨op, hop⟩ := Option.isSome_iff_exists.1 hc
    obtain rfl := Operator.ofSymbol?_eq_some_iff.1 hop
    exact ⟨op, String.toList_inj.1 (hlexeme.trans (String.toList_singleton _).symm)⟩
  · rintro ⟨op, rfl⟩
    exact ⟨op.symbol, by simp [Operator.isSymbol], String.toList_singleton _⟩

/-- A run is a text without operators that is not empty. -/
lemma isRun_toList_iff {lexeme : String} :
    IsRun lexeme.toList ↔ lexeme ≠ "" ∧ OperatorFree lexeme := by
  refine and_congr (by simp) ⟨fun h op hmem => ?_, fun h c hc => ?_⟩
  · have := h _ hmem
    simp [Operator.isSymbol] at this
  · refine Bool.eq_false_iff.2 fun hsymbol => ?_
    obtain ⟨op, hop⟩ := Option.isSome_iff_exists.1 hsymbol
    obtain rfl := Operator.ofSymbol?_eq_some_iff.1 hop
    exact h op hc

/-- The lexemes of any expression are its only cut at the operators. So nothing of it is lost, put
elsewhere or repeated, whatever its characters. -/
theorem tokenize_eq_iff_isCutOf {e : String} {ls : List String} :
    tokenize e = ls ↔ IsCutOf ls e := by
  have chars : tokenize e = ls ↔ lexemes e.toList = ls.map String.toList := by
    rw [lexemes_toList, (List.map_injective_iff.2 fun _ _ => String.toList_inj.1).eq_iff]
  have joined : (ls.map String.toList).flatten = e.toList ↔ String.join ls = e := by
    rw [← String.toList_inj, String.toList_join, List.flatMap_def]
  rw [chars, lexemes_eq_iff, cut_iff, joined, List.forall_mem_map, List.isChain_map]
  simp only [isOperator_toList_iff, isRun_toList_iff]
  constructor
  · rintro ⟨⟨kinds, apart⟩, join⟩
    have nonempty : ∀ l ∈ ls, l ≠ "" := by
      rintro l hl rfl
      rcases kinds _ hl with ⟨op, hop⟩ | ⟨hne, -⟩
      · cases op <;> exact absurd hop (by decide)
      · exact hne rfl
    refine ⟨join, nonempty, fun l hl => (kinds l hl).imp_right And.right, ?_⟩
    refine apart.imp_of_mem_imp fun l next hl hnext h free => ?_
    exact h ⟨⟨nonempty l hl, free.1⟩, nonempty next hnext, free.2⟩
  · rintro ⟨join, nonempty, kinds, apart⟩
    refine ⟨⟨fun l hl => (kinds l hl).imp_right fun free => ⟨nonempty l hl, free⟩, ?_⟩, join⟩
    exact apart.imp fun l next h runs => h ⟨runs.1.2, runs.2.2⟩

/-- A run can be replaced by another one, and the other lexemes stay as they are. -/
lemma tokenize_join {e before lexeme after literal} (split : tokenize e = before ++ lexeme :: after)
    (h : IsRun lexeme.toList) (h' : IsRun literal.toList) :
    tokenize (String.join (before ++ literal :: after)) = before ++ literal :: after := by
  have cut : Cut ((tokenize e).map String.toList) := lexemes_toList e ▸ (cut_lexemes e.toList).1
  rw [split, List.map_append, List.map_cons] at cut
  have replaced : Cut ((before ++ literal :: after).map String.toList) := by
    rw [List.map_append, List.map_cons]
    exact cut.replace h h'
  rw [tokenize, String.toList_join, List.flatMap_def, replaced.lexemes_flatten, List.map_map]
  simp [Function.comp_def]

/-- With a numeral in place of a run, a normal form is still one, with the same lexemes but for this
one. -/
theorem tokenize_normalize_join {source before lexeme after literal}
    (split : tokenize (normalize source) = before ++ lexeme :: after) (h : IsRun lexeme.toList)
    (numeral : Text.IsNumeral literal.toList) :
    tokenize (normalize (String.join (before ++ literal :: after))) =
      before ++ literal :: after := by
  have normal : IsNormal (normalize source).toList := by
    rw [normalize, String.toList_ofList]
    exact isNormal_normalizeChars _
  rw [← join_tokenize (normalize source), split, String.toList_join, List.flatMap_append,
    List.flatMap_cons] at normal
  have still : IsNormal (String.join (before ++ literal :: after)).toList := by
    rw [String.toList_join, List.flatMap_append, List.flatMap_cons]
    intro c hc
    rcases List.mem_append.1 hc with hc | hc
    · exact normal c (List.mem_append_left _ hc)
    · rcases List.mem_append.1 hc with hc | hc
      · obtain ⟨blank, upper, -⟩ := digit_isNormal (List.all_eq_true.1 numeral.2 c hc)
        exact ⟨blank, upper⟩
      · exact normal c (List.mem_append_right _ (List.mem_append_right _ hc))
  rw [normalize, normalizeChars_eq_self still, String.ofList_toList]
  exact tokenize_join split h (isRun_of_isNumeral numeral)

/-- What follows a run is an operator. -/
lemma operator_of_run {e before lexeme next after}
    (split : tokenize e = before ++ lexeme :: next :: after)
    (h : IsRun lexeme.toList) : ∃ op, Token.classify next = .ok (.operator op) := by
  have cut : Cut ((tokenize e).map String.toList) := lexemes_toList e ▸ (cut_lexemes e.toList).1
  rw [split, List.map_append, List.map_cons, List.map_cons] at cut
  obtain ⟨c, hc, hnext⟩ := cut.next_of_run h
  obtain ⟨op, hop⟩ := Option.isSome_iff_exists.1 hc
  obtain rfl := Operator.ofSymbol?_eq_some_iff.1 hop
  exact ⟨op, Token.classify_operator_iff.2 hnext⟩

/-- What stands in front of a run is an operator. -/
lemma operator_before_run {e before symbol lexeme after}
    (split : tokenize e = before ++ symbol :: lexeme :: after)
    (h : IsRun lexeme.toList) : ∃ op : Operator, symbol.toList = [op.symbol] := by
  have cut : Cut ((tokenize e).map String.toList) := lexemes_toList e ▸ (cut_lexemes e.toList).1
  rw [split, List.map_append, List.map_cons, List.map_cons] at cut
  obtain ⟨c, hc, hsymbol⟩ := cut.before_of_run h
  obtain ⟨op, hop⟩ := Option.isSome_iff_exists.1 hc
  obtain rfl := Operator.ofSymbol?_eq_some_iff.1 hop
  exact ⟨op, hsymbol⟩

end TableCalc.Expression
