import TableCalc.Proofs.Evaluation.Justification

/-!
# Expressions that have a value

`Valued raw x n` says by a finite derivation that the expression of `x` has the value `n`: its
lexemes are operands with operators between them, every operand is a numeral, a number cell or an
expression cell that has a value itself, and the fold of these values from left to right over the
integers stays in the range of 64-bit integers and ends in `n`. The derivation speaks of the raw
grid alone.

A cell with a value lies on no cycle (`Valued.acyclic`), so no value is missed where the trail cuts
an evaluation short: an outcome is a number if and only if that number is derived
(`Justified.yields_iff`).
-/

namespace TableCalc
open Expression Relation

/-- The integer is in the range of signed 64-bit integers. -/
def Fits (n : Int) : Prop := Int64.minValue.toInt ≤ n ∧ n ≤ Int64.maxValue.toInt

mutual

/-- `Valued raw x n`: the expression of `x` has the value `n`. -/
inductive Valued (raw : Grid) : Address → Int → Prop where
  | expression {x e n} :
    Holds raw x e →
    FoldValued raw (tokenize e) n →
    Valued raw x n

/-- `FoldValued raw lexemes n`: the lexemes are operands and operators in turn, and folded from left
to right the operands come to `n`, with every result on the way in range. -/
inductive FoldValued (raw : Grid) : List String → Int → Prop where
  | first {lexeme n} :
    TermValued raw lexeme n →
    FoldValued raw [lexeme] n
  | step {earlier symbol last} {op : Operator} {a b n : Int} :
    FoldValued raw earlier a →
    symbol.toList = [op.symbol] →
    TermValued raw last b →
    op.exactValue? a b = some n →
    Fits n →
    FoldValued raw (earlier ++ [symbol, last]) n

/-- `TermValued raw lexeme n`: the operand has the value `n`. -/
inductive TermValued (raw : Grid) : String → Int → Prop where
  | literal {lexeme : String} :
    Text.IsNumeral lexeme.toList →
    Fits (Nat.ofDigitChars 10 lexeme.toList 0) →
    TermValued raw lexeme (Nat.ofDigitChars 10 lexeme.toList 0)
  | number {lexeme z value} :
    Token.classify lexeme = .ok (.reference z) →
    raw[z]? = some (.number value) →
    TermValued raw lexeme value.toInt
  | expression {lexeme z n} :
    Token.classify lexeme = .ok (.reference z) →
    Valued raw z n →
    TermValued raw lexeme n

end

variable {raw : Grid}

/-- The integers that fit are those of 64 bits. -/
lemma fits_iff {n : Int} : Fits n ↔ ∃ value : Int64, value.toInt = n := by
  refine ⟨?_, ?_⟩
  · intro h
    exact ⟨.ofIntLE n h.1 h.2, Int64.toInt_ofIntLE⟩
  · rintro ⟨value, rfl⟩
    exact ⟨value.minValue_le_toInt, value.toInt_le⟩

/-- A cell has the value of its expression. -/
lemma valued_iff {x e n} (hx : Holds raw x e) : Valued raw x n ↔ FoldValued raw (tokenize e) n := by
  refine ⟨?_, ?_⟩
  · rintro ⟨hx', fold⟩
    cases hx.unique hx'
    exact fold
  · exact .expression hx

/-- Only expressions have a value. -/
lemma Valued.holds {x n} (h : Valued raw x n) : ∃ e, Holds raw x e := by
  obtain ⟨hx, -⟩ := h
  exact ⟨_, hx⟩

/-- No lexemes at all have no value. -/
lemma not_foldValued_nil {n} : ¬ FoldValued raw [] n := by
  generalize h : ([] : List String) = lexemes
  intro fold
  cases fold with
  | first _ => cases h
  | step _ _ _ _ _ => simp at h

/-- One lexeme has the value of this term. -/
lemma foldValued_singleton {lexeme n} : FoldValued raw [lexeme] n ↔ TermValued raw lexeme n := by
  refine ⟨?_, ?_⟩
  · generalize h : [lexeme] = lexemes
    intro fold
    cases fold with
    | first term =>
      cases h
      exact term
    | @step earlier _ _ _ _ _ _ _ _ _ _ _ => cases earlier <;> simp at h
  · exact .first

/-- Several lexemes have the value that the last operator makes of the last term and the lexemes
before. -/
lemma foldValued_append {earlier : List String} {symbol last : String} {n : Int} :
    FoldValued raw (earlier ++ [symbol, last]) n ↔
      ∃ (op : Operator) (a b : Int), FoldValued raw earlier a ∧ symbol.toList = [op.symbol] ∧
        TermValued raw last b ∧
        op.exactValue? a b = some n ∧ Fits n := by
  refine ⟨?_, ?_⟩
  · generalize h : earlier ++ [symbol, last] = lexemes
    intro fold
    cases fold with
    | first _ => cases earlier <;> simp at h
    | step fold hop term value fits =>
      obtain ⟨rfl, e⟩ := List.append_inj' h rfl
      cases e
      exact ⟨_, _, _, fold, hop, term, value, fits⟩
  · rintro ⟨op, a, b, fold, hop, term, value, fits⟩
    exact .step fold hop term value fits

mutual

/-- A cell with a value refers to cells with a value and to numbers, so no cycle can be reached from
it. -/
theorem Valued.acyclic {x n} : Valued raw x n → Acyclic raw x
  | .expression hx fold => by
    apply acyclic_of_forall
    rintro z ⟨e, hx', lexeme, hmem, hc⟩
    cases hx.unique hx'
    exact fold.acyclic lexeme hmem z hc

/-- Lexemes with a value refer to cells that reach no cycle. -/
theorem FoldValued.acyclic {lexemes n} : FoldValued raw lexemes n →
    ∀ lexeme ∈ lexemes, ∀ z, Token.classify lexeme = .ok (.reference z) → Acyclic raw z
  | .first term, lexeme, hmem, z, hc => by
    rw [List.mem_singleton.1 hmem] at hc
    exact term.acyclic z hc
  | .step fold hop term _ _, lexeme, hmem, z, hc => by
    rcases List.mem_append.1 hmem with hmem | hmem
    · exact fold.acyclic lexeme hmem z hc
    · rcases List.mem_pair.1 hmem with e | e
      · -- an operator refers to nothing
        rw [e] at hc
        cases (Token.classify_operator_iff.2 hop).symm.trans hc
      · rw [e] at hc
        exact term.acyclic z hc

/-- A term with a value refers to a cell that reaches no cycle. -/
theorem TermValued.acyclic {lexeme n} : TermValued raw lexeme n →
    ∀ z, Token.classify lexeme = .ok (.reference z) → Acyclic raw z
  | .literal numeral fits, z, hc => by
    obtain ⟨value, hvalue⟩ := fits_iff.1 fits
    cases (Token.classify_number_iff.2 ⟨numeral, hvalue.symm⟩).symm.trans hc
  | .number h hz, z', hc => by
    cases h.symm.trans hc
    apply acyclic_of_forall
    rintro y ⟨e, ⟨source, hz', -⟩, -⟩
    cases hz.symm.trans hz'
  | .expression h valued, z', hc => by
    cases h.symm.trans hc
    exact valued.acyclic

end

/-- The value of a term is its literal one, or the one of the cell that it refers to. -/
lemma termValued_iff {lexeme n} :
    TermValued raw lexeme n ↔
      (∃ value : Int64, Token.classify lexeme = .ok (.number value) ∧ value.toInt = n) ∨
      ∃ z, Token.classify lexeme = .ok (.reference z) ∧
        ((∃ value : Int64, raw[z]? = some (.number value) ∧ value.toInt = n) ∨ Valued raw z n) := by
  refine ⟨?_, ?_⟩
  · intro term
    cases term with
    | literal numeral fits =>
      obtain ⟨value, hvalue⟩ := fits_iff.1 fits
      exact .inl ⟨value, Token.classify_number_iff.2 ⟨numeral, hvalue.symm⟩, hvalue⟩
    | number hc hz => exact .inr ⟨_, hc, .inl ⟨_, hz, rfl⟩⟩
    | expression hc valued => exact .inr ⟨_, hc, .inr valued⟩
  · rintro (⟨value, hc, rfl⟩ | ⟨z, hc, ⟨value, hz, rfl⟩ | valued⟩)
    · obtain ⟨numeral, hvalue⟩ := Token.classify_number_iff.1 hc
      rw [← hvalue]
      exact .literal numeral (fits_iff.2 ⟨value, hvalue.symm⟩)
    · exact .number hc hz
    · exact .expression hc valued

namespace Evaluation

/-- The task has the value `n`. -/
def Task.Valued (raw : Grid) : Task → Int → Prop
  | .cell _ e, n => FoldValued raw (tokenize e) n
  | .fold lexemes, n => FoldValued raw lexemes.reverse n
  | .operand lexeme, n => TermValued raw lexeme n
  | .reference z, n => (∃ value : Int64, raw[z]? = some (.number value) ∧ value.toInt = n) ∨
    TableCalc.Valued raw z n

/-- The outcome is the number `n`. -/
def Yields (outcome : Outcome) (n : Int) : Prop := ∃ value : Int64, outcome = .ok value ∧
    value.toInt = n

/-- A number yields itself. -/
@[simp] lemma yields_ok {value : Int64} {n} : Yields (.ok value) n ↔ value.toInt = n := by
  simp [Yields]

/-- A failure yields no number. -/
@[simp] lemma not_yields_error {e n} : ¬ Yields (.error e) n := by
  simp [Yields]

/-- An outcome that yields a number is this number. -/
lemma yields_toInt_iff {outcome : Outcome} {value : Int64} :
    Yields outcome value.toInt ↔ outcome = .ok value := by
  simp [Yields, Int64.toInt_inj]

/-- What a failure is passed on as makes no difference to what is yielded. -/
@[simp] lemma yields_mapError {outcome : Outcome} {f n} :
    Yields (outcome.mapError f) n ↔ Yields outcome n := by
  cases outcome <;> simp [Except.mapError]

/-- A number is stored for an outcome that is this number. -/
@[simp] lemma ofOutcome_eq_number_iff {outcome : Outcome} {value : Int64} :
    Cell.ofOutcome outcome = .number value ↔ outcome = .ok value := by
  cases outcome <;> simp [Cell.ofOutcome]

/-- An error is stored if and only if the outcome is no number. -/
lemma ofOutcome_eq_error_iff {outcome : Outcome} :
    (∃ message, Cell.ofOutcome outcome = .error message) ↔ ¬ ∃ n, Yields outcome n := by
  cases outcome <;> simp [Cell.ofOutcome]

/-- A computation yields the exact value if that fits. -/
lemma yields_apply {op : Operator} {lhs rhs : Int64} {n} :
    Yields (op.apply lhs rhs) n ↔ op.exactValue? lhs.toInt rhs.toInt = some n ∧ Fits n := by
  refine ⟨?_, ?_⟩
  · rintro ⟨value, h, rfl⟩
    exact ⟨Operator.apply_eq_ok_iff.1 h, fits_iff.2 ⟨value, rfl⟩⟩
  · rintro ⟨h, fits⟩
    obtain ⟨value, rfl⟩ := fits_iff.1 fits
    exact ⟨value, Operator.apply_eq_ok_iff.2 h, rfl⟩

/-- A computation on an outcome yields the exact value for the number that the outcome yields. -/
lemma yields_bind_apply {outcome : Outcome} {op : Operator} {rhs : Int64} {n} :
    Yields (outcome >>= (op.apply · rhs)) n ↔
      ∃ a, Yields outcome a ∧ op.exactValue? a rhs.toInt = some n ∧ Fits n := by
  cases outcome with
  | error e => simp [bind, Except.bind]
  | ok lhs =>
    show Yields (op.apply lhs rhs) n ↔ _
    simp [yields_apply]

/-- An expression cell has the value of its expression by reference. -/
lemma valued_reference_iff {z e n} (hz : Holds raw z e) :
    (Task.reference z).Valued raw n ↔ (Task.cell z e).Valued raw n := by
  simp only [Task.Valued, valued_iff hz, or_iff_right_iff_imp]
  rintro ⟨value, h, -⟩
  obtain ⟨source, h', -⟩ := hz
  cases h.symm.trans h'

/-- Several lexemes have the value that the last operator makes of the last operand and the others.
-/
lemma valued_fold_cons {last symbol : String} {earlier : List String} {n : Int} :
    (Task.fold (last :: symbol :: earlier)).Valued raw n ↔
      ∃ (op : Operator) (a b : Int), (Task.fold earlier).Valued raw a ∧
        symbol.toList = [op.symbol] ∧
        (Task.operand last).Valued raw b ∧ op.exactValue? a b = some n ∧ Fits n := by
  have split : (last :: symbol :: earlier).reverse = earlier.reverse ++ [symbol, last] := by simp
  simp only [Task.Valued, split]
  exact foldValued_append

/-- What is seen of a plain cell yields its value. -/
lemma yields_seen_iff {z : Address} {given : Cell} {outcome n} (hz : raw[z]? = some given)
    (hseen : given.seen? z = some outcome) :
    Yields outcome n ↔ (Task.reference z).Valued raw n := by
  have plain : ¬ Valued raw z n := by
    rintro ⟨⟨source, hz', -⟩, -⟩
    cases hz.symm.trans hz'
    cases hseen
  simp only [Task.Valued, plain, or_false, hz, Option.some.injEq]
  cases given <;> cases hseen <;> simp

/-- A justified outcome is a number if and only if that number is derived. -/
theorem Justified.yields_iff {task outcome} (justified : Justified raw task outcome) (n : Int) :
    Yields outcome n ↔ task.Valued raw n := by
  induction justified generalizing n with
  | cell _ ih => simpa [Task.Valued] using ih n
  | unfinished => simp [Task.Valued, not_foldValued_nil]
  | first _ ih => simpa [Task.Valued, foldValued_singleton] using ih n
  | operandFails _ ih =>
    simp only [not_yields_error, false_iff, valued_fold_cons]
    rintro ⟨op, a, b, -, -, term, -, -⟩
    exact not_yields_error ((ih b).2 term)
  | operatorFails _ hop _ =>
    simp only [not_yields_error, false_iff, valued_fold_cons]
    rintro ⟨op, a, b, -, hop', -, -, -⟩
    cases (operator_eq_ok_iff.2 hop').symm.trans hop
  | @step last symbol earlier rhs op outcome _ hop _ ih ihEarlier =>
    rw [yields_bind_apply, valued_fold_cons]
    refine ⟨?_, ?_⟩
    · rintro ⟨a, hyields, value, fits⟩
      have fold := (ihEarlier a).1 hyields
      have term := (ih rhs.toInt).1 (yields_ok.2 rfl)
      exact ⟨op, a, rhs.toInt, fold, operator_eq_ok_iff.1 hop, term, value, fits⟩
    · rintro ⟨op', a, b, fold, hop', term, value, fits⟩
      cases (operator_eq_ok_iff.2 hop').symm.trans hop
      rw [← yields_ok.1 ((ih b).2 term)] at value
      exact ⟨a, (ihEarlier a).2 fold, value, fits⟩
  | unknown h => simp [Task.Valued, termValued_iff, h]
  | literal h => simp [Task.Valued, termValued_iff, h]
  | misplaced h => simp [Task.Valued, termValued_iff, h]
  | reference h _ ih => simpa [Task.Valued, termValued_iff, h] using ih n
  | undefined h =>
    simp only [not_yields_error, false_iff]
    rintro (⟨value, hz, -⟩ | ⟨⟨source, hz, -⟩, -⟩) <;> cases h.symm.trans hz
  | plain h hseen => exact yields_seen_iff h hseen
  | circular hz cycle =>
    simp only [not_yields_error, false_iff]
    intro valued
    have own := (valued_iff hz).2 ((valued_reference_iff hz).1 valued)
    exact own.acyclic.not_reaches_self cycle
  | nested hz _ ih => rw [yields_mapError, ih, valued_reference_iff hz]
  | remembered hz _ ih => rw [yields_mapError, ih, valued_reference_iff hz]

/-- The justified outcomes of a task are one number or all failures. -/
lemma Justified.ok_iff {task outcome outcome'} (justified : Justified raw task outcome)
    (justified' : Justified raw task outcome') (value : Int64) :
    outcome = .ok value ↔ outcome' = .ok value := by
  rw [← yields_toInt_iff, ← yields_toInt_iff, justified.yields_iff, justified'.yields_iff]

end Evaluation

end TableCalc
