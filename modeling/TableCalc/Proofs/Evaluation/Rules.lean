import Mathlib.Tactic.Lemma
import TableCalc.Evaluation.Evaluator
import TableCalc.Proofs.Grid

/-!
# Rules of evaluation

The evaluator as a set of rules, without a bound on its depth. `Runs raw s task outcome t` says that
work on `task` from the evaluation `s` comes to an end in `t` with `outcome`; a derivation of it is
the finite tree of everything the evaluator does on the way. There is a rule for each thing that can
happen to an expression, a lexeme and a reference.

The rules are deterministic (`Runs.deterministic`), and a run leaves the trail as it found it
(`Runs.trail_eq`).
-/

namespace TableCalc

/-- What an evaluation yields: a value or the reason for having none. -/
abbrev Evaluation.Outcome := Except EvalError Int64

/-- What a reference to `cell` yields if this is the content of `cell`; `none` for an expression,
which has to be evaluated first. -/
def Cell.seen? (cell : Address) : Cell → Option Evaluation.Outcome
  | .number value => some (.ok value)
  | .text _ => some (.error (.textInExpression cell))
  | .error _ => some (.error (.propagated cell))
  | .expression _ => none

/-- Whoever refers to a cell that fails learns which cell that is. -/
lemma EvalError.blamed?_seenFrom {z : Address} {e : EvalError} : (e.seenFrom z).blamed? ≠ none := by
  fun_cases seenFrom z e <;> nofun

namespace Evaluation
open Expression

/-- What the evaluator can be at work on. -/
inductive Task where
  /-- The evaluation of an expression for a cell. -/
  | cell (cell : Address) (expression : String)
  /-- The lexemes of an expression that are still to be folded, from the last to the first. -/
  | fold (lexemes : List String)
  /-- A lexeme in operand position. -/
  | operand (lexeme : String)
  /-- A reference to a cell. -/
  | reference (cell : Address)

/-- `Runs raw s task outcome t`: work on `task` from `s` ends in `t` with `outcome`. -/
inductive Runs (raw : Grid) : Evaluation → Task → Outcome → Evaluation → Prop where
  | cell {s t cell expression outcome} :
    Runs raw (s.enter cell) (.fold (tokenize expression).reverse) outcome t →
    Runs raw s (.cell cell expression) outcome (t.leave cell outcome)
  | unfinished {s} :
    Runs raw s (.fold []) (.error .unfinishedExpression) s
  | first {s t lexeme outcome} :
    Runs raw s (.operand lexeme) outcome t →
    Runs raw s (.fold [lexeme]) outcome t
  | operandFails {s t last symbol earlier e} :
    Runs raw s (.operand last) (.error e) t →
    Runs raw s (.fold (last :: symbol :: earlier)) (.error e) t
  | operatorFails {s t last symbol earlier rhs e} :
    Runs raw s (.operand last) (.ok rhs) t →
    operator symbol = .error e →
    Runs raw s (.fold (last :: symbol :: earlier)) (.error e) t
  | step {s t u last symbol earlier rhs op outcome} :
    Runs raw s (.operand last) (.ok rhs) t →
    operator symbol = .ok op →
    Runs raw t (.fold earlier) outcome u →
    Runs raw s (.fold (last :: symbol :: earlier)) (outcome >>= (op.apply · rhs)) u
  | unknown {s lexeme e} :
    Token.classify lexeme = .error e →
    Runs raw s (.operand lexeme) (.error e) s
  | literal {s lexeme value} :
    Token.classify lexeme = .ok (.number value) →
    Runs raw s (.operand lexeme) (.ok value) s
  | misplaced {s lexeme op} :
    Token.classify lexeme = .ok (.operator op) →
    Runs raw s (.operand lexeme) (.error .notEnoughOperands) s
  | reference {s t lexeme z outcome} :
    Token.classify lexeme = .ok (.reference z) →
    Runs raw s (.reference z) outcome t →
    Runs raw s (.operand lexeme) outcome t
  | undefined {s z} :
    raw[z]? = none →
    Runs raw s (.reference z) (.error (.undefinedCell z.name)) s
  | settled {s z given outcome} :
    raw[z]? = some given →
    (s.memo[z]?.getD given).seen? z = some outcome →
    Runs raw s (.reference z) outcome s
  | circular {s z given source} :
    raw[z]? = some given →
    s.memo[z]?.getD given = .expression source →
    z ∈ s.trail.path →
    Runs raw s (.reference z) (.error (.circularReference z)) s
  | nested {s t z given source outcome} :
    raw[z]? = some given →
    s.memo[z]?.getD given = .expression source →
    z ∉ s.trail.path →
    Runs raw s (.cell z (normalize source)) outcome t →
    Runs raw s (.reference z) (outcome.mapError (·.seenFrom z)) t

variable {raw : Grid}

/-- The rules leave no choice. -/
theorem Runs.deterministic {s task outcome outcome' t t'} (run : Runs raw s task outcome t)
    (run' : Runs raw s task outcome' t') : outcome = outcome' ∧ t = t' := by
  induction run generalizing outcome' t' with
  | cell _ ih =>
    cases run' with
    | cell run' =>
      obtain ⟨rfl, rfl⟩ := ih run'
      exact ⟨rfl, rfl⟩
  | unfinished =>
    cases run'
    exact ⟨rfl, rfl⟩
  | first _ ih =>
    cases run' with
    | first run' => exact ih run'
  | operandFails _ ih =>
    -- the outcome of the last operand tells the three rules for longer lists apart
    cases run' with
    | operandFails run' => exact ih run'
    | operatorFails run' _ => cases (ih run').1
    | step run' _ _ => cases (ih run').1
  | operatorFails _ hop ih =>
    cases run' with
    | operandFails run' => cases (ih run').1
    | operatorFails run' hop' =>
      obtain ⟨-, rfl⟩ := ih run'
      cases hop.symm.trans hop'
      exact ⟨rfl, rfl⟩
    | step _ hop' _ => cases hop.symm.trans hop'
  | step _ hop _ ih ihEarlier =>
    cases run' with
    | operandFails run' => cases (ih run').1
    | operatorFails _ hop' => cases hop.symm.trans hop'
    | step run' hop' runEarlier' =>
      obtain ⟨e, rfl⟩ := ih run'
      cases e
      cases hop.symm.trans hop'
      obtain ⟨rfl, rfl⟩ := ihEarlier runEarlier'
      exact ⟨rfl, rfl⟩
  | unknown h => cases run' <;> simp_all
  | literal h => cases run' <;> simp_all
  | misplaced h => cases run' <;> simp_all
  | reference h _ ih =>
    cases run' with
    | reference h' run' =>
      cases h.symm.trans h'
      exact ih run'
    | unknown h' => cases h.symm.trans h'
    | literal h' => cases h.symm.trans h'
    | misplaced h' => cases h.symm.trans h'
  | undefined h => cases run' <;> simp_all
  | settled h hseen => cases run' <;> simp_all [Cell.seen?]
  | circular h hcell hmem => cases run' <;> simp_all [Cell.seen?]
  | nested h hcell hmem _ ih =>
    cases run' with
    | nested h' hcell' _ run' =>
      cases h.symm.trans h'
      cases hcell.symm.trans hcell'
      obtain ⟨rfl, rfl⟩ := ih run'
      exact ⟨rfl, rfl⟩
    | undefined h' => cases h.symm.trans h'
    | settled h' hseen =>
      cases h.symm.trans h'
      simp [hcell, Cell.seen?] at hseen
    | circular _ _ hmem' => exact absurd hmem' hmem

/-- A cell whose evaluation is the task must not be on the trail yet. -/
def Task.Admitted (trail : Trail) : Task → Prop
  | .cell z _ => z ∉ trail.path
  | .fold _ | .operand _ | .reference _ => True

/-- A run, of whatever outcome, leaves the trail as it found it. -/
theorem Runs.trail_eq {s task outcome t} (run : Runs raw s task outcome t)
    (admitted : task.Admitted s.trail) :
    t.trail = s.trail := by
  induction run with
  | cell _ ih =>
    -- the only rule that moves the trail, and the cell that it enters was not there
    rw [trail_leave, ih trivial, trail_enter, Trail.leave_enter admitted]
  | unfinished => rfl
  | first _ ih => exact ih trivial
  | operandFails _ ih => exact ih trivial
  | operatorFails _ _ ih => exact ih trivial
  | step _ _ _ ih ihEarlier => exact (ihEarlier trivial).trans (ih trivial)
  | unknown _ => rfl
  | literal _ => rfl
  | misplaced _ => rfl
  | reference _ _ ih => exact ih trivial
  | undefined _ => rfl
  | settled _ _ => rfl
  | circular _ _ _ => rfl
  | nested _ _ hmem _ ih => exact ih hmem

/-- What storing an outcome keeps true of the memo is kept true by every run. -/
theorem Runs.memo_invariant {s task outcome t} (run : Runs raw s task outcome t) (P : Grid → Prop)
    (insert : ∀ (g : Grid) z outcome, P g → P (g.insert z (.ofOutcome outcome))) (h : P s.memo) :
    P t.memo := by
  induction run with
  | cell _ ih => exact insert _ _ _ (ih h)
  | unfinished => exact h
  | first _ ih => exact ih h
  | operandFails _ ih => exact ih h
  | operatorFails _ _ ih => exact ih h
  | step _ _ _ ih ihEarlier => exact ihEarlier (ih h)
  | unknown _ => exact h
  | literal _ => exact h
  | misplaced _ => exact h
  | reference _ _ ih => exact ih h
  | undefined _ => exact h
  | settled _ _ => exact h
  | circular _ _ _ => exact h
  | nested _ _ _ _ ih => exact ih h

/-- A failure met at a reference tells of a cell, unless no cell is there. -/
lemma Runs.reference_error_cases {s z e t} (run : Runs raw s (.reference z) (.error e) t) :
    e = .undefinedCell z.name ∨ e.blamed? ≠ none := by
  generalize houtcome : Except.error e = outcome at run
  cases run with
  | undefined _ =>
    cases houtcome
    exact .inl rfl
  | @settled _ _ given _ _ hseen =>
    subst houtcome
    cases hcell : s.memo[z]?.getD given <;> rw [hcell] at hseen <;> cases hseen <;> exact .inr nofun
  | circular _ _ _ =>
    cases houtcome
    exact .inr nofun
  | @nested _ _ _ _ _ outcome _ _ _ _ =>
    cases outcome with
    | ok _ => cases houtcome
    | error e' =>
      cases houtcome
      exact .inr EvalError.blamed?_seenFrom

/-- The outcome of an evaluation is what its cell holds afterwards. -/
lemma Runs.getElem?_cell {s z e outcome t} (run : Runs raw s (.cell z e) outcome t) :
    t.memo[z]? = some (.ofOutcome outcome) := by
  cases run
  simp

/-- A cell that has a result keeps having one. -/
lemma Runs.mem_memo {s task outcome t z} (run : Runs raw s task outcome t) (h : z ∈ s.memo) :
    z ∈ t.memo :=
  run.memo_invariant (z ∈ ·) (fun _ _ _ h => Grid.mem_insert.2 (.inr h)) h

end Evaluation

end TableCalc
