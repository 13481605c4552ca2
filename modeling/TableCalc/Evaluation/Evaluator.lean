import TableCalc.Evaluation.Trail
import TableCalc.Expression.Token
import TableCalc.Grid

/-!
# The evaluator

An expression is folded strictly from left to right, without precedence: `4-2+6/2` is `((4-2)+6)/2`.
The fold goes down from the last operand: that operand first, then the operator in front of it, then
everything before. So a fault in a lexeme is found from the right, and no arithmetic is done before
every operand has a value.

A reference is resolved when its turn comes. The result of a referenced expression is stored, and
the store serves as a memo for the rest of the evaluation.
-/

namespace TableCalc

/-- What an evaluation carries along. -/
structure Evaluation where
  /-- The results so far, on top of which plain cells may stand already. -/
  memo : Grid
  trail : Trail := .empty
  /-- How many evaluations were started. -/
  evaluations : Nat := 0
  /-- How many evaluations failed. -/
  failures : Nat := 0

/-- A computation that may fail and that changes an evaluation either way. -/
abbrev EvalM := ExceptT EvalError (StateM Evaluation)

/-- The cell that stores an outcome: a number, or an error with the message of the failure. -/
def Cell.ofOutcome : Except EvalError Int64 → Cell
  | .ok value => .number value
  | .error e => .error e.message

namespace Evaluation

/-- An evaluation of `cell` begins. -/
def enter (cell : Address) (s : Evaluation) : Evaluation :=
  { s with evaluations := s.evaluations + 1, trail := (s.trail.enter cell).2 }

/-- The evaluation of `cell` ends, and its outcome is stored. -/
def leave (cell : Address) (outcome : Except EvalError Int64) (s : Evaluation) : Evaluation :=
  { s with
    memo := s.memo.insert cell (.ofOutcome outcome)
    trail := s.trail.leave cell
    failures := match outcome with
      | .ok _ => s.failures
      | .error _ => s.failures + 1 }

/-- That an evaluation begins leaves the results alone. -/
@[simp] theorem memo_enter {cell : Address} {s : Evaluation} : (s.enter cell).memo = s.memo := rfl

/-- A cell whose evaluation begins enters the trail. -/
@[simp] theorem trail_enter {cell : Address} {s : Evaluation} :
    (s.enter cell).trail = (s.trail.enter cell).2 := rfl

/-- When an evaluation ends, its outcome is among the results. -/
@[simp] theorem memo_leave {cell : Address} {outcome : Except EvalError Int64} {s : Evaluation} :
    (s.leave cell outcome).memo = s.memo.insert cell (.ofOutcome outcome) := rfl

/-- A cell whose evaluation ends leaves the trail. -/
@[simp] theorem trail_leave {cell : Address} {outcome : Except EvalError Int64} {s : Evaluation} :
    (s.leave cell outcome).trail = s.trail.leave cell := rfl

/-- The value of a referenced cell. What is in the memo counts before the raw cell, but a cell
without a raw cell is not defined whatever the memo holds. A referenced expression that is not yet
computed is evaluated, unless it is under evaluation already. -/
def resolve (raw : Grid) (evaluate : Address → String → EvalM Int64) (cell : Address) :
    EvalM Int64 := do
  let some given := raw[cell]? | throw (.undefinedCell cell.name)
  match (← get).memo[cell]?.getD given with
  | .number value => return value
  | .text _ => throw (.textInExpression cell)
  | .error _ => throw (.propagated cell)
  | .expression source =>
    if (← get).trail.contains cell then throw (.circularReference cell)
    tryCatch (evaluate cell (Expression.normalize source)) fun e => throw (e.seenFrom cell)

/-- The value of a lexeme in operand position. -/
def operand (resolve : Address → EvalM Int64) (lexeme : String) : EvalM Int64 := do
  match ← ofExcept (Token.classify lexeme) with
  | .number value => return value
  | .reference cell => resolve cell
  | .operator _ => throw .notEnoughOperands

/-- The operator that a lexeme in operator position stands for. -/
def operator (lexeme : String) : Except EvalError Operator := do
  match ← Token.classify lexeme with
  | .operator op => return op
  | .number _ | .reference _ => throw (.unknownToken lexeme)

/-- Only the lexeme of an operator stands for it. -/
theorem operator_eq_ok_iff {symbol : String} {op : Operator} :
    operator symbol = .ok op ↔ symbol.toList = [op.symbol] := by
  rw [← Token.classify_operator_iff]
  unfold operator
  rcases Token.classify symbol with _ | token
  · constructor <;> intro h <;> cases h
  · cases token <;> constructor <;> intro h <;> cases h <;> rfl

/-- A lexeme in operator position is faulty like any other lexeme, or it is none of an operator. -/
theorem operator_error_cases {symbol : String} {e : EvalError} (h : operator symbol = .error e) :
    e = .numberOutOfRange symbol ∨ e = .undefinedCell symbol ∨ e = .unknownToken symbol := by
  unfold operator at h
  rcases hc : Token.classify symbol with e' | token
  · rw [hc] at h
    cases h
    exact Token.classify_error_cases hc
  · rw [hc] at h
    cases token <;> cases h <;> simp

/-- A faulty lexeme in operator position blames no cell. -/
theorem operator_error {symbol : String} {e : EvalError} (h : operator symbol = .error e) :
    e.blamed? = none := by
  rcases operator_error_cases h with rfl | rfl | rfl <;> rfl

/-- Folds the lexemes of an expression, given from the last to the first. -/
def foldReversed (operand : String → EvalM Int64) : List String → EvalM Int64
  | [] => throw .unfinishedExpression
  | [first] => operand first
  | last :: symbol :: earlier => do
    let rhs ← operand last
    let op ← ofExcept (operator symbol)
    let lhs ← foldReversed operand earlier
    ofExcept (op.apply lhs rhs)

/-- Evaluates an expression for `cell` and stores the outcome there, with at most `room` cells on
the trail besides those that are there already. Each nested evaluation is of a cell of the raw grid
that is not on the trail, so with room for all of them and for `cell` the bound is never met. -/
def evaluateWithin (raw : Grid) : (room : Nat) → (cell : Address) → (expression : String) →
    EvalM Int64
  | 0, cell, _ => throw (.circularReference cell)
  | room + 1, cell, expression => ExceptT.mk do
    modify (enter cell)
    let lexemes := Expression.tokenize expression
    let outcome ← (foldReversed (operand (resolve raw (evaluateWithin raw room)))
        lexemes.reverse).run
    modify (leave cell outcome)
    return outcome

/-- Evaluates an expression for `cell` and stores the outcome there: a number, or an error with the
message of the failure. The failure is returned all the same. -/
def evaluateAndStore (raw : Grid) (cell : Address) (expression : String) : EvalM Int64 :=
  evaluateWithin raw (raw.size + 1) cell expression

end Evaluation

end TableCalc
