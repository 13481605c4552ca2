import TableCalc.Evaluation.Error

/-!
# Operators

The four operators of an expression, over signed 64-bit integers. An operator computes the exact
integer result and fails if that result cannot be held; division goes toward zero.
-/

namespace TableCalc

/-- An arithmetic operator. -/
inductive Operator where
  | add
  | sub
  | mul
  | div
deriving DecidableEq, Repr

namespace Operator

/-- The operator written as this character. -/
def ofSymbol? : Char → Option Operator
  | '+' => some add
  | '-' => some sub
  | '*' => some mul
  | '/' => some div
  | _ => none

/-- The character that an operator is written as. -/
def symbol : Operator → Char
  | add => '+'
  | sub => '-'
  | mul => '*'
  | div => '/'

/-- Whether a character is an operator. -/
def isSymbol (c : Char) : Bool := (ofSymbol? c).isSome

/-- The exact result over the integers; `none` for a zero divisor. -/
def exactValue? : Operator → Int → Int → Option Int
  | add, a, b => some (a + b)
  | sub, a, b => some (a - b)
  | mul, a, b => some (a * b)
  | div, a, b => if b = 0 then none else some (a.tdiv b)

/-- The 64-bit integer with this value, or an overflow. -/
def fit (n : Int) : Except EvalError Int64 :=
  if h : Int64.minValue.toInt ≤ n ∧ n ≤ Int64.maxValue.toInt then .ok (Int64.ofIntLE n h.1 h.2)
  else .error .overflow

/-- Applies an operator to two 64-bit integers. -/
def apply (op : Operator) (lhs rhs : Int64) : Except EvalError Int64 :=
  match op.exactValue? lhs.toInt rhs.toInt with
  | some n => fit n
  | none => .error .divisionByZero

/-- Each operator is read back from its symbol. -/
@[simp] theorem ofSymbol?_symbol (op : Operator) : ofSymbol? op.symbol = some op := by
  cases op <;> rfl

/-- A character stands for an operator if it is its symbol. -/
theorem ofSymbol?_eq_some_iff {c : Char} {op : Operator} :
    ofSymbol? c = some op ↔ c = op.symbol := by
  refine ⟨?_, ?_⟩
  · intro h
    unfold ofSymbol? at h
    split at h <;> cases h <;> rfl
  · rintro rfl
    exact ofSymbol?_symbol op

/-- An integer is in range if and only if it is the value of a 64-bit integer. -/
theorem fit_eq_ok_iff {n : Int} {value : Int64} : fit n = .ok value ↔ value.toInt = n := by
  unfold fit
  split
  case isTrue h =>
    rw [Except.ok.injEq, ← Int64.toInt_inj, Int64.toInt_ofIntLE, eq_comm]
  case isFalse h =>
    simp only [reduceCtorEq, false_iff]
    rintro rfl
    exact h ⟨value.minValue_le_toInt, value.toInt_le⟩

/-- A computation gives the exact value, or none. -/
theorem apply_eq_ok_iff {op : Operator} {lhs rhs value : Int64} :
    op.apply lhs rhs = .ok value ↔ op.exactValue? lhs.toInt rhs.toInt = some value.toInt := by
  unfold apply
  split
  case h_1 n h => rw [fit_eq_ok_iff, h, Option.some.injEq, eq_comm]
  case h_2 h => simp [h]

/-- A computation fails because the result does not fit or the divisor is zero. -/
theorem apply_error_cases {op : Operator} {lhs rhs : Int64} {e : EvalError}
    (h : op.apply lhs rhs = .error e) :
    e = .overflow ∨ e = .divisionByZero := by
  revert h
  fun_cases apply op lhs rhs
  case case1 n _ =>
    unfold fit
    split <;> rintro ⟨⟩
    exact .inl rfl
  case case2 _ =>
    rintro ⟨⟩
    exact .inr rfl

/-- A computation that fails blames no cell. -/
theorem apply_error {op : Operator} {lhs rhs : Int64} {e : EvalError}
    (h : op.apply lhs rhs = .error e) :
    e.blamed? = none := by
  rcases apply_error_cases h with rfl | rfl <;> rfl

end Operator

end TableCalc
