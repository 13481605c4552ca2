import TableCalc.Proofs.Evaluation.Rules

/-!
# Adequacy of the rules

The evaluator follows the rules of evaluation. Each of its functions has an equation here that says
what it does from a given evaluation (`run_resolve`, `run_foldReversed_cons`, `run_evaluateWithin`);
from these, each function follows the rules if the functions that it calls do.

The bound on the depth needs an argument. Every nested evaluation puts a cell of the raw grid on the
trail that was not there, so the number of cells that may still enter (`openCells`) goes down with
the room. Therefore the evaluator follows the rules whenever it has more room than open cells
(`follows_evaluateWithin`). `evaluateAndStore` has, so it agrees with the rules on every run
(`runs_cell_iff`).
-/

namespace TableCalc.Evaluation
open Expression

variable {raw : Grid}

/-- What follows a computation is done after it from the state that it leaves, unless it failed. -/
lemma run_bind {α β} {m : EvalM α} {f : α → EvalM β} {s : Evaluation} :
    (m >>= f).run.run s = match m.run.run s with
      | (.ok a, t) => (f a).run.run t
      | (.error e, t) => (.error e, t) := by
  simp only [ExceptT.run_bind, StateT.run_bind]
  rcases m.run.run s with ⟨_ | _, t⟩ <;> rfl

/-- A failure is caught together with the changes made before it. -/
lemma run_tryCatch {α} {m : EvalM α} {f : EvalError → EvalM α} {s : Evaluation} :
    (tryCatch m f).run.run s = match m.run.run s with
      | (.ok a, t) => (.ok a, t)
      | (.error e, t) => (f e).run.run t := by
  simp only [ExceptT.run_tryCatch, StateT.run_bind]
  rcases m.run.run s with ⟨_ | _, t⟩ <;> rfl

/-- The state can be looked at without a change. -/
@[simp] lemma run_get {s : Evaluation} : (get : EvalM Evaluation).run.run s = (.ok s, s) := rfl

/-- A failure leaves the state as it is. -/
@[simp] lemma run_throw {α} {e : EvalError} {s : Evaluation} :
    (throw e : EvalM α).run.run s = (.error e, s) := rfl

/-- An outcome that is known already leaves the state as it is. -/
@[simp] lemma run_ofExcept {α} {x : Except EvalError α} {s : Evaluation} :
    (ofExcept x : EvalM α).run.run s = (x, s) := by
  cases x <;> rfl

/-- What resolving a reference does. -/
lemma run_resolve {s : Evaluation} {z evaluate} :
    (resolve raw evaluate z).run.run s = match raw[z]? with
      | none => (.error (.undefinedCell z.name), s)
      | some given => match s.memo[z]?.getD given with
        | .number value => (.ok value, s)
        | .text _ => (.error (.textInExpression z), s)
        | .error _ => (.error (.propagated z), s)
        | .expression source =>
          if z ∈ s.trail.path then (.error (.circularReference z), s)
          else match (evaluate z (normalize source)).run.run s with
            | (outcome, t) => (outcome.mapError (·.seenFrom z), t) := by
  unfold resolve
  cases raw[z]? with
  | none => rfl
  | some given =>
    simp only [run_bind, run_get]
    cases s.memo[z]?.getD given with
    | number value => rfl
    | text content => rfl
    | error message => rfl
    | expression source =>
      by_cases hmem : z ∈ s.trail.path
      · simp only [run_bind, run_get, Trail.contains_iff, hmem, if_true, run_throw]
      · simp only [run_bind, run_get, Trail.contains_iff, hmem, if_false, run_tryCatch]
        rcases (evaluate z (normalize source)).run.run s with ⟨_ | _, t⟩ <;> rfl

/-- What folding three or more lexemes does. -/
lemma run_foldReversed_cons {s : Evaluation} {op last symbol earlier} :
    (foldReversed op (last :: symbol :: earlier)).run.run s = match (op last).run.run s with
      | (.error e, t) => (.error e, t)
      | (.ok rhs, t) => match operator symbol with
        | .error e => (.error e, t)
        | .ok o => match (foldReversed op earlier).run.run t with
          | (outcome, u) => (outcome >>= (o.apply · rhs), u) := by
  rw [foldReversed, run_bind]
  rcases (op last).run.run s with ⟨e | rhs, t⟩
  · rfl
  · simp only [run_bind, run_ofExcept]
    cases operator symbol with
    | error e => rfl
    | ok o =>
      dsimp only
      rcases (foldReversed op earlier).run.run t with ⟨_ | _, u⟩ <;> rfl

/-- What the evaluation of an expression does. -/
lemma run_evaluateWithin {s : Evaluation} {room z expression} :
    (evaluateWithin raw (room + 1) z expression).run.run s =
      match (foldReversed (operand (resolve raw (evaluateWithin raw room)))
        (tokenize expression).reverse).run.run
        (s.enter z) with
      | (outcome, t) => (outcome, t.leave z outcome) := rfl

/-- From `s`, the computation does what the rules say of the task. -/
def Follows (raw : Grid) (s : Evaluation) (task : Task) (m : EvalM Int64) : Prop :=
  Runs raw s task (m.run.run s).1 (m.run.run s).2

/-- Resolving follows the rules if the evaluations it calls for do: those of raw cells that are not
on the trail. -/
lemma follows_resolve {s : Evaluation} {z evaluate}
    (nested : ∀ source, z ∈ raw → z ∉ s.trail.path →
      Follows raw s (.cell z (normalize source)) (evaluate z (normalize source))) :
    Follows raw s (.reference z) (resolve raw evaluate z) := by
  unfold Follows
  rw [run_resolve]
  cases h : raw[z]? with
  | none => exact .undefined h
  | some given =>
    dsimp only
    cases hcell : s.memo[z]?.getD given with
    | number value => exact .settled h (by rw [hcell]; rfl)
    | text content => exact .settled h (by rw [hcell]; rfl)
    | error message => exact .settled h (by rw [hcell]; rfl)
    | expression source =>
      by_cases hmem : z ∈ s.trail.path
      · simp only [hmem, if_true]
        exact .circular h hcell hmem
      · simp only [hmem, if_false]
        have hz : z ∈ raw := Grid.isSome_getElem?_iff_mem.1 (by simp [h])
        exact .nested h hcell hmem (nested source hz hmem)

/-- An operand runs by the rules if every reference does. -/
lemma follows_operand {s : Evaluation} {lexeme res}
    (h : ∀ z, Follows raw s (.reference z) (res z)) :
    Follows raw s (.operand lexeme) (operand res lexeme) := by
  unfold Follows operand
  rw [run_bind, run_ofExcept]
  cases hc : Token.classify lexeme with
  | error e => exact .unknown hc
  | ok token =>
    cases token with
    | number value => exact .literal hc
    | reference z => exact .reference hc (h z)
    | operator op => exact .misplaced hc

/-- The trail is the same whenever an operand is due, so what holds of operands under this trail is
enough. -/
lemma follows_foldReversed {s : Evaluation} {lexemes op}
    (h : ∀ t lexeme, t.trail = s.trail → Follows raw t (.operand lexeme) (op lexeme)) :
    Follows raw s (.fold lexemes) (foldReversed op lexemes) := by
  induction lexemes using foldReversed.induct generalizing s with
  | case1 => exact .unfinished
  | case2 lexeme => exact .first (h s lexeme rfl)
  | case3 last symbol earlier ih =>
    have hlast := h s last rfl
    unfold Follows at hlast ⊢
    rw [run_foldReversed_cons]
    rcases hrun : (op last).run.run s with ⟨e | rhs, t⟩
    all_goals rw [hrun] at hlast
    · exact .operandFails hlast
    · cases hop : operator symbol with
      | error e => exact .operatorFails hlast hop
      | ok o =>
        have htrail : t.trail = s.trail := hlast.trail_eq trivial
        exact .step hlast hop (ih fun u lexeme hu => h u lexeme (hu.trans htrail))

/-- How many raw cells may still enter the trail. -/
def openCells (raw : Grid) (trail : Trail) : Nat := (raw.addresses.filter (· ∉ trail.path)).length

/-- No more cells are open than there are. -/
lemma openCells_le {trail : Trail} : openCells raw trail ≤ raw.size := by
  rw [← Grid.length_addresses]
  exact List.length_filter_le _ _

/-- A raw cell that enters the trail is open no more. -/
lemma openCells_enter_lt {trail : Trail} {z} (hz : z ∈ raw) (h : z ∉ trail.path) :
    openCells raw (trail.enter z).2 < openCells raw trail := by
  have fewer : raw.addresses.filter (· ∉ (trail.enter z).2.path) =
      (raw.addresses.filter (· ∉ trail.path)).filter (· ≠ z) := by
    rw [Trail.path_enter h, List.filter_filter]
    refine List.filter_congr fun a _ => ?_
    simp [and_comm]
  unfold openCells
  rw [fewer, List.length_filter_lt_length_iff_exists]
  exact ⟨z, by simp [Grid.mem_addresses.2 hz, h], by simp⟩

/-- With more room than open cells, the bound on the depth is never met. -/
theorem follows_evaluateWithin {s : Evaluation} {room z expression}
    (h : openCells raw (s.trail.enter z).2 < room) :
    Follows raw s (.cell z expression) (evaluateWithin raw room z expression) := by
  induction room generalizing s z expression with
  | zero => omega
  | succ room ih =>
    unfold Follows
    rw [run_evaluateWithin]
    refine .cell
      (follows_foldReversed fun t lexeme ht => follows_operand fun y => follows_resolve ?_)
    intro source hy hmem
    -- the nested cell is raw and not on the trail, so one cell less is open to it
    apply ih
    have fewer := openCells_enter_lt hy hmem
    rw [ht, trail_enter] at fewer ⊢
    omega

/-- The evaluator runs by the rules. -/
theorem follows_evaluateAndStore {s : Evaluation} {z expression} :
    Follows raw s (.cell z expression) (evaluateAndStore raw z expression) :=
  follows_evaluateWithin (Nat.lt_succ_of_le openCells_le)

/-- Every evaluation ends, and it is a run by the rules. -/
lemma exists_runs_evaluateAndStore (raw : Grid) (s : Evaluation) (z : Address)
    (expression : String) :
    ∃ outcome t, Runs raw s (.cell z expression) outcome t ∧
      (evaluateAndStore raw z expression).run.run s = (outcome, t) :=
  ⟨_, _, follows_evaluateAndStore, rfl⟩

/-- The rules take every reference to an end. -/
lemma exists_runs_reference (raw : Grid) (s : Evaluation) (z : Address) :
    ∃ outcome t, Runs raw s (.reference z) outcome t :=
  ⟨_, _, follows_resolve fun _ _ _ => follows_evaluateAndStore⟩

/-- The evaluator and the rules agree on every evaluation of an expression. -/
theorem runs_cell_iff {s : Evaluation} {z expression outcome t} :
    Runs raw s (.cell z expression) outcome t ↔
      (evaluateAndStore raw z expression).run.run s = (outcome, t) := by
  refine ⟨?_, ?_⟩
  · intro run
    obtain ⟨_, _, run', same⟩ := exists_runs_evaluateAndStore raw s z expression
    obtain ⟨rfl, rfl⟩ := run'.deterministic run
    exact same
  · intro h
    obtain ⟨_, _, run, same⟩ := exists_runs_evaluateAndStore raw s z expression
    cases same.symm.trans h
    exact run

/-- The fold of lexemes, given from left to right, with room for every evaluation that it calls for.
-/
def foldLexemes (raw : Grid) (lexemes : List String) : EvalM Int64 :=
  foldReversed (operand (resolve raw (evaluateAndStore raw))) lexemes.reverse

/-- Operands run by the rules. -/
lemma follows_operand_resolve {s : Evaluation} {lexeme} :
    Follows raw s (.operand lexeme) (operand (resolve raw (evaluateAndStore raw)) lexeme) :=
  follows_operand fun _ => follows_resolve fun _ _ _ => follows_evaluateAndStore

/-- Expressions are folded by the rules. -/
lemma follows_foldLexemes {s : Evaluation} {lexemes} :
    Follows raw s (.fold lexemes.reverse) (foldLexemes raw lexemes) :=
  follows_foldReversed fun _ _ _ => follows_operand_resolve

/-- The evaluation of an expression is the fold of its lexemes, whatever room there is. -/
theorem run_evaluateAndStore {s : Evaluation} {z expression} :
    (evaluateAndStore raw z expression).run.run s =
      match (foldLexemes raw (tokenize expression)).run.run (s.enter z) with
      | (outcome, t) => (outcome, t.leave z outcome) :=
  runs_cell_iff.1 (.cell follows_foldLexemes)

end TableCalc.Evaluation
