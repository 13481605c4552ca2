import TableCalc.Proofs.Evaluation.Placement

/-!
# Outcomes without the state

`Justified raw task outcome` is the evaluation of `task` by rules that mention neither memo nor
trail. They say of a reference to an expression cell only what can be said of it at any time: it
yields the outcome of that expression, as seen either while the cell is under evaluation or from the
memo, and it is circular only if the cell lies on a cycle.

The evaluator keeps to these rules as long as its memo does: every outcome that it stored must be
justified (`Recorded`). This is kept by every run, and the outcome of the run is justified
(`Runs.justified`), because what the memo and the trail hold never leads to more than the rules
allow (`Recorded.seen`, `Placed.reaches_self`). What is to be said about the outcomes of all
evaluations, in whatever order they are made, can then be shown by induction on these rules, and no
memo or trail appears in the argument.
-/

namespace TableCalc.Evaluation
open Expression Relation

/-- `Justified raw task outcome`: work on `task` may yield `outcome`, whatever was evaluated before.
-/
inductive Justified (raw : Grid) : Task → Outcome → Prop where
  | cell {z expression outcome} :
    Justified raw (.fold (tokenize expression).reverse) outcome →
    Justified raw (.cell z expression) outcome
  | unfinished :
    Justified raw (.fold []) (.error .unfinishedExpression)
  | first {lexeme outcome} :
    Justified raw (.operand lexeme) outcome →
    Justified raw (.fold [lexeme]) outcome
  | operandFails {last symbol earlier e} :
    Justified raw (.operand last) (.error e) →
    Justified raw (.fold (last :: symbol :: earlier)) (.error e)
  | operatorFails {last symbol earlier rhs e} :
    Justified raw (.operand last) (.ok rhs) →
    operator symbol = .error e →
    Justified raw (.fold (last :: symbol :: earlier)) (.error e)
  | step {last symbol earlier rhs op outcome} :
    Justified raw (.operand last) (.ok rhs) →
    operator symbol = .ok op →
    Justified raw (.fold earlier) outcome →
    Justified raw (.fold (last :: symbol :: earlier)) (outcome >>= (op.apply · rhs))
  | unknown {lexeme e} :
    Token.classify lexeme = .error e →
    Justified raw (.operand lexeme) (.error e)
  | literal {lexeme value} :
    Token.classify lexeme = .ok (.number value) →
    Justified raw (.operand lexeme) (.ok value)
  | misplaced {lexeme op} :
    Token.classify lexeme = .ok (.operator op) →
    Justified raw (.operand lexeme) (.error .notEnoughOperands)
  | reference {lexeme z outcome} :
    Token.classify lexeme = .ok (.reference z) →
    Justified raw (.reference z) outcome →
    Justified raw (.operand lexeme) outcome
  | undefined {z} :
    raw[z]? = none →
    Justified raw (.reference z) (.error (.undefinedCell z.name))
  | plain {z given outcome} :
    raw[z]? = some given →
    given.seen? z = some outcome →
    Justified raw (.reference z) outcome
  | circular {z e} :
    Holds raw z e →
    TransGen (References raw) z z →
    Justified raw (.reference z) (.error (.circularReference z))
  | nested {z e outcome} :
    Holds raw z e →
    Justified raw (.cell z e) outcome →
    Justified raw (.reference z) (outcome.mapError (·.seenFrom z))
  | remembered {z e outcome} :
    Holds raw z e →
    Justified raw (.cell z e) outcome →
    Justified raw (.reference z) (outcome.mapError fun _ => .propagated z)

/-- The memo holds raw cells as they are, and justified outcomes of expressions. -/
structure Recorded (raw memo : Grid) : Prop where
  plain : ∀ (z : Address) given cell,
    raw[z]? = some given → given.source? = none → memo[z]? = some cell → cell = given
  expression : ∀ (z : Address) e cell,
    Holds raw z e → memo[z]? = some cell → ∃ outcome, Justified raw (.cell z e) outcome ∧
      cell = .ofOutcome outcome

variable {raw : Grid}

/-- In an empty memo there is nothing to justify. -/
lemma recorded_empty : Recorded raw ∅ := ⟨by simp, by simp⟩

/-- The plain cells are recorded as they are. -/
lemma recorded_plain : Recorded raw raw.plain := by
  refine ⟨?_, ?_⟩
  · intro z given cell hz _ hcell
    rw [Grid.getElem?_plain, hz, Option.filter_eq_some_iff] at hcell
    exact (Option.some.inj hcell.1).symm
  · rintro z e cell ⟨source, hz, -⟩ hcell
    rw [Grid.getElem?_plain, hz, Option.filter_eq_some_iff] at hcell
    obtain ⟨h, hplain⟩ := hcell
    cases h
    simp [Cell.isExpression, Cell.source?] at hplain

/-- A justified outcome may be recorded. -/
lemma Recorded.insert {memo : Grid} {z e outcome} (h : Recorded raw memo) (hz : Holds raw z e)
    (justified : Justified raw (.cell z e) outcome) :
    Recorded raw (memo.insert z (.ofOutcome outcome)) := by
  refine ⟨?_, ?_⟩
  · intro y given cell hy hplain hcell
    rw [Grid.getElem?_insert] at hcell
    split at hcell
    · rename_i hzy
      obtain ⟨source, hsource, -⟩ := hz
      rw [← hzy, hsource] at hy
      cases hy
      cases hplain
    · exact h.plain y given cell hy hplain hcell
  · intro y e' cell hy hcell
    rw [Grid.getElem?_insert] at hcell
    split at hcell
    · rename_i hzy
      subst hzy
      cases hz.unique hy
      exact ⟨outcome, justified, (Option.some.inj hcell).symm⟩
    · exact h.expression y e' cell hy hcell

/-- To a reference, an error in the memo is an error of that cell, whatever it was about. -/
lemma seen_ofOutcome {z : Address} {outcome : Outcome} :
    (Cell.ofOutcome outcome).seen? z = some (outcome.mapError fun _ => .propagated z) := by
  cases outcome <;> rfl

/-- What a reference to a settled cell finds is justified. -/
lemma Recorded.seen {memo : Grid} {z given outcome} (h : Recorded raw memo)
    (hz : raw[z]? = some given)
    (hseen : (memo[z]?.getD given).seen? z = some outcome) :
    Justified raw (.reference z) outcome := by
  cases hmemo : memo[z]? with
  | none => exact .plain hz (by simpa [hmemo] using hseen)
  | some cell =>
    rw [hmemo, Option.getD_some] at hseen
    cases hsource : given.source? with
    | none => exact .plain hz (h.plain z given cell hz hsource hmemo ▸ hseen)
    | some source =>
      -- an expression cell in the memo: some evaluation of it was stored
      have own : Holds raw z (normalize source) :=
        .of_eq (by cases given <;> simp_all [Cell.source?])
      obtain ⟨outcome', justified, rfl⟩ := h.expression z _ cell own hmemo
      rw [seen_ofOutcome] at hseen
      cases hseen
      exact .remembered own justified

/-- A run that begins with the expression of a cell keeps to the rules, and so does the memo
afterwards. -/
theorem Runs.justified {start e₀ s task outcome t} (run : Runs raw s task outcome t)
    (own : Holds raw start e₀)
    (placed : Placed raw start e₀ s task) (recorded : Recorded raw s.memo) :
    Justified raw task outcome ∧ Recorded raw t.memo := by
  induction run with
  | cell _ ih =>
    obtain ⟨justified, recorded'⟩ := ih placed.fold recorded
    exact ⟨.cell justified, recorded'.insert (placed.holds own) (.cell justified)⟩
  | unfinished => exact ⟨.unfinished, recorded⟩
  | first _ ih =>
    obtain ⟨justified, recorded'⟩ := ih placed.operand recorded
    exact ⟨.first justified, recorded'⟩
  | operandFails _ ih =>
    obtain ⟨justified, recorded'⟩ := ih placed.operand recorded
    exact ⟨.operandFails justified, recorded'⟩
  | operatorFails _ hop ih =>
    obtain ⟨justified, recorded'⟩ := ih placed.operand recorded
    exact ⟨.operatorFails justified hop, recorded'⟩
  | step run hop _ ih ihEarlier =>
    obtain ⟨justified, recorded'⟩ := ih placed.operand recorded
    obtain ⟨justifiedEarlier, recorded''⟩ := ihEarlier (placed.earlier run) recorded'
    exact ⟨.step justified hop justifiedEarlier, recorded''⟩
  | unknown h => exact ⟨.unknown h, recorded⟩
  | literal h => exact ⟨.literal h, recorded⟩
  | misplaced h => exact ⟨.misplaced h, recorded⟩
  | reference h _ ih =>
    obtain ⟨justified, recorded'⟩ := ih (placed.reference h) recorded
    exact ⟨.reference h justified, recorded'⟩
  | undefined h => exact ⟨.undefined h, recorded⟩
  | settled h hseen => exact ⟨recorded.seen h hseen, recorded⟩
  | circular h hcell hmem =>
    -- the memo is silent about the cell, and the trail leads from the cell back to it
    obtain ⟨-, rfl⟩ := placed.fresh hcell
    exact ⟨.circular (.of_eq h) (placed.reaches_self own hmem), recorded⟩
  | nested h hcell hmem _ ih =>
    obtain ⟨justified, recorded'⟩ := ih (placed.nested h hcell hmem) recorded
    obtain ⟨-, rfl⟩ := placed.fresh hcell
    exact ⟨.nested (.of_eq h) justified, recorded'⟩

/-- Nothing is under evaluation, and the memo keeps to the rules. -/
structure Ready (raw : Grid) (s : Evaluation) : Prop where
  trail : s.trail = .empty
  settled : s.memo.Settled
  recorded : Recorded raw s.memo

/-- The evaluation of an expression cell has a justified outcome, and the evaluator is ready for the
next one. -/
theorem Ready.next {s z e outcome t} (h : Ready raw s) (hz : Holds raw z e)
    (run : Runs raw s (.cell z e) outcome t) :
    Justified raw (.cell z e) outcome ∧ Ready raw t := by
  have placed : Placed raw z e s (.cell z e) := .initial h.settled h.trail
  obtain ⟨justified, recorded⟩ := run.justified hz placed h.recorded
  exact ⟨justified, (run.trail_eq placed.not_mem).trans h.trail, run.memo_settled h.settled,
    recorded⟩

end TableCalc.Evaluation
