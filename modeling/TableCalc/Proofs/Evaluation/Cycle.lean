import TableCalc.Proofs.Evaluation.Log
import TableCalc.Proofs.Evaluation.Message
import TableCalc.Proofs.Evaluation.Settlement

/-!
# Circular references

`Blames raw x w` says that, asked when all is settled, the expression cell `x` fails because of the
error of `w`. A cell blames one other cell at most (`Blames.unique`).

A circular reference arises at a reference back to the trail and fails one expression after another
on its way, each because of the cell that it comes from. So whenever an evaluation has the outcome
that `y` is circular, `y` is on the trail and is reached from the evaluation by blame
(`Runs.circular_origin`). Since the trail is a path of references, the cell and `y` lie on a common
cycle. It goes no further than to `y`, which reports itself (`Runs.origin_reports`).

`Reported` says of a memo what follows for the circular references that it holds, and `Ranked` that
the errors that are passed on in it do not go round in circles: an error is there before it is
passed on.
-/

namespace TableCalc
open Expression Relation

variable {raw : Grid}

/-- Each cell on a path refers to the last one, in one step or in several. -/
lemma Leads.reaches_last {start e path z e'} (leads : Leads raw start e (path ++ [z]) e')
    (own : Holds raw start e) :
    ∀ y ∈ path, TransGen (References raw) y z := by
  generalize hpath : path ++ [z] = whole at leads
  cases leads with
  | start =>
    obtain ⟨rfl, -⟩ := List.append_eq_singleton_iff.1 hpath |>.resolve_right (by simp)
    simp
  | on leads mentions _ =>
    obtain ⟨rfl, e⟩ := List.append_inj' hpath rfl
    cases e
    exact leads.reaches own mentions

namespace Evaluation

/-- The expression of `x` refers to `w`, and it fails because of the error of `w` when all is
settled. -/
def Blames (raw : Grid) (x w : Address) : Prop :=
  ∃ e, Holds raw x e ∧ Mentions e w ∧ Justified raw (.cell x e) (.error (.propagated w))

/-- A cell blames one other cell at most. -/
lemma Blames.unique {x w w'} (h : Blames raw x w) (h' : Blames raw x w') : w = w' := by
  obtain ⟨e, hx, -, justified⟩ := h
  obtain ⟨e', hx', -, justified'⟩ := h'
  cases hx.unique hx'
  cases justified.unique_of_not_circular justified' nofun nofun
  rfl

/-- Only a cell with an expression blames another one. -/
lemma Blames.holds {x w} (h : Blames raw x w) : ∃ e, Holds raw x e := by
  obtain ⟨e, hx, -⟩ := h
  exact ⟨e, hx⟩

/-- A cell refers to the cell that it blames. -/
lemma Blames.references {x w} (h : Blames raw x w) : References raw x w := by
  obtain ⟨e, hx, mentions, -⟩ := h
  exact ⟨e, hx, mentions⟩

/-- Where blame leads, references lead as well. -/
lemma Blames.reaches {x w} (h : TransGen (Blames raw) x w) : TransGen (References raw) x w :=
  TransGen.mono (fun _ _ => Blames.references) _ _ h

/-- The cell that is blamed is the one of the rightmost reference to a cell without a value. -/
lemma Blames.rightmost {x e w} (h : Blames raw x w) (hx : Holds raw x e) :
    RightmostReference (Valueless raw) (tokenize e) w := by
  obtain ⟨e', hx', -, justified⟩ := h
  cases hx.unique hx'
  cases justified with
  | cell justified =>
    have rightmost := justified.rightmost
    rwa [List.reverse_reverse] at rightmost

/-- Along a cycle of blame there is always a way back. -/
lemma Blames.back {x y} (cycle : TransGen (Blames raw) x x) (h : ReflTransGen (Blames raw) x y) :
    TransGen (Blames raw) y x := by
  have unique : Relator.RightUnique (Blames raw) := fun _ _ _ => Blames.unique
  exact reaches_back unique cycle h

/-- The task has a reference to `w` before it. -/
def Task.Mentions (w : Address) : Task → Prop
  | .cell _ e => TableCalc.Mentions e w
  | .fold lexemes => ∃ lexeme ∈ lexemes, Token.classify lexeme = .ok (.reference w)
  | .operand lexeme => Token.classify lexeme = .ok (.reference w)
  | .reference z => z = w

/-- The cells under evaluation while the task is worked on. -/
def Task.path (trail : Trail) : Task → List Address
  | .cell z _ => trail.path ++ [z]
  | .fold _ | .operand _ | .reference _ => trail.path

/-- The memo has a circular reference of `y` at `x`. -/
def ReportsCircular (memo : Grid) (x y : Address) : Prop :=
  memo[x]? = some (.ofOutcome (.error (.circularReference y)))

/-- The memo has the error of `w` passed on at `x`. -/
def PassesOn (memo : Grid) (x w : Address) : Prop :=
  memo[x]? = some (.ofOutcome (.error (.propagated w)))

/-- An error that is passed on is no circular reference. -/
lemma PassesOn.not_reportsCircular {memo : Grid} {x w} (h : PassesOn memo x w) (y : Address) :
    ¬ ReportsCircular memo x y := by
  intro reports
  cases Cell.ofOutcome_injective (Option.some.inj (h.symm.trans reports))

/-- A circular reference of `y` that fails the task: `y` is under evaluation, and the reference
comes from a cell that the task mentions and would blame. That cell is `y`, or it reports `y` as
circular in the memo. -/
def Circular (raw : Grid) (path : List Address) (task : Task) (memo : Grid) (y : Address) : Prop :=
  y ∈ path ∧ ∃ w, task.Mentions w ∧ Justified raw task (.error (.propagated w)) ∧
    ReflTransGen (Blames raw) w y ∧
    (w = y ∨ ReportsCircular memo w y)

/-- To a reference, a failure of the cell is circular if and only if it is a circular reference of
another cell. -/
lemma mapError_seenFrom_eq_circular_iff {outcome : Outcome} {z y : Address} :
    outcome.mapError (·.seenFrom z) = .error (.circularReference y) ↔
      outcome = .error (.circularReference y) ∧ y ≠ z := by
  cases outcome with
  | ok value => simp [Except.mapError]
  | error e =>
    cases e with
    | circularReference origin =>
      simp only [Except.mapError, EvalError.seenFrom]
      split <;> grind
    | _ => simp [Except.mapError, EvalError.seenFrom]

/-- A reference to an expression cell without a value may always find the error in the memo. -/
lemma Valueless.justified {z e} (h : Valueless raw z) (hz : Holds raw z e) :
    Justified raw (.reference z) (.error (.propagated z)) := by
  obtain ⟨outcome, justified⟩ := exists_justified hz
  cases outcome with
  | ok value => exact absurd h (Justified.remembered hz justified).not_valueless
  | error e => exact .remembered hz justified

variable {start : Address} {e₀ : String}

/-- A run that ends in a circular reference of `y` began with `y` under evaluation. -/
theorem Runs.circular_origin {s task outcome t y} (run : Runs raw s task outcome t)
    (fresh : Fresh raw start e₀ s task) (h : outcome = .error (.circularReference y)) :
    Circular raw (task.path s.trail) task t.memo y := by
  induction run with
  | cell run ih =>
    obtain ⟨origin, w, ⟨lexeme, hmem, hc⟩, justified, blames, reported⟩ := ih fresh.fold h
    rw [Task.path, trail_enter, Trail.path_enter fresh.not_mem] at origin
    have mentions : TableCalc.Mentions _ w := ⟨lexeme, List.mem_reverse.1 hmem, hc⟩
    exact ⟨origin, w, mentions, .cell justified, blames, reported.imp_right (fresh.kept run)⟩
  | unfinished => cases h
  | first _ ih =>
    obtain ⟨origin, w, hc, justified, blames, reported⟩ := ih fresh.operand h
    exact ⟨origin, w, ⟨_, by simp, hc⟩, .first justified, blames, reported⟩
  | operandFails _ ih =>
    cases h
    obtain ⟨origin, w, hc, justified, blames, reported⟩ := ih fresh.operand rfl
    exact ⟨origin, w, ⟨_, by simp, hc⟩, .operandFails justified, blames, reported⟩
  | operatorFails _ hop _ =>
    cases h
    cases operator_error hop
  | @step _ _ _ _ _ _ _ _ earlierOutcome run hop _ _ ihEarlier =>
    cases earlierOutcome with
    | ok lhs => cases Operator.apply_error h
    | error e =>
      obtain ⟨origin, w, ⟨lexeme, hmem, hc⟩, justified, blames, reported⟩ :=
        ihEarlier (fresh.earlier run) h
      rw [Task.path, run.trail_eq trivial] at origin
      have failed := Justified.step (fresh.operand.justified run) hop justified
      exact ⟨origin, w, ⟨lexeme, by simp [hmem], hc⟩, failed, blames, reported⟩
  | unknown hc =>
    cases h
    cases Token.classify_error hc
  | literal _ => cases h
  | misplaced _ => cases h
  | reference hc _ ih =>
    obtain ⟨origin, w, rfl, justified, blames, reported⟩ := ih (fresh.reference hc) h
    exact ⟨origin, _, hc, .reference hc justified, blames, reported⟩
  | undefined _ => cases h
  | @settled s z given _ _ hseen =>
    generalize s.memo[z]?.getD given = cell at hseen
    cases cell <;> cases hseen <;> cases h
  | circular hz hcell hmem =>
    cases h
    obtain ⟨-, rfl⟩ := fresh.toPlaced.fresh hcell
    have valueless := (fresh.justified (.circular hz hcell hmem)).valueless
    exact ⟨hmem, _, rfl, valueless.justified (.of_eq hz), .refl, .inl rfl⟩
  | @nested _ _ z _ _ outcome hz hcell hmem run ih =>
    obtain ⟨-, rfl⟩ := fresh.toPlaced.fresh hcell
    have valueless : Valueless raw z := (h ▸ fresh.justified (.nested hz hcell hmem run)).valueless
    obtain ⟨rfl, hne⟩ := mapError_seenFrom_eq_circular_iff.1 h
    obtain ⟨origin, w, mentions, justified, blames, -⟩ := ih (fresh.nested hz hcell hmem) rfl
    -- the circular reference is let through, so it is not one of `z`
    have hy := (List.mem_append.1 origin).resolve_right fun hy => hne (List.mem_singleton.1 hy)
    exact ⟨hy, z, rfl, valueless.justified (.of_eq hz),
      .head ⟨_, .of_eq hz, mentions, justified⟩ blames,
      .inr run.getElem?_cell⟩

/-- Every cell that a circular reference is about reports it itself. -/
def OriginsReport (raw memo : Grid) : Prop :=
  ∀ x e y, Holds raw x e → ReportsCircular memo x y → ReportsCircular memo y y

/-- If in the memo all origins report, this is so after a run as well, but for the circular
reference that the run ends in. -/
theorem Runs.origin_reports {s task outcome t} (run : Runs raw s task outcome t)
    (fresh : Fresh raw start e₀ s task) (h : OriginsReport raw s.memo) :
    ∀ x e y, Holds raw x e → ReportsCircular t.memo x y →
      ReportsCircular t.memo y y ∨ outcome = .error (.circularReference y) := by
  induction run with
  | @cell _ t z _ outcome run ih =>
    intro x e y hx reports
    rw [ReportsCircular, memo_leave, Grid.getElem?_insert] at reports
    split at reports
    · exact .inr (Cell.ofOutcome_injective (Option.some.inj reports))
    · exact (ih fresh.fold h x e y hx reports).imp_left (fresh.kept run)
  | unfinished => exact fun x e y hx reports => .inl (h x e y hx reports)
  | first _ ih => exact ih fresh.operand h
  | operandFails _ ih => exact ih fresh.operand h
  | operatorFails _ _ ih =>
    intro x e y hx reports
    exact .inl ((ih fresh.operand h x e y hx reports).resolve_right nofun)
  | step run _ _ ih ihEarlier =>
    intro x e y hx reports
    have origins : OriginsReport raw _ := fun x e y hx reports =>
      (ih fresh.operand h x e y hx reports).resolve_right nofun
    refine (ihEarlier (fresh.earlier run) origins x e y hx reports).imp_right ?_
    rintro rfl
    rfl
  | unknown _ => exact fun x e y hx reports => .inl (h x e y hx reports)
  | literal _ => exact fun x e y hx reports => .inl (h x e y hx reports)
  | misplaced _ => exact fun x e y hx reports => .inl (h x e y hx reports)
  | reference hc _ ih => exact ih (fresh.reference hc) h
  | undefined _ => exact fun x e y hx reports => .inl (h x e y hx reports)
  | settled _ _ => exact fun x e y hx reports => .inl (h x e y hx reports)
  | circular _ _ _ => exact fun x e y hx reports => .inl (h x e y hx reports)
  | @nested _ _ z _ _ outcome hz hcell hmem run ih =>
    intro x e y hx reports
    rcases ih (fresh.nested hz hcell hmem) h x e y hx reports with reports | rfl
    · exact .inl reports
    · by_cases hy : y = z
      · -- the circular reference has come back to where it began
        exact .inl (hy ▸ run.getElem?_cell)
      · exact .inr (mapError_seenFrom_eq_circular_iff.2 ⟨rfl, hy⟩)

/-- An error that is passed on from an expression cell is in the memo. -/
theorem Runs.mem_of_passesOn {s task outcome t} (run : Runs raw s task outcome t) {w e}
    (hw : Holds raw w e) (h : outcome = .error (.propagated w)) : w ∈ t.memo := by
  induction run with
  | cell _ ih => exact Grid.mem_insert.2 (.inr (ih h))
  | unfinished => cases h
  | first _ ih => exact ih h
  | operandFails _ ih =>
    cases h
    exact ih rfl
  | operatorFails _ hop _ =>
    cases h
    cases operator_error hop
  | @step _ _ _ _ _ _ _ _ earlierOutcome _ _ _ _ ihEarlier =>
    cases earlierOutcome with
    | ok lhs => cases Operator.apply_error h
    | error e => exact ihEarlier h
  | unknown hc =>
    cases h
    cases Token.classify_error hc
  | literal _ => cases h
  | misplaced _ => cases h
  | reference _ _ ih => exact ih h
  | undefined _ => cases h
  | @settled s z given _ hz hseen =>
    cases hmemo : s.memo[z]? with
    | none =>
      -- the raw cell is an expression, and there is nothing to be seen of that
      rw [hmemo, Option.getD_none] at hseen
      cases given <;> cases hseen <;> cases h
      obtain ⟨source, hsource, -⟩ := hw
      cases hz.symm.trans hsource
    | some cell =>
      have hmem : z ∈ s.memo := Grid.isSome_getElem?_iff_mem.1 (by simp [hmemo])
      rw [hmemo, Option.getD_some] at hseen
      cases cell <;> cases hseen <;> cases h
      exact hmem
  | circular _ _ _ => cases h
  | @nested _ _ z _ _ outcome _ _ _ run _ =>
    have hz : z = w := by
      cases outcome with
      | ok value => cases h
      | error e => cases e <;> simp [Except.mapError, EvalError.seenFrom] at h <;> grind
    rw [← hz, ← Grid.isSome_getElem?_iff_mem, run.getElem?_cell]
    rfl

/-- What is so of every circular reference in the memo: blame leads from the cell to `y` by way of
cells that report the same, and references lead back. -/
def Reported (raw memo : Grid) : Prop :=
  ∀ x e y, Holds raw x e → ReportsCircular memo x y →
    TransGen (Blames raw) x y ∧ TransGen (References raw) y x ∧
      ∃ w, Blames raw x w ∧ (w = y ∨ ReportsCircular memo w y)

/-- What is true of the circular references in a memo stays so when an outcome is stored. -/
lemma Reported.insert {s z e outcome t} (h : Reported raw t.memo)
    (fresh : Fresh raw start e₀ s (.cell z e))
    (run : Runs raw (s.enter z) (.fold (tokenize e).reverse) outcome t) :
    Reported raw (t.memo.insert z (.ofOutcome outcome)) := by
  intro x e' y hx reports
  rw [ReportsCircular, Grid.getElem?_insert] at reports
  split at reports
  · rename_i hzx
    obtain rfl := hzx
    obtain rfl := Cell.ofOutcome_injective (Option.some.inj reports)
    obtain ⟨origin, w, mentions, justified, blames, reported⟩ :=
      (Runs.cell run).circular_origin fresh rfl
    have blame : Blames raw z w := ⟨e, fresh.holdsCell, mentions, justified⟩
    have forth : TransGen (Blames raw) z y := .head' blame blames
    refine ⟨forth, ?_, w, blame, reported⟩
    rcases List.mem_append.1 origin with hy | hy
    · exact fresh.leads.2.reaches_last fresh.own y hy
    · rw [List.mem_singleton.1 hy] at forth ⊢
      exact Blames.reaches forth
  · obtain ⟨blames, back, w, blame, reported⟩ := h x e' y hx reports
    exact ⟨blames, back, w, blame, reported.imp_right (fresh.kept run)⟩

/-- The errors passed on in the memo can be ranked such that each comes from a cell of lower rank.
-/
def Ranked (raw memo : Grid) : Prop :=
  ∃ rank : Address → Nat, ∀ x e w e', Holds raw x e → Holds raw w e' → PassesOn memo x w →
    w ∈ memo ∧ rank w < rank x

/-- What is true of the errors passed on in a memo stays so when an outcome is stored. -/
lemma Ranked.insert {s z e outcome t} (h : Ranked raw t.memo)
    (fresh : Fresh raw start e₀ s (.cell z e))
    (run : Runs raw (s.enter z) (.fold (tokenize e).reverse) outcome t) :
    Ranked raw (t.memo.insert z (.ofOutcome outcome)) := by
  obtain ⟨rank, h⟩ := h
  have unset : ∀ w ∈ t.memo, w ≠ z := fun w hw hz => fresh.not_mem_memo run (hz ▸ hw)
  -- the new error is ranked above all that it can come from
  let above := match outcome with
    | .error (.propagated w) => rank w + 1
    | _ => 0
  refine ⟨Function.update rank z above, fun x e' w e'' hx hw passesOn => ?_⟩
  rw [PassesOn, Grid.getElem?_insert] at passesOn
  split at passesOn
  · rename_i hzx
    obtain rfl := hzx
    obtain rfl := Cell.ofOutcome_injective (Option.some.inj passesOn)
    have hmem := run.mem_of_passesOn hw rfl
    refine ⟨Grid.mem_insert.2 (.inr hmem), ?_⟩
    rw [Function.update_self, Function.update_of_ne (unset w hmem)]
    exact Nat.lt_succ_self _
  · rename_i hzx
    obtain ⟨hmem, hlt⟩ := h x e' w e'' hx hw passesOn
    refine ⟨Grid.mem_insert.2 (.inr hmem), ?_⟩
    rwa [Function.update_of_ne (unset w hmem), Function.update_of_ne (Ne.symm hzx)]

end Evaluation

end TableCalc
