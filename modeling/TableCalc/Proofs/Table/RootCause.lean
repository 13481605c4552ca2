import Mathlib.Data.List.Chain
import TableCalc.Proofs.Table.Solution

/-!
# Root causes

An error that is passed on names the cell that it comes from, so a failure can be traced from cell
to cell. The trace never comes back to a cell, since an error is there before it is passed on
(`ranked_compute`). So it ends, and it ends at a cell that has failed for a reason of its own, or at
an error cell of the raw grid (`traced_compute`).
-/

namespace TableCalc.Table
open Evaluation Expression Relation

/-- The expression cell `x` has the error of `z` passed on. -/
def PassesErrorOn (t : Table) (x z : Address) : Prop :=
  (∃ source, t.raw[x]? = some (.expression source)) ∧
    t.computed[x]? = some (.error (EvalError.propagated z).message)

/-- The cell is a raw error, or an expression with a failure that is not passed on from another
cell. -/
def RootCause (t : Table) (z : Address) : Prop :=
  (∃ message, t.raw[z]? = some (.error message)) ∨
    (∃ source, t.raw[z]? = some (.expression source)) ∧
      ∃ e : EvalError, t.computed[z]? = some (.error e.message) ∧ ∀ w, e ≠ .propagated w

variable {t : Table}

/-- A cell passes the error of one other cell on at most. -/
lemma PassesErrorOn.unique {x z z'} (h : PassesErrorOn t x z) (h' : PassesErrorOn t x z') :
    z = z' := by
  have same := Option.some.inj (h.2.symm.trans h'.2)
  cases EvalError.message_injective (Cell.error.inj same)
  rfl

/-- At a root cause a trace ends. -/
lemma RootCause.not_passesErrorOn {x z} (root : RootCause t x) : ¬ PassesErrorOn t x z := by
  rintro ⟨⟨source, hsource⟩, passesOn⟩
  rcases root with ⟨message, hmessage⟩ | ⟨-, e, hcell, own⟩
  · cases hsource.symm.trans hmessage
  · have same := Option.some.inj (hcell.symm.trans passesOn)
    exact own z (EvalError.message_injective (Cell.error.inj same))

/-- An error is passed on from a cell that the expression refers to and that holds an error,
computed or given. -/
lemma PassesErrorOn.source {x z} (h : PassesErrorOn t.compute.2 x z) :
    References t.raw x z ∧ t.compute.2.computed.holdsError z = true ∧
      ((∃ message, t.raw[z]? = some (.error message)) ∨
        ∃ source, t.raw[z]? = some (.expression source)) := by
  obtain ⟨⟨source, hsource⟩, passesOn⟩ := h
  have hx : Holds t.raw x (normalize source) := .of_eq hsource
  obtain ⟨outcome, justified, hcell⟩ := exists_computed hx
  obtain rfl : outcome = .error (.propagated z) :=
    Cell.ofOutcome_injective (Option.some.inj (hcell.symm.trans passesOn))
  cases justified with
  | cell justified =>
    have rightmost := justified.rightmost
    rw [List.reverse_reverse] at rightmost
    have edge : References t.raw x z := ⟨_, hx, rightmost.mentions⟩
    rcases (justified.reference_passesOn rfl).error_or_holds with ⟨message, hz⟩ | ⟨e, hz⟩
    · exact ⟨edge, Grid.holdsError_iff.2 ⟨message, getElem?_computed_of_plain hz rfl⟩,
        .inl ⟨message, hz⟩⟩
    · obtain ⟨source', hsource', -⟩ := id hz
      exact ⟨edge, holdsError_of_valueless hz rightmost.property, .inr ⟨source', hsource'⟩⟩

/-- The computed error of an expression cell is passed on, or its own. -/
lemma rootCause_or_passesErrorOn {x source} (hx : t.raw[x]? = some (.expression source))
    (fails : t.compute.2.computed.holdsError x = true) :
    RootCause t.compute.2 x ∨ ∃ z, PassesErrorOn t.compute.2 x z := by
  obtain ⟨message, herror⟩ := Grid.holdsError_iff.1 fails
  obtain ⟨outcome, -, hcell⟩ := exists_computed (.of_eq hx)
  cases outcome with
  | ok value => cases herror.symm.trans hcell
  | error e =>
    by_cases passedOn : ∃ z, e = .propagated z
    · obtain ⟨z, rfl⟩ := passedOn
      exact .inr ⟨z, ⟨source, hx⟩, hcell⟩
    · exact .inl (.inr ⟨⟨source, hx⟩, e, hcell, fun z hz => passedOn ⟨z, hz⟩⟩)

/-- The walks along passed-on errors that begin at `x` are the beginnings of one path, on which no
cell stands twice and which ends at a root cause. -/
def Traced (t : Table) (x : Address) : Prop :=
  ∃ path, (∀ walk, (x :: walk).IsChain (PassesErrorOn t) ↔ walk <+: path) ∧ (x :: path).Nodup ∧
    RootCause t ((x :: path).getLast (List.cons_ne_nil x path))

/-- A root cause is traced to itself. -/
lemma RootCause.traced {x} (root : RootCause t x) : Traced t x := by
  refine ⟨[], fun walk => ?_, by simp, root⟩
  cases walk with
  | nil => simp
  | cons z walk => simp [root.not_passesErrorOn]

/-- A trace leads on to the cell that the error is passed on from. -/
lemma Traced.cons {x z} (h : Traced t z) (link : PassesErrorOn t x z)
    (loose : ∀ walk : List Address, walk.IsChain (PassesErrorOn t) → walk.Nodup) : Traced t x := by
  obtain ⟨path, walks, -, root⟩ := h
  have whole : (z :: path).IsChain (PassesErrorOn t) := (walks path).2 List.prefix_rfl
  refine ⟨z :: path, fun walk => ?_, loose _ (.cons_cons link whole), ?_⟩
  · cases walk with
    | nil => simp
    | cons z' walk =>
      rw [List.isChain_cons_cons, List.cons_prefix_cons]
      constructor
      · intro h
        obtain rfl := h.1.unique link
        exact ⟨rfl, (walks walk).1 h.2⟩
      · intro h
        obtain rfl := h.1
        exact ⟨link, (walks walk).2 h.2⟩
  · rwa [List.getLast_cons (List.cons_ne_nil z path)]

/-- Along a trace a rank goes down, but for a last step to an error cell of the raw grid. -/
lemma exists_rank (t : Table) : ∃ rank : Address → Nat, ∀ x z, PassesErrorOn t.compute.2 x z →
    (∃ source, t.raw[z]? = some (.expression source)) → rank z < rank x := by
  obtain ⟨rank, ranked⟩ := ranked_compute t
  refine ⟨rank, fun x z link hz => ?_⟩
  obtain ⟨⟨source, hx⟩, passesOn⟩ := link
  obtain ⟨source', hz⟩ := hz
  exact (ranked x _ z _ (.of_eq hx) (.of_eq hz) passesOn).2

/-- Errors are not passed on in a circle. -/
lemma not_passesErrorOn_self {x} : ¬ TransGen (PassesErrorOn t.compute.2) x x := by
  obtain ⟨rank, lower⟩ := exists_rank t
  have descends : ∀ {x z}, TransGen (PassesErrorOn t.compute.2) x z →
      (∃ source, t.raw[z]? = some (.expression source)) → rank z < rank x := by
    intro x z walk hz
    induction walk with
    | single link => exact lower _ _ link hz
    | tail _ link ih => exact (lower _ _ link hz).trans (ih link.1)
  intro cycle
  obtain ⟨_, link, -⟩ := TransGen.head'_iff.1 cycle
  exact lt_irrefl _ (descends cycle link.1)

/-- No cell comes twice on a walk along errors that are passed on. -/
lemma nodup_of_isChain {walk : List Address} (chain : walk.IsChain (PassesErrorOn t.compute.2)) :
    walk.Nodup := by
  have pairwise := (chain.imp fun _ _ => TransGen.single).pairwise
  refine pairwise.imp fun {a b} path => ?_
  rintro rfl
  exact not_passesErrorOn_self path

/-- Every computed error can be traced to a root cause. -/
lemma traced_compute {x source} (hx : t.raw[x]? = some (.expression source))
    (fails : t.compute.2.computed.holdsError x = true) : Traced t.compute.2 x := by
  obtain ⟨rank, lower⟩ := exists_rank t
  induction hrank : rank x using Nat.strong_induction_on generalizing x source with
  | _ n ih =>
    rcases rootCause_or_passesErrorOn hx fails with root | ⟨z, link⟩
    · exact root.traced
    · obtain ⟨-, failsToo, ⟨message, hz⟩ | ⟨source', hz⟩⟩ := link.source
      · have root : RootCause t.compute.2 z := .inl ⟨message, hz⟩
        exact Traced.cons root.traced link fun _ => nodup_of_isChain
      · have traced : Traced t.compute.2 z :=
          ih _ (hrank ▸ lower x z link ⟨source', hz⟩) hz failsToo rfl
        exact Traced.cons traced link fun _ => nodup_of_isChain

/-- After a pass, an error that is passed on comes from a cell that the expression refers to and
that holds an error. Followed from any failing expression cell, the errors passed on form one path
without repetitions, which ends at an error cell of the raw grid or at an expression with a failure
of its own. -/
theorem errors_have_root_causes (t : Table) :
    (∀ x z, PassesErrorOn t.compute.2 x z → References t.raw x z ∧
      t.compute.2.computed.holdsError z = true) ∧
    ∀ (x : Address) (source : String), t.raw[x]? = some (.expression source) →
      t.compute.2.computed.holdsError x = true → Traced t.compute.2 x := by
  constructor
  · intro x z link
    obtain ⟨edge, fails, -⟩ := link.source
    exact ⟨edge, fails⟩
  · intro x source hx fails
    exact traced_compute hx fails

/-- The first cell of the tangled row passes on the circular reference of the second one. -/
theorem errors_have_root_causes_tangledRow :
    PassesErrorOn tangledRow.compute.2 ⟨0, 0⟩ ⟨0, 1⟩ ∧ References tangledRow.raw ⟨0, 0⟩ ⟨0, 1⟩ ∧
    tangledRow.raw[(⟨0, 0⟩ : Address)]? = some (.expression "b1") ∧
    tangledRow.compute.2.computed.holdsError ⟨0, 0⟩ = true ∧
      Traced tangledRow.compute.2 ⟨0, 0⟩ := by
  obtain ⟨first, -, -, -⟩ := computed_tangledRow
  have hx : tangledRow.raw[(⟨0, 0⟩ : Address)]? = some (.expression "b1") := rfl
  have link : PassesErrorOn tangledRow.compute.2 ⟨0, 0⟩ ⟨0, 1⟩ := ⟨⟨"b1", hx⟩, first⟩
  have fails : tangledRow.compute.2.computed.holdsError ⟨0, 0⟩ = true :=
    Grid.holdsError_iff.2 ⟨_, first⟩
  obtain ⟨sources, traces⟩ := errors_have_root_causes tangledRow
  exact ⟨link, (sources _ _ link).1, hx, fails, traces _ _ hx fails⟩

end TableCalc.Table
