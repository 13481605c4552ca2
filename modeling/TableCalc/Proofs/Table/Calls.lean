import TableCalc.Proofs.Cell
import TableCalc.Proofs.Table.Pass

/-!
# Calls of a table

A table is asked to set a cell, to make a pass or to evaluate a single expression, any number of
times and in any order (`Table.run`). `Does` says what a call can do to a table, and from it follows
what every call keeps true (`Sound.does`), and so every run (`Sound.run`). What a run leaves at a
place of the raw grid is the cell of the last token that was set there (`leftBy_run`). The record of
a run begins with its first call, so the last token is looked for in the rest of the record first,
and in the call itself if it is not there (`LeftBy.cons`).
-/

namespace TableCalc

/-- What a table can be asked to do. -/
inductive Call where
  | setCell (row col : Nat) (token : Option String)
  | compute
  /-- The expression is evaluated as the value of a cell, which may lie anywhere. -/
  | evaluate (cell : Address) (expression : String)
deriving DecidableEq, Repr

/-- What a table answers to a call. -/
inductive Answer where
  | set (outcome : Except TableError Unit)
  | computed (tally : Tally)
  | evaluated (outcome : Except EvalError Int64)

namespace Table

/-- Makes a call. -/
def call (t : Table) : Call → Answer × Table
  | .setCell row col token =>
    let (outcome, t) := (Table.setCell row col token).run.run t
    (.set outcome, t)
  | .compute => (.computed t.compute.1, t.compute.2)
  | .evaluate cell expression =>
    (.evaluated (t.evaluateAndStore cell expression).1, (t.evaluateAndStore cell expression).2)

/-- Makes calls one after another, and keeps a record of them with the answers. -/
def run (t : Table) : List Call → List (Call × Answer) × Table
  | [] => ([], t)
  | c :: calls =>
    let (answer, t) := t.call c
    let (record, t) := t.run calls
    ((c, answer) :: record, t)

/-- `Does t c answer t'`: to the call `c` the table answers `answer` and becomes `t'`. -/
inductive Does (t : Table) : Call → Answer → Table → Prop where
  | outside {row col token} :
    ¬ (row < t.height ∧ col < t.width) →
    Does t (.setCell row col token) (.set (.error (.outOfBounds row col))) t
  | skip {row col token} :
    row < t.height ∧ col < t.width →
    (∀ s ∈ token, s = "" ∨ s = "null") →
    Does t (.setCell row col token) (.set (.ok ())) t
  | malformed {row col s} :
    row < t.height ∧ col < t.width →
    s ≠ "" ∧ s ≠ "null" →
    (∀ cell, Cell.parse s ≠ .ok cell) →
    Does t (.setCell row col (some s)) (.set (.error (.unknownFormat s))) t
  | set {row col s cell} :
    row < t.height ∧ col < t.width →
    s ≠ "" ∧ s ≠ "null" →
    Cell.parse s = .ok cell →
    Does t (.setCell row col (some s)) (.set (.ok ()))
      { t with raw := t.raw.insert ⟨row, col⟩ cell }
  | compute :
    Does t .compute (.computed t.compute.1) t.compute.2
  | evaluate {z expression} :
    Does t (.evaluate z expression) (.evaluated (t.evaluateAndStore z expression).1)
      (t.evaluateAndStore z expression).2

/-- Setting a cell does what the rules say. -/
lemma does_setCell (t : Table) (row col : Nat) (token : Option String) :
    Does t (.setCell row col token) (t.call (.setCell row col token)).1
      (t.call (.setCell row col token)).2 := by
  simp only [call, run_setCell, address]
  by_cases inside : row < t.height ∧ col < t.width
  case neg =>
    rw [if_neg inside]
    exact .outside inside
  rw [if_pos inside]
  dsimp only
  cases hkept : token.filter fun s => s ≠ "" ∧ s ≠ emptyCell with
  | none =>
    refine .skip inside fun s hs => ?_
    have := mt decide_eq_true (Option.filter_eq_none_iff.1 hkept s hs)
    exact (not_and_or.1 this).imp not_not.1 not_not.1
  | some s =>
    obtain ⟨rfl, hs⟩ := Option.filter_eq_some_iff.1 hkept
    dsimp only
    cases hparse : Cell.parse s with
    | ok cell => exact .set inside (of_decide_eq_true hs) hparse
    | error e =>
      obtain rfl := Cell.parse_eq_error hparse
      exact .malformed inside (of_decide_eq_true hs) fun cell => by simp [hparse]

/-- A call does what the rules say. -/
lemma does_call (t : Table) (c : Call) : Does t c (t.call c).1 (t.call c).2 := by
  cases c with
  | setCell row col token => exact does_setCell t row col token
  | compute => exact .compute
  | evaluate z expression => exact .evaluate

/-- What is true of a table of this size whatever calls were made. -/
structure Sound (width height : Nat) (t : Table) : Prop where
  width_eq : t.width = width
  height_eq : t.height = height
  in_bounds : ∀ (z : Address) cell, t.raw[z]? = some cell → z.row < height ∧ z.col < width
  not_negative : ∀ (z : Address) value, t.raw[z]? = some (.number value) → 0 ≤ value.toInt
  /-- No expression is computed. -/
  settled : t.computed.Settled

open Evaluation

variable {width height : Nat} {t t' : Table}

/-- A pass leaves no expression. -/
lemma settled_compute : t.compute.2.computed.Settled := (ready_compute t).settled

/-- An evaluation leaves no expression if there was none. -/
lemma settled_evaluateAndStore {z expression} (h : t.computed.Settled) :
    (t.evaluateAndStore z expression).2.computed.Settled := by
  obtain ⟨outcome, s, run, same⟩ :=
    exists_runs_evaluateAndStore t.raw { memo := t.computed } z expression
  have settled : s.memo.Settled := run.memo_settled h
  unfold evaluateAndStore
  rwa [same]

/-- What is true of a table is true after a call. -/
lemma Sound.does {c answer} (h : Sound width height t) (step : Does t c answer t') :
    Sound width height t' := by
  cases step with
  | outside _ | skip _ _ | malformed _ _ _ => exact h
  | @set row col s cell inside _ hparse =>
    refine ⟨h.width_eq, h.height_eq, fun z other hz => ?_, fun z value hz => ?_, h.settled⟩
    · rw [Grid.getElem?_insert] at hz
      split at hz
      case isTrue hplace =>
        subst hplace
        exact ⟨h.height_eq ▸ inside.1, h.width_eq ▸ inside.2⟩
      case isFalse _ => exact h.in_bounds z other hz
    · rw [Grid.getElem?_insert] at hz
      split at hz
      case isTrue _ =>
        cases hz
        exact Cell.not_negative_of_parse hparse
      case isFalse _ => exact h.not_negative z value hz
  | compute => exact ⟨h.width_eq, h.height_eq, h.in_bounds, h.not_negative, settled_compute⟩
  | evaluate =>
    exact ⟨h.width_eq, h.height_eq, h.in_bounds, h.not_negative, settled_evaluateAndStore h.settled⟩

/-- What is true of a table is true after any calls. -/
lemma Sound.run (h : Sound width height t) (calls : List Call) :
    Sound width height (t.run calls).2 := by
  induction calls generalizing t with
  | nil => exact h
  | cons c calls ih => exact ih (h.does (does_call t c))

/-- A computed table shows no expression. -/
lemma Sound.display (h : Sound width height t) (row col : Nat) :
    t.computed[Address.mk row col]? = none ∧ t.display row col = "null" ∨
      ∃ cell, t.computed[Address.mk row col]? = some cell ∧ cell.isExpression = false ∧
        t.display row col = cell.render := by
  unfold Table.display
  cases hcell : t.computed[Address.mk row col]? with
  | none => exact .inl ⟨rfl, rfl⟩
  | some cell =>
    refine .inr ⟨cell, rfl, ?_, rfl⟩
    cases cell with
    | expression source => exact absurd hcell (h.settled _ source)
    | text _ | number _ | error _ => rfl

/-- A table that can be made has at least one column, and neither too many rows nor too many
columns. -/
lemma empty_eq_ok (h : empty width height = .ok t) :
    (1 ≤ width ∧ width ≤ 8 ∧ height ≤ 25) ∧ t = { width, height } := by
  unfold empty maxRows maxColumns at h
  split at h
  · cases h
  split at h
  · cases h
  split at h
  · cases h
  cases h
  exact ⟨by omega, rfl⟩

/-- A table without cells is sound. -/
lemma sound_empty : Sound width height { width, height } :=
  ⟨rfl, rfl, by simp, by simp, Grid.settled_empty⟩

/-- What a pass computes and counts is a matter of the raw cells. -/
lemma compute_congr (h : t'.raw = t.raw) :
    t'.compute.1 = t.compute.1 ∧ t'.compute.2.computed = t.compute.2.computed := by
  unfold compute
  simp only [h, and_self]

/-- The table `t'` is the table `t` but for the raw cell at one place. -/
structure ChangesOnlyAt (t : Table) (place : Address) (t' : Table) : Prop where
  width_eq : t'.width = t.width
  height_eq : t'.height = t.height
  raw : ∀ z ≠ place, t'.raw[z]? = t.raw[z]?
  computed : t'.computed = t.computed

/-- A cell that is set changes its own place only. -/
lemma changesOnlyAt_of_setCell {row col token}
    (h : (setCell row col token).run.run t = (.ok (), t')) : ChangesOnlyAt t ⟨row, col⟩ t' := by
  have step := does_call t (.setCell row col token)
  simp only [call, h] at step
  cases step with
  | skip _ _ => exact ⟨rfl, rfl, fun _ _ => rfl, rfl⟩
  | set _ _ _ =>
    refine ⟨rfl, rfl, fun z hz => ?_, rfl⟩
    rw [Grid.getElem?_insert, if_neg (Ne.symm hz)]

/-- A cell that cannot be set changes nothing. -/
lemma eq_of_setCell_error {row col token e}
    (h : (setCell row col token).run.run t = (.error e, t')) : t' = t := by
  have step := does_call t (.setCell row col token)
  simp only [call, h] at step
  cases step with
  | outside _ | malformed _ _ _ => rfl

/-- The token that a call has set at a place, if the answer says that it has, and if the token is
one for a cell. -/
def setAt? (z : Address) : Call × Answer → Option String
  | (.setCell row col (some s), .set (.ok ())) =>
    if z = ⟨row, col⟩ ∧ s ≠ "" ∧ s ≠ "null" then some s else none
  | _ => none

/-- The last token that was set at a place. -/
def lastSetAt? (record : List (Call × Answer)) (z : Address) : Option String :=
  (record.filterMap (setAt? z)).getLast?

/-- What the calls on record leave at a place: the cell of the last token, with the address of the
place, or what was there before them. -/
structure LeftBy (record : List (Call × Answer)) (z : Address) (before after : Option Entry) :
    Prop where
  last : ∀ s, lastSetAt? record z = some s →
    ∃ cell, Cell.parse s = .ok cell ∧ after = some ⟨z, cell⟩
  unset : lastSetAt? record z = none → after = before

/-- The last token at a place is the last one of the rest, or else the first one. -/
lemma lastSetAt?_cons {entry record z} :
    lastSetAt? (entry :: record) z = (lastSetAt? record z).or (setAt? z entry) := by
  unfold lastSetAt?
  cases h : setAt? z entry with
  | none => simp [h]
  | some s => rw [List.filterMap_cons_some h, List.getLast?_cons, ← Option.or_some]

/-- A single call sets its own token last. -/
lemma lastSetAt?_singleton {entry z} : lastSetAt? [entry] z = setAt? z entry := by
  rw [lastSetAt?_cons]
  rfl

/-- A call leaves the cell of its token at its place, and all other places as they are. -/
lemma Does.leftBy {c answer} (step : Does t c answer t') (z : Address) :
    LeftBy [(c, answer)] z t.raw.entries[z]? t'.raw.entries[z]? := by
  simp only [Grid.getElem?_entries]
  cases step with
  | outside _ | malformed _ _ _ | compute | evaluate =>
    exact ⟨by simp [lastSetAt?_singleton, setAt?], fun _ => rfl⟩
  | @skip row col token _ h =>
    refine ⟨fun s hs => ?_, fun _ => rfl⟩
    cases token with
    | none => simp [lastSetAt?_singleton, setAt?] at hs
    | some s' =>
      have := h s' rfl
      rw [lastSetAt?_singleton, setAt?, if_neg (by tauto)] at hs
      cases hs
  | @set row col s cell _ hs hparse =>
    by_cases hz : z = ⟨row, col⟩
    · subst hz
      rw [Grid.getElem?_insert, if_pos rfl]
      refine ⟨fun s' hs' => ?_, fun hnone => ?_⟩
      · rw [lastSetAt?_singleton, setAt?, if_pos ⟨rfl, hs⟩] at hs'
        cases hs'
        exact ⟨cell, hparse, rfl⟩
      · rw [lastSetAt?_singleton, setAt?, if_pos ⟨rfl, hs⟩] at hnone
        cases hnone
    · rw [Grid.getElem?_insert, if_neg (Ne.symm hz)]
      refine ⟨fun s' hs' => ?_, fun _ => rfl⟩
      rw [lastSetAt?_singleton, setAt?, if_neg (by tauto)] at hs'
      cases hs'

/-- A later call has the last word on a place. -/
lemma LeftBy.cons {entry record z} {before between after : Option Entry}
    (h : LeftBy [entry] z before between)
    (h' : LeftBy record z between after) : LeftBy (entry :: record) z before after := by
  cases hlast : lastSetAt? record z with
  -- the rest of the record sets the place, so it does not matter what the call left there
  | some s =>
    exact ⟨by simpa [lastSetAt?_cons, hlast] using h'.last s hlast, by
      simp [lastSetAt?_cons, hlast]⟩
  | none =>
    obtain rfl := h'.unset hlast
    refine ⟨fun s hs => h.last s ?_, fun hnone => h.unset ?_⟩
    · rw [lastSetAt?_singleton]
      simpa [lastSetAt?_cons, hlast] using hs
    · rw [lastSetAt?_singleton]
      simpa [lastSetAt?_cons, hlast] using hnone

/-- A run leaves at a place what the last token that was set there stands for. -/
lemma leftBy_run (t : Table) (calls : List Call) (z : Address) :
    LeftBy (t.run calls).1 z t.raw.entries[z]? (t.run calls).2.raw.entries[z]? := by
  induction calls generalizing t with
  | nil => exact ⟨by simp [run, lastSetAt?], fun _ => rfl⟩
  | cons c calls ih => exact ((does_call t c).leftBy z).cons (ih (t.call c).2)

/-- Whatever calls are made of a new table, its size stays within the limits, its raw cells lie
inside and its raw numbers have no sign, no expression is among its computed cells, and none is
shown. A cell that cannot be set changes nothing, and a cell that is set changes its own place only.
Each place holds what the last token that was set there stands for, and every cell, raw or computed,
has the address of its place. What a pass computes and counts depends on the raw cells alone. -/
theorem run_invariants {width height : Nat} {t₀ t : Table} {record : List (Call × Answer)}
    (h : empty width height = .ok t₀) (calls : List Call) (hrun : t₀.run calls = (record, t)) :
    (1 ≤ width ∧ width ≤ 8 ∧ height ≤ 25) ∧ Sound width height t ∧
    (∀ row col, t.computed[Address.mk row col]? = none ∧ t.display row col = "null" ∨
      ∃ cell, t.computed[Address.mk row col]? = some cell ∧ cell.isExpression = false ∧
        t.display row col = cell.render) ∧
    (∀ row col token t',
      (∀ e, (setCell row col token).run.run t = (.error e, t') → t' = t) ∧
      ((setCell row col token).run.run t = (.ok (), t') → ChangesOnlyAt t ⟨row, col⟩ t')) ∧
    (∀ z, LeftBy record z none t.raw.entries[z]?) ∧
    (∀ (z : Address) (entry : Entry),
      t.raw.entries[z]? = some entry ∨ t.computed.entries[z]? = some entry → entry.address = z) ∧
    ∀ t' : Table, t'.raw = t.raw →
      t'.compute.1 = t.compute.1 ∧ t'.compute.2.computed = t.compute.2.computed := by
  obtain ⟨size, rfl⟩ := empty_eq_ok h
  have sound : Sound width height (Table.run { width, height } calls).2 := sound_empty.run calls
  have left := leftBy_run { width, height } calls
  rw [hrun] at sound left
  refine ⟨size, sound, sound.display, fun row col token t' => ?_, left, ?_,
    fun _ => compute_congr⟩
  · exact ⟨fun e => eq_of_setCell_error, changesOnlyAt_of_setCell⟩
  · rintro z entry (kept | kept)
    · exact t.raw.addressed z entry kept
    · exact t.computed.addressed z entry kept

/-- A row whose first cell refers to the second one: that is set, set again and not set twice, and
the table is computed after an evaluation for a cell outside. -/
def busyCalls : List Call :=
  [.setCell 0 0 (some "=B1+1"), .setCell 0 1 (some "5"), .setCell 0 1 (some "7"),
    .setCell 0 1 (some "-9"), .setCell 0 1 (some "null"), .setCell 3 3 (some "1"),
    .evaluate ⟨30, 9⟩ "A1*2", .evaluate ⟨0, 1⟩ "1/0", .compute]

/-- The second cell holds the 7 that was set last, and the pass forgets what was stored in between,
also outside the table. -/
theorem run_invariants_busyCalls :
    ∃ t₀, empty 2 1 = .ok t₀ ∧ lastSetAt? (t₀.run busyCalls).1 ⟨0, 1⟩ = some "7" ∧
      (t₀.run busyCalls).2.raw.entries[(⟨0, 1⟩ : Address)]? = some ⟨⟨0, 1⟩, .number 7⟩ ∧
      (t₀.run busyCalls).2.computed.entries[(⟨0, 0⟩ : Address)]? = some ⟨⟨0, 0⟩, .number 8⟩ ∧
      (t₀.run (busyCalls.take 8)).2.computed[(⟨30, 9⟩ : Address)]? = some (.number 16) ∧
      (t₀.run busyCalls).2.computed[(⟨30, 9⟩ : Address)]? = none := by
  have made : empty 2 1 = .ok { width := 2, height := 1 } := rfl
  have last : lastSetAt? (Table.run { width := 2, height := 1 } busyCalls).1 ⟨0, 1⟩ = some "7" := by
    decide +kernel
  obtain ⟨-, -, -, -, left, -, -⟩ := run_invariants made busyCalls (Prod.eta _).symm
  obtain ⟨cell, hparse, kept⟩ := (left ⟨0, 1⟩).last "7" last
  cases hparse
  exact ⟨_, made, last, kept, by decide +kernel, by decide +kernel, by decide +kernel⟩

end Table

end TableCalc
