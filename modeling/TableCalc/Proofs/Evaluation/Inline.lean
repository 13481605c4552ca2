import TableCalc.Proofs.Evaluation.Log
import TableCalc.Proofs.Evaluation.Reach
import TableCalc.Proofs.Evaluation.Settlement

/-!
# Values in place of references

A numeral may stand in an expression for a reference to a cell with that value (`Grid.Inlines`). The
evaluations of the two grids go different ways then: without the reference, its cell is evaluated at
another time and under other cells. But references from a cell with a value lead to no cell without
one, so the evaluators remain `Similar`: they are at work on the same cells and have the same
results for all cells without a value. Failures depend on nothing else, so they are the same as well
(`Runs.inline`).
-/

namespace TableCalc
open Expression Relation

namespace Evaluation

/-- The second lexeme is the first one, or a numeral in place of a reference to a cell with its
value. -/
def InlinedTerm (raw : Grid) (lexeme lexeme' : String) : Prop :=
  lexeme' = lexeme ∨ ∃ z value, Token.classify lexeme = .ok (.reference z) ∧
    Justified raw (.reference z) (.ok value) ∧
    Token.classify lexeme' = .ok (.number value)

/-- Numerals in place of references, in lexemes from the last to the first. They stand for operands,
but nothing before an operator in operand position is read. -/
inductive Inlined (raw : Grid) : List String → List String → Prop where
  | nil :
    Inlined raw [] []
  | first {lexeme lexeme'} :
    InlinedTerm raw lexeme lexeme' →
    Inlined raw [lexeme] [lexeme']
  | step {last last' symbol earlier earlier'} :
    InlinedTerm raw last last' →
    Inlined raw earlier earlier' →
    Inlined raw (last :: symbol :: earlier) (last' :: symbol :: earlier')
  | unread {last op lexeme lexeme' earlier} :
    Token.classify last = .ok (.operator op) →
    InlinedTerm raw lexeme lexeme' →
    Inlined raw (last :: lexeme :: earlier) (last :: lexeme' :: earlier)

/-- Numerals in place of references, in a task. -/
inductive Task.Inlined (raw : Grid) : Task → Task → Prop where
  | cell {z e e'} :
    Evaluation.Inlined raw (tokenize e).reverse (tokenize e').reverse →
    Task.Inlined raw (.cell z e) (.cell z e')
  | fold {lexemes lexemes'} :
    Evaluation.Inlined raw lexemes lexemes' →
    Task.Inlined raw (.fold lexemes) (.fold lexemes')
  | operand {lexeme lexeme'} :
    InlinedTerm raw lexeme lexeme' →
    Task.Inlined raw (.operand lexeme) (.operand lexeme')
  | reference {z} :
    Task.Inlined raw (.reference z) (.reference z)

end Evaluation

open Evaluation

/-- The second grid has numerals in some expressions where the first one has references to cells
with a value. -/
structure Grid.Inlines (raw raw' : Grid) : Prop where
  other : ∀ z : Address, (∀ e, ¬ Holds raw z e) → raw'[z]? = raw[z]?
  expression : ∀ z e, Holds raw z e →
    ∃ e', Holds raw' z e' ∧ Inlined raw (tokenize e).reverse (tokenize e').reverse

variable {raw raw' : Grid}

namespace Evaluation

/-- What still refers to a cell has not been replaced. -/
lemma InlinedTerm.reference {lexeme lexeme' z} (h : InlinedTerm raw lexeme lexeme')
    (hc : Token.classify lexeme' = .ok (.reference z)) : lexeme' = lexeme := by
  rcases h with rfl | ⟨_, _, -, -, hc'⟩
  · rfl
  · cases hc.symm.trans hc'

/-- Nothing but a reference is replaced. -/
lemma InlinedTerm.eq {lexeme lexeme'} (h : InlinedTerm raw lexeme lexeme')
    (hc : ∀ z, Token.classify lexeme ≠ .ok (.reference z)) : lexeme' = lexeme :=
  h.resolve_right fun ⟨z, _, hc', _⟩ => hc z hc'

/-- Nothing has to be replaced. -/
lemma Inlined.refl (lexemes : List String) : Inlined raw lexemes lexemes := by
  induction lexemes using foldReversed.induct with
  | case1 => exact .nil
  | case2 lexeme => exact .first (.inl rfl)
  | case3 last symbol earlier ih => exact .step (.inl rfl) ih

/-- A numeral may replace a reference wherever an operator follows or nothing does. -/
lemma Inlined.replace {later lexeme lexeme' earlier} (term : InlinedTerm raw lexeme lexeme')
    (next : ∀ symbol ∈ later.getLast?, ∃ op, Token.classify symbol = .ok (.operator op)) :
    Inlined raw (later ++ lexeme :: earlier) (later ++ lexeme' :: earlier) := by
  induction later using foldReversed.induct with
  | case1 =>
    cases earlier with
    | nil => exact .first term
    | cons symbol earlier => exact .step term (.refl earlier)
  | case2 last =>
    obtain ⟨op, hop⟩ := next last (by simp)
    exact .unread hop term
  | case3 last symbol later ih =>
    refine .step (.inl rfl) (ih fun other hother => next other ?_)
    cases later with
    | nil => cases hother
    | cons a later => simpa using hother

/-- No reference is added. -/
lemma Inlined.mem_of_reference {lexemes lexemes' lexeme z} (h : Inlined raw lexemes lexemes')
    (hmem : lexeme ∈ lexemes')
    (hc : Token.classify lexeme = .ok (.reference z)) : lexeme ∈ lexemes := by
  induction h with
  | nil => exact hmem
  | first term =>
    cases List.mem_singleton.1 hmem
    simp [term.reference hc]
  | step term _ ih =>
    rcases List.mem_cons.1 hmem with rfl | hmem
    · simp [term.reference hc]
    · rcases List.mem_cons.1 hmem with rfl | hmem
      · simp
      · simp [ih hmem]
  | unread _ term =>
    rcases List.mem_cons.1 hmem with rfl | hmem
    · simp
    · rcases List.mem_cons.1 hmem with rfl | hmem
      · simp [term.reference hc]
      · simp [hmem]

end Evaluation

namespace Grid.Inlines

/-- The same cells have expressions. -/
lemma holds_iff (h : raw.Inlines raw') {z} : (∃ e, Holds raw z e) ↔ ∃ e, Holds raw' z e := by
  constructor
  · rintro ⟨e, hz⟩
    obtain ⟨e', hz', -⟩ := h.expression z e hz
    exact ⟨e', hz'⟩
  · rintro ⟨e', source, hz', -⟩
    by_contra! none
    exact none _ (.of_eq ((h.other z none).symm.trans hz'))

/-- No references are added. -/
lemma references (h : raw.Inlines raw') {x z} (edge : References raw' x z) :
    References raw x z := by
  obtain ⟨e', hx', lexeme, hmem, hc⟩ := edge
  obtain ⟨e, hx⟩ := h.holds_iff.2 ⟨e', hx'⟩
  obtain ⟨e'', hx'', inlined⟩ := h.expression x e hx
  cases hx'.unique hx''
  exact ⟨e, hx, lexeme, List.mem_reverse.1 (inlined.mem_of_reference (List.mem_reverse.2 hmem) hc),
    hc⟩

/-- One expression is replaced, and all other cells stay as they are. -/
lemma insert {x source source'} (hx : raw[x]? = some (.expression source))
    (inlined : Inlined raw (tokenize (normalize source)).reverse
      (tokenize (normalize source')).reverse) :
    raw.Inlines (raw.insert x (.expression source')) := by
  refine ⟨fun z hz => ?_, fun z e hz => ?_⟩
  · rw [Grid.getElem?_insert, if_neg]
    rintro rfl
    exact hz _ (.of_eq hx)
  · by_cases hxz : x = z
    · subst hxz
      cases hz.unique (.of_eq hx)
      exact ⟨_, .of_eq (by simp), inlined⟩
    · exact ⟨e, hz.congr (by simp [hxz]), .refl _⟩

end Grid.Inlines

namespace Evaluation

/-- A value that is justified in the first grid is so in the second one. -/
theorem Justified.inline (inlines : raw.Inlines raw') {task task' outcome value}
    (h : Justified raw task outcome)
    (hout : outcome = .ok value) (inlined : Task.Inlined raw task task') :
    Justified raw' task' outcome := by
  induction h generalizing task' value with
  | cell _ ih =>
    cases inlined with
    | cell inlined => exact .cell (ih hout (.fold inlined))
  | unfinished => cases hout
  | first _ ih =>
    cases inlined with
    | fold inlined =>
      cases inlined with
      | first term => exact .first (ih hout (.operand term))
  | operandFails _ _ => cases hout
  | operatorFails _ _ _ => cases hout
  | @step _ _ _ _ _ earlierOutcome h hop hEarlier ih ihEarlier =>
    cases earlierOutcome with
    | error e => cases hout
    | ok lhs =>
      cases inlined with
      | fold inlined =>
        cases inlined with
        | step term inlined =>
          exact .step (ih rfl (.operand term)) hop (ihEarlier rfl (.fold inlined))
        | unread hc _ => cases h <;> simp_all
  | unknown _ => cases hout
  | literal hc =>
    cases inlined with
    | operand term =>
      obtain rfl := term.eq (by simp [hc])
      exact .literal hc
  | misplaced _ => cases hout
  | reference hc h ih =>
    cases inlined with
    | operand term =>
      rcases term with rfl | ⟨_, _, hc', justified, literal⟩
      · exact .reference hc (ih hout .reference)
      · cases hc.symm.trans hc'
        rw [(justified.ok_iff h _).1 rfl]
        exact .literal literal
  | undefined _ => cases hout
  | @plain z given _ hz hseen =>
    cases inlined
    refine .plain ((inlines.other z fun e => ?_).trans hz) hseen
    rintro ⟨source, hsource, -⟩
    cases hz.symm.trans hsource
    cases hseen
  | circular _ _ => cases hout
  | @nested _ _ inner hz _ ih =>
    cases inlined
    obtain ⟨e', hz', inlined⟩ := inlines.expression _ _ hz
    cases inner with
    | error e => cases hout
    | ok value => exact .nested hz' (ih rfl (.cell inlined))
  | @remembered _ _ inner hz _ ih =>
    cases inlined
    obtain ⟨e', hz', inlined⟩ := inlines.expression _ _ hz
    cases inner with
    | error e => cases hout
    | ok value => exact .remembered hz' (ih rfl (.cell inlined))

/-- The same cells are under evaluation, and those without a value have the same results. -/
structure Similar (raw : Grid) (s s' : Evaluation) : Prop where
  trail : s'.trail = s.trail
  memo : ∀ y : Address, Valueless raw y → s'.memo[y]? = s.memo[y]?

namespace Similar

variable {s s' s'' : Evaluation}

/-- Two evaluations are similar to each other. -/
lemma symm (h : Similar raw s s') : Similar raw s' s :=
  ⟨h.trail.symm, fun y hy => (h.memo y hy).symm⟩

/-- What is similar to a similar evaluation is similar. -/
lemma trans (h : Similar raw s s') (h' : Similar raw s' s'') : Similar raw s s'' :=
  ⟨h'.trail.trans h.trail, fun y hy => (h'.memo y hy).trans (h.memo y hy)⟩

/-- Evaluations stay similar when a cell enters both. -/
lemma enter {z} (h : Similar raw s s') : Similar raw (s.enter z) (s'.enter z) :=
  ⟨by rw [trail_enter, trail_enter, h.trail], h.memo⟩

/-- For a cell without a value, a result that one of them lacks is not in the other one. -/
lemma getD_eq {y} (h : Similar raw s s') (hy : Valueless raw y) (unset : s.memo[y]? = none)
    (given : Cell) :
    s'.memo[y]?.getD given = given := by
  rw [h.memo y hy, unset, Option.getD_none]

/-- Evaluations stay similar when both end with the same outcome. -/
lemma leave {z outcome} (h : Similar raw s s') :
    Similar raw (s.leave z outcome) (s'.leave z outcome) := by
  refine ⟨by rw [trail_leave, trail_leave, h.trail], fun y hy => ?_⟩
  rw [memo_leave, memo_leave, Grid.getElem?_insert, Grid.getElem?_insert, h.memo y hy]

end Similar

/-- A run changes no result of a cell without a value if the task does not reach such a cell. -/
lemma Runs.similar {s task outcome t} (run : Runs raw' s task outcome t) (settled : s.memo.Settled)
    (admitted : task.Admitted s.trail) (h : ∀ y, task.Reaches raw' y → ¬ Valueless raw y) :
    Similar raw s t :=
  ⟨run.trail_eq admitted, fun y hy => run.getElem?_of_not_reaches settled fun reaches =>
    h y reaches hy⟩

/-- What a cell with a value leads to has a value as well. -/
lemma not_valueless_of_reaches (inlines : raw.Inlines raw') {y z} (hz : ¬ Valueless raw z)
    (path : ReflTransGen (References raw') z y) : ¬ Valueless raw y :=
  fun hy => hz (hy.of_reaches (ReflTransGen.mono (fun _ _ => inlines.references) _ _ path))

variable {start start' : Address} {e₀ e₀' : String}

/-- A reference to a cell with a value yields it in both grids, whatever has to be evaluated for
that. -/
lemma Runs.inline_of_value (inlines : raw.Inlines raw') {s z outcome t s'} (hz : ¬ Valueless raw z)
    (run : Runs raw s (.reference z) outcome t) (fresh : Fresh raw start e₀ s (.reference z))
    (fresh' : Fresh raw' start' e₀' s' (.reference z)) (similar : Similar raw s s') :
    ∃ t', Runs raw' s' (.reference z) outcome t' ∧ Similar raw t t' := by
  have justified := fresh.justified run
  cases outcome with
  | error e => exact absurd justified.valueless hz
  | ok value =>
    obtain ⟨outcome', t', run'⟩ := exists_runs_reference raw' s' z
    obtain rfl := ((justified.inline inlines rfl .reference).ok_iff (fresh'.justified run') value).1
        rfl
    have left : Similar raw s t := run.similar fresh.settled trivial fun y path hy =>
      hz (hy.of_reaches path)
    have right : Similar raw s' t' := run'.similar fresh'.settled trivial fun y path =>
      not_valueless_of_reaches inlines hz path
    exact ⟨t', run', left.symm.trans (similar.trans right)⟩

/-- With numerals in place of references, a run from a similar evaluation has the same outcome, and
the evaluations are similar afterwards. -/
theorem Runs.inline (inlines : raw.Inlines raw') {s task outcome t s' task'}
    (run : Runs raw s task outcome t)
    (fresh : Fresh raw start e₀ s task) (inlined : Task.Inlined raw task task')
    (fresh' : Fresh raw' start' e₀' s' task') (similar : Similar raw s s') :
    ∃ t', Runs raw' s' task' outcome t' ∧ Similar raw t t' := by
  induction run generalizing s' task' with
  | cell _ ih =>
    cases inlined with
    | cell inlined =>
      obtain ⟨t', run', similar'⟩ := ih fresh.fold (.fold inlined) fresh'.fold similar.enter
      exact ⟨_, .cell run', similar'.leave⟩
  | unfinished =>
    cases inlined with
    | fold inlined =>
      cases inlined
      exact ⟨s', .unfinished, similar⟩
  | first _ ih =>
    cases inlined with
    | fold inlined =>
      cases inlined with
      | first term =>
        obtain ⟨t', run', similar'⟩ := ih fresh.operand (.operand term) fresh'.operand similar
        exact ⟨t', .first run', similar'⟩
  | operandFails _ ih =>
    cases inlined with
    | fold inlined =>
      cases inlined with
      | step term _ =>
        obtain ⟨t', run', similar'⟩ := ih fresh.operand (.operand term) fresh'.operand similar
        exact ⟨t', .operandFails run', similar'⟩
      | unread _ _ =>
        obtain ⟨t', run', similar'⟩ := ih fresh.operand (.operand (.inl rfl)) fresh'.operand similar
        exact ⟨t', .operandFails run', similar'⟩
  | operatorFails run hop ih =>
    cases inlined with
    | fold inlined =>
      cases inlined with
      | step term _ =>
        obtain ⟨t', run', similar'⟩ := ih fresh.operand (.operand term) fresh'.operand similar
        exact ⟨t', .operatorFails run' hop, similar'⟩
      | unread hc _ => cases run <;> simp_all
  | step run hop _ ih ihEarlier =>
    cases inlined with
    | fold inlined =>
      cases inlined with
      | step term inlined =>
        obtain ⟨t', run', similar'⟩ := ih fresh.operand (.operand term) fresh'.operand similar
        obtain ⟨u', runEarlier', similar''⟩ :=
          ihEarlier (fresh.earlier run) (.fold inlined) (fresh'.earlier run') similar'
        exact ⟨u', .step run' hop runEarlier', similar''⟩
      | unread hc _ => cases run <;> simp_all
  | unknown hc =>
    cases inlined with
    | operand term =>
      obtain rfl := term.eq (by simp [hc])
      exact ⟨s', .unknown hc, similar⟩
  | literal hc =>
    cases inlined with
    | operand term =>
      obtain rfl := term.eq (by simp [hc])
      exact ⟨s', .literal hc, similar⟩
  | misplaced hc =>
    cases inlined with
    | operand term =>
      obtain rfl := term.eq (by simp [hc])
      exact ⟨s', .misplaced hc, similar⟩
  | reference hc run ih =>
    cases inlined with
    | operand term =>
      rcases term with rfl | ⟨_, _, hc', justified, literal⟩
      · obtain ⟨t', run', similar'⟩ :=
          ih (fresh.reference hc) .reference (fresh'.reference hc) similar
        exact ⟨t', .reference hc run', similar'⟩
      · -- the numeral is there instead of an evaluation that leaves all failures alone
        cases hc.symm.trans hc'
        have fresh := fresh.reference hc
        obtain rfl := (justified.ok_iff (fresh.justified run) _).1 rfl
        have left := run.similar fresh.settled trivial fun y path hy =>
          justified.not_valueless (hy.of_reaches path)
        exact ⟨s', .literal literal, left.symm.trans similar⟩
  | @undefined s z hz =>
    cases inlined
    refine ⟨s', .undefined ((inlines.other z ?_).trans hz), similar⟩
    rintro e ⟨source, hsource, -⟩
    cases hz.symm.trans hsource
  | @settled s z given outcome hz hseen =>
    cases inlined
    by_cases valueless : Valueless raw z
    · by_cases expression : ∃ e, Holds raw z e
      · obtain ⟨e, source, hsource, rfl⟩ := expression
        cases hz.symm.trans hsource
        obtain ⟨_, ⟨source', hsource', -⟩, -⟩ := inlines.expression _ _ (.of_eq hz)
        refine ⟨s', .settled hsource' ?_, similar⟩
        -- what is seen of the cell is its result
        rw [similar.memo z valueless]
        cases hmemo : s.memo[z]? with
        | none => simp [hmemo, Cell.seen?] at hseen
        | some cell => simpa [hmemo] using hseen
      · refine ⟨s', .settled ((inlines.other z (not_exists.1 expression)).trans hz) ?_, similar⟩
        rwa [similar.memo z valueless]
    · exact Runs.inline_of_value inlines valueless (.settled hz hseen) fresh fresh' similar
  | @circular s z given source hz hcell hmem =>
    cases inlined
    have valueless : Valueless raw z := (fresh.justified (.circular hz hcell hmem)).valueless
    obtain ⟨unset, rfl⟩ := fresh.toPlaced.fresh hcell
    obtain ⟨_, ⟨source', hsource', -⟩, -⟩ := inlines.expression _ _ (.of_eq hz)
    exact ⟨s', .circular hsource' (similar.getD_eq valueless unset _) (similar.trail ▸ hmem),
      similar⟩
  | @nested s t z given source outcome hz hcell hmem run ih =>
    cases inlined
    by_cases valueless : Valueless raw z
    · obtain ⟨unset, rfl⟩ := fresh.toPlaced.fresh hcell
      obtain ⟨_, ⟨source', hsource', rfl⟩, inlined⟩ := inlines.expression _ _ (.of_eq hz)
      have hcell' := similar.getD_eq valueless unset (.expression source')
      have hmem' : z ∉ s'.trail.path := similar.trail ▸ hmem
      obtain ⟨t', run', similar'⟩ :=
        ih (fresh.nested hz hcell hmem) (.cell inlined) (fresh'.nested hsource' hcell' hmem')
          similar
      exact ⟨t', .nested hsource' hcell' hmem' run', similar'⟩
    · exact Runs.inline_of_value inlines valueless (.nested hz hcell hmem run) fresh fresh' similar

end Evaluation

end TableCalc
