import TableCalc.Proofs.Evaluation.Justification

/-!
# What a task can reach

`Task.Reaches raw y task` says that references lead from the task to the cell `y`. What cannot be
reached does not matter to the task: a run leaves it as it is in the memo
(`Runs.getElem?_of_not_reaches`) and goes the same way whatever is there (`Runs.congr`), and
outcomes remain justified whatever the raw grid has there (`Justified.congr`).
-/

namespace TableCalc
open Expression Relation

variable {raw raw' : Grid}

/-- A cell that is the same in another grid holds the same expression there. -/
lemma Holds.congr {z e} (hz : Holds raw z e) (h : raw'[z]? = raw[z]?) : Holds raw' z e := by
  obtain ⟨source, hsource, rfl⟩ := hz
  exact .of_eq (h.trans hsource)

/-- A cell that is the same in another grid refers to the same cells there. -/
lemma References.congr {x y} (edge : References raw x y) (h : raw'[x]? = raw[x]?) :
    References raw' x y := by
  obtain ⟨e, hx, mentions⟩ := edge
  exact ⟨e, hx.congr h, mentions⟩

/-- A chain of references is there in every grid that has the same cells along it. -/
lemma reaches_congr {x y} (path : TransGen (References raw) x y)
    (agree : ∀ w, ReflTransGen (References raw) x w → raw'[w]? = raw[w]?) :
    TransGen (References raw') x y := by
  induction path with
  | single edge => exact .single (edge.congr (agree _ .refl))
  | tail path edge ih => exact .tail ih (edge.congr (agree _ path.to_reflTransGen))

/-- In a grid with the same cells where references lead, they lead nowhere else. -/
lemma reaches_of_congr {x y} (path : ReflTransGen (References raw') x y)
    (agree : ∀ w, ReflTransGen (References raw) x w → raw'[w]? = raw[w]?) :
    ReflTransGen (References raw) x y := by
  induction path with
  | refl => exact .refl
  | tail _ edge ih => exact .tail ih (edge.congr (agree _ ih).symm)

/-- A cell reaches no cycle in another grid if all that it leads to is the same there. -/
lemma Acyclic.congr {x} (acyclic : Acyclic raw x)
    (agree : ∀ w, ReflTransGen (References raw) x w → raw'[w]? = raw[w]?) : Acyclic raw' x := by
  intro y hy cycle
  have path : ReflTransGen (References raw) x y := reaches_of_congr hy agree
  apply acyclic y path
  -- the cycle is one of the first grid too, which has the same cells along it
  refine reaches_congr cycle fun w hw => (agree w ?_).symm
  exact reaches_of_congr (hy.trans hw) agree

namespace Evaluation

/-- References lead from the task to the cell `y`. -/
def Task.Reaches (raw : Grid) (y : Address) : Task → Prop
  | .cell z e => z = y ∨ ∃ w, Mentions e w ∧ ReflTransGen (References raw) w y
  | .fold lexemes =>
    ∃ lexeme ∈ lexemes, ∃ w, Token.classify lexeme = .ok (.reference w) ∧
      ReflTransGen (References raw) w y
  | .operand lexeme =>
    ∃ w, Token.classify lexeme = .ok (.reference w) ∧ ReflTransGen (References raw) w y
  | .reference z => ReflTransGen (References raw) z y

namespace Task.Reaches

variable {y : Address}

/-- A cell leads where its lexemes lead. -/
lemma fold {z e} (h : (Task.fold (tokenize e).reverse).Reaches raw y) :
    (Task.cell z e).Reaches raw y := by
  obtain ⟨lexeme, hmem, w, hc, path⟩ := h
  exact .inr ⟨w, ⟨lexeme, List.mem_reverse.1 hmem, hc⟩, path⟩

/-- Lexemes lead where the last of them leads. -/
lemma operand {last earlier} (h : (Task.operand last).Reaches raw y) :
    (Task.fold (last :: earlier)).Reaches raw y :=
  ⟨last, by simp, h⟩

/-- Lexemes lead where those before the last operator lead. -/
lemma earlier {last symbol earlier} (h : (Task.fold earlier).Reaches raw y) :
    (Task.fold (last :: symbol :: earlier)).Reaches raw y := by
  obtain ⟨lexeme, hmem, path⟩ := h
  exact ⟨lexeme, by simp [hmem], path⟩

/-- An operand leads where the cell leads that it refers to. -/
lemma reference {lexeme z} (hc : Token.classify lexeme = .ok (.reference z))
    (h : (Task.reference z).Reaches raw y) : (Task.operand lexeme).Reaches raw y :=
  ⟨z, hc, h⟩

/-- A reference leads where the expression of its cell leads. -/
lemma cell {z e} (hz : Holds raw z e) (h : (Task.cell z e).Reaches raw y) :
    (Task.reference z).Reaches raw y := by
  rcases h with rfl | ⟨w, mentions, path⟩
  · exact ReflTransGen.refl
  · exact ReflTransGen.head ⟨e, hz, mentions⟩ path

end Task.Reaches

/-- A run leaves the memo as it is where the task does not reach. -/
theorem Runs.getElem?_of_not_reaches {s task outcome t y} (run : Runs raw s task outcome t)
    (settled : s.memo.Settled) (h : ¬ task.Reaches raw y) : t.memo[y]? = s.memo[y]? := by
  induction run with
  | cell _ ih =>
    rw [memo_leave, Grid.getElem?_insert, if_neg fun hz => h (.inl hz)]
    exact ih settled (mt Task.Reaches.fold h)
  | unfinished => rfl
  | first _ ih => exact ih settled (mt Task.Reaches.operand h)
  | operandFails _ ih => exact ih settled (mt Task.Reaches.operand h)
  | operatorFails _ _ ih => exact ih settled (mt Task.Reaches.operand h)
  | step run _ _ ih ihEarlier =>
    have earlier := ihEarlier (run.memo_settled settled) (mt Task.Reaches.earlier h)
    exact earlier.trans (ih settled (mt Task.Reaches.operand h))
  | unknown _ => rfl
  | literal _ => rfl
  | misplaced _ => rfl
  | reference hc _ ih => exact ih settled (mt (Task.Reaches.reference hc) h)
  | undefined _ => rfl
  | settled _ _ => rfl
  | circular _ _ _ => rfl
  | nested hz hcell _ _ ih =>
    obtain ⟨-, rfl⟩ := settled.fresh hcell
    exact ih settled (mt (Task.Reaches.cell (.of_eq hz)) h)

/-- The same cells are under evaluation, and the cells with the property have the same results. -/
structure AgreeOn (A : Address → Prop) (s s' : Evaluation) : Prop where
  trail : s'.trail = s.trail
  memo : ∀ y : Address, A y → s'.memo[y]? = s.memo[y]?

namespace AgreeOn

variable {A : Address → Prop} {s s' s'' : Evaluation}

/-- Two evaluations agree with each other. -/
lemma symm (h : AgreeOn A s s') : AgreeOn A s' s := ⟨h.trail.symm, fun y hy => (h.memo y hy).symm⟩

/-- What agrees with one that agrees does so itself. -/
lemma trans (h : AgreeOn A s s') (h' : AgreeOn A s' s'') : AgreeOn A s s'' :=
  ⟨h'.trail.trans h.trail, fun y hy => (h'.memo y hy).trans (h.memo y hy)⟩

/-- Evaluations still agree when a cell enters both. -/
lemma enter {z} (h : AgreeOn A s s') : AgreeOn A (s.enter z) (s'.enter z) :=
  ⟨by rw [trail_enter, trail_enter, h.trail], h.memo⟩

/-- Evaluations still agree when both end with the same outcome. -/
lemma leave {z outcome} (h : AgreeOn A s s') :
    AgreeOn A (s.leave z outcome) (s'.leave z outcome) := by
  refine ⟨by rw [trail_leave, trail_leave, h.trail], fun y hy => ?_⟩
  rw [memo_leave, memo_leave, Grid.getElem?_insert, Grid.getElem?_insert, h.memo y hy]

end AgreeOn

/-- A run depends on nothing but the cells that can be reached and their results. -/
theorem Runs.congr {A : Address → Prop} {s task outcome t s'} (run : Runs raw s task outcome t)
    (agree : ∀ y : Address, A y → raw'[y]? = raw[y]?) (settled : s.memo.Settled)
    (within : ∀ y, task.Reaches raw y → A y) (same : AgreeOn A s s') :
    ∃ t', Runs raw' s' task outcome t' ∧ AgreeOn A t t' := by
  induction run generalizing s' with
  | cell _ ih =>
    obtain ⟨t', run', same'⟩ := ih settled (fun y hy => within y hy.fold) same.enter
    exact ⟨_, .cell run', same'.leave⟩
  | unfinished => exact ⟨s', .unfinished, same⟩
  | first _ ih =>
    obtain ⟨t', run', same'⟩ := ih settled (fun y hy => within y hy.operand) same
    exact ⟨t', .first run', same'⟩
  | operandFails _ ih =>
    obtain ⟨t', run', same'⟩ := ih settled (fun y hy => within y hy.operand) same
    exact ⟨t', .operandFails run', same'⟩
  | operatorFails _ hop ih =>
    obtain ⟨t', run', same'⟩ := ih settled (fun y hy => within y hy.operand) same
    exact ⟨t', .operatorFails run' hop, same'⟩
  | step run hop _ ih ihEarlier =>
    obtain ⟨t', run', same'⟩ := ih settled (fun y hy => within y hy.operand) same
    obtain ⟨u', runEarlier', same''⟩ :=
      ihEarlier (run.memo_settled settled) (fun y hy => within y hy.earlier) same'
    exact ⟨u', .step run' hop runEarlier', same''⟩
  | unknown hc => exact ⟨s', .unknown hc, same⟩
  | literal hc => exact ⟨s', .literal hc, same⟩
  | misplaced hc => exact ⟨s', .misplaced hc, same⟩
  | reference hc _ ih =>
    obtain ⟨t', run', same'⟩ := ih settled (fun y hy => within y (.reference hc hy)) same
    exact ⟨t', .reference hc run', same'⟩
  | @undefined s z hz => exact ⟨s', .undefined ((agree z (within z .refl)).trans hz), same⟩
  | @settled s z given outcome hz hseen =>
    have hz' := (agree z (within z .refl)).trans hz
    exact ⟨s', .settled hz' (by rwa [same.memo z (within z .refl)]), same⟩
  | @circular s z given source hz hcell hmem =>
    have hz' := (agree z (within z .refl)).trans hz
    have hcell' : s'.memo[z]?.getD given = .expression source := by
      rwa [same.memo z (within z .refl)]
    exact ⟨s', .circular hz' hcell' (same.trail ▸ hmem), same⟩
  | @nested s t z given source outcome hz hcell hmem run ih =>
    have hz' := (agree z (within z .refl)).trans hz
    have hcell' : s'.memo[z]?.getD given = .expression source := by
      rwa [same.memo z (within z .refl)]
    obtain ⟨-, rfl⟩ := settled.fresh hcell
    obtain ⟨t', run', same'⟩ := ih settled (fun y hy => within y (hy.cell (.of_eq hz))) same
    exact ⟨t', .nested hz' hcell' (same.trail ▸ hmem) run', same'⟩

/-- What is justified depends on nothing but the cells that can be reached. -/
theorem Justified.congr {task outcome} (justified : Justified raw task outcome)
    (agree : ∀ y, task.Reaches raw y → raw'[y]? = raw[y]?) : Justified raw' task outcome := by
  induction justified with
  | cell _ ih => exact .cell (ih fun y hy => agree y hy.fold)
  | unfinished => exact .unfinished
  | first _ ih => exact .first (ih fun y hy => agree y hy.operand)
  | operandFails _ ih => exact .operandFails (ih fun y hy => agree y hy.operand)
  | operatorFails _ hop ih => exact .operatorFails (ih fun y hy => agree y hy.operand) hop
  | step _ hop _ ih ihEarlier =>
    exact .step (ih fun y hy => agree y hy.operand) hop (ihEarlier fun y hy => agree y hy.earlier)
  | unknown hc => exact .unknown hc
  | literal hc => exact .literal hc
  | misplaced hc => exact .misplaced hc
  | reference hc _ ih => exact .reference hc (ih fun y hy => agree y (.reference hc hy))
  | undefined hz => exact .undefined ((agree _ .refl).trans hz)
  | plain hz hseen => exact .plain ((agree _ .refl).trans hz) hseen
  | circular hz cycle => exact .circular (hz.congr (agree _ .refl)) (reaches_congr cycle agree)
  | nested hz _ ih =>
    exact .nested (hz.congr (agree _ .refl)) (ih fun y hy => agree y (.cell hz hy))
  | remembered hz _ ih =>
    exact .remembered (hz.congr (agree _ .refl)) (ih fun y hy => agree y (.cell hz hy))

end Evaluation

end TableCalc
