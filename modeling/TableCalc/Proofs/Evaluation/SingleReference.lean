import TableCalc.Proofs.Evaluation.WellFormed

/-!
# Expressions with a single reference

Where every expression refers to one cell at most, references lead along a path without choice, and
a path that leads to a cycle goes round it for ever. Every cell on such a path fails because of the
next one (`Grid.SingleReference.blames`).

`Meets raw P x y` says that `y` is the first cell with a property on the path of `x`. If it is the
first one on a cycle, and nothing on the path has a result yet, an evaluation of `x` comes to
evaluate `y` while no other cell of the cycle is under evaluation (`Runs.exists_entry`).
-/

namespace TableCalc
open Evaluation Expression Relation

/-- An expression has one lexeme of the shape of a reference at most. If it refers to a cell, terms
and operators alternate in it. -/
structure Grid.SingleReference (raw : Grid) : Prop where
  count_le : ∀ x e, Holds raw x e →
    (tokenize e).countP (fun lexeme => Token.IsReferenceShape lexeme.toList) ≤ 1
  alternating : ∀ x e z, Holds raw x e → Mentions e z → Alternating (tokenize e)

/-- A cycle goes through both cells. -/
def OnCycle (raw : Grid) (c x : Address) : Prop :=
  TransGen (References raw) c x ∧ TransGen (References raw) x c

/-- `Meets raw P x y`: where references lead from `x`, the first cell with the property is `y`. -/
inductive Meets (raw : Grid) (P : Address → Prop) : Address → Address → Prop where
  | here {y} :
    P y →
    Meets raw P y y
  | next {x z y} :
    ¬ P x →
    References raw x z →
    Meets raw P z y →
    Meets raw P x y

variable {raw : Grid} {c : Address}

/-- The cell that is met has the property. -/
lemma Meets.property {P x y} (meets : Meets raw P x y) : P y := by
  induction meets with
  | here hy => exact hy
  | next _ _ _ ih => exact ih

/-- The cell that is met can be reached. -/
lemma Meets.reaches {P x y} (meets : Meets raw P x y) : ReflTransGen (References raw) x y := by
  induction meets with
  | here _ => exact .refl
  | next _ edge _ ih => exact .head edge ih

/-- On the way to a cell with the property, one is met first. -/
lemma exists_meets {P x y} (path : ReflTransGen (References raw) x y) (hy : P y) :
    ∃ y, Meets raw P x y := by
  induction path using ReflTransGen.head_induction_on with
  | refl => exact ⟨_, .here hy⟩
  | @head x z edge _ ih =>
    by_cases hx : P x
    · exact ⟨x, .here hx⟩
    · obtain ⟨y, meets⟩ := ih
      exact ⟨y, .next hx edge meets⟩

/-- A cell that can reach itself is on its own cycle. -/
lemma OnCycle.self (cycle : TransGen (References raw) c c) : OnCycle raw c c := ⟨cycle, cycle⟩

/-- A cell from which a cycle can be reached refers to such a cell. -/
lemma exists_references_of_reaches {x} (path : ReflTransGen (References raw) x c)
    (cycle : TransGen (References raw) c c) :
    ∃ z, References raw x z ∧ ReflTransGen (References raw) z c := by
  rcases path.cases_head with rfl | edge
  · exact TransGen.head'_iff.1 cycle
  · exact edge

/-- A cell that leads to a cycle has an expression. -/
lemma holds_of_reaches {x} (path : ReflTransGen (References raw) x c)
    (cycle : TransGen (References raw) c c) :
    ∃ e, Holds raw x e := by
  obtain ⟨z, ⟨e, hx, -⟩, -⟩ := exists_references_of_reaches path cycle
  exact ⟨e, hx⟩

/-- A cell that leads to a cycle has no value. -/
lemma valueless_of_reaches {x} (path : ReflTransGen (References raw) x c)
    (cycle : TransGen (References raw) c c) :
    Valueless raw x := by
  obtain ⟨e, hc⟩ := holds_of_reaches .refl cycle
  exact (Justified.circular hc cycle).valueless.of_reaches path

namespace Grid.SingleReference

/-- An expression with one reference mentions one cell at most. -/
lemma mentions_unique (h : raw.SingleReference) {x e z w} (hx : Holds raw x e) (hz : Mentions e z)
    (hw : Mentions e w) : z = w := by
  obtain ⟨lexeme, hmem, hc⟩ := hz
  obtain ⟨lexeme', hmem', hc'⟩ := hw
  have count := h.count_le x e hx
  rw [List.countP_eq_length_filter] at count
  let shaped := (tokenize e).filter fun lexeme => Token.IsReferenceShape lexeme.toList
  have left : lexeme ∈ shaped :=
    List.mem_filter.2 ⟨hmem, decide_eq_true (Token.isReferenceShape_of_classify hc)⟩
  have right : lexeme' ∈ shaped :=
    List.mem_filter.2 ⟨hmem', decide_eq_true (Token.isReferenceShape_of_classify hc')⟩
  obtain ⟨only, same⟩ :=
    List.length_eq_one_iff.1 (Nat.le_antisymm count (List.length_pos_of_mem left))
  rw [show shaped = [only] from same, List.mem_singleton] at left right
  rw [left, ← right, hc'] at hc
  cases hc
  rfl

/-- A cell refers to one cell at most. -/
lemma references_unique (h : raw.SingleReference) : Relator.RightUnique (References raw) := by
  rintro x z w ⟨e, hx, hz⟩ ⟨e', hx', hw⟩
  cases hx.unique hx'
  exact h.mentions_unique hx hz hw

/-- If a cell on the way to a cycle lies on a cycle, it is that one. -/
lemma onCycle_of_reaches (h : raw.SingleReference) {x} (path : ReflTransGen (References raw) x c)
    (cycle : TransGen (References raw) x x) : OnCycle raw c x :=
  ⟨reaches_back h.references_unique cycle path, TransGen.trans_left cycle path⟩

/-- On the way to a cycle, each cell fails because of the next one. -/
lemma blames (h : raw.SingleReference) {x z} (edge : References raw x z)
    (path : ReflTransGen (References raw) z c) (cycle : TransGen (References raw) c c) :
    Blames raw x z := by
  obtain ⟨e, hx, mentions⟩ := edge
  obtain ⟨lexeme, hmem, hc⟩ := id mentions
  obtain ⟨w, rightmost⟩ :=
    RightmostReference.exists_of_mem hmem hc (valueless_of_reaches path cycle)
  obtain rfl := h.mentions_unique hx mentions rightmost.mentions
  refine ⟨e, hx, mentions, .cell (.of_rightmost (h.alternating x e z hx mentions) ?_ rightmost)⟩
  intro lexeme' hmem' w hc'
  obtain rfl := h.mentions_unique hx mentions ⟨lexeme', hmem', hc'⟩
  obtain ⟨_, source, hsource, -⟩ := holds_of_reaches path cycle
  exact .inr ⟨source, hsource⟩

/-- On the way to a cycle, each cell blames the next one. -/
lemma blames_of_reaches (h : raw.SingleReference) {x y} (path : TransGen (References raw) x y)
    (rest : ReflTransGen (References raw) y c) (cycle : TransGen (References raw) c c) :
    TransGen (Blames raw) x y := by
  induction path with
  | single edge => exact .single (h.blames edge rest cycle)
  | tail _ edge ih => exact .tail (ih (.head edge rest)) (h.blames edge rest cycle)

end Grid.SingleReference

namespace Evaluation

/-- An operand that refers to a cell comes to what the reference comes to. -/
lemma Runs.operand_reference {s t lexeme z outcome} (run : Runs raw s (.operand lexeme) outcome t)
    (hc : Token.classify lexeme = .ok (.reference z)) : Runs raw s (.reference z) outcome t := by
  cases run with
  | unknown hc' => cases hc.symm.trans hc'
  | literal hc' => cases hc.symm.trans hc'
  | misplaced hc' => cases hc.symm.trans hc'
  | reference hc' run =>
    cases hc.symm.trans hc'
    exact run

/-- An expression comes to its last reference before anything else can fail. -/
lemma Runs.of_last_reference {s lexemes z outcome t} (alternating : Alternating lexemes)
    (last : RightmostReference (fun _ => True) lexemes z)
    (run : Runs raw s (.fold lexemes.reverse) outcome t) :
    ∃ found u, Runs raw s (.reference z) found u ∧ ∀ e, found = .error e → outcome = .error e ∧
      u = t := by
  induction alternating generalizing outcome t with
  | @term lexeme _ =>
    have last : RightmostReference (fun _ => True) ([] ++ [lexeme]) z := last
    rcases RightmostReference.snoc_iff.1 last with ⟨hc, -⟩ | ⟨-, before, _, after, split, -⟩
    · cases run with
      | first run => exact ⟨outcome, t, run.operand_reference hc, fun e h => ⟨h, rfl⟩⟩
    · simp at split
  | @step earlier symbol lexeme op _ hsymbol term ih =>
    have split : (earlier ++ [symbol, lexeme]).reverse = lexeme :: symbol :: earlier.reverse := by
      simp
    rw [split] at run
    rw [← List.singleton_append, ← List.append_assoc, RightmostReference.snoc_iff,
      RightmostReference.snoc_iff] at last
    rcases last with ⟨hc, -⟩ | ⟨hlast, ⟨hc, -⟩ | ⟨-, last⟩⟩
    · cases run with
      | operandFails run => exact ⟨_, _, run.operand_reference hc, fun e h => ⟨h, rfl⟩⟩
      | operatorFails run _ => exact ⟨_, _, run.operand_reference hc, nofun⟩
      | step run _ _ => exact ⟨_, _, run.operand_reference hc, nofun⟩
    · cases (Token.classify_operator_iff.2 hsymbol).symm.trans hc
    · -- the last term is a numeral, so the fold goes on from the same evaluation
      obtain ⟨value, hvalue⟩ := term.resolve_right fun ⟨w, hc⟩ => hlast w hc trivial
      cases run with
      | operandFails run => cases run <;> simp_all
      | operatorFails _ hop => cases (operator_eq_ok_iff.2 hsymbol).symm.trans hop
      | step run _ runEarlier =>
        obtain ⟨-, rfl⟩ := run.deterministic (.literal hvalue)
        obtain ⟨found, u, run', fails⟩ := ih last runEarlier
        refine ⟨found, u, run', fun e h => ?_⟩
        obtain ⟨rfl, rfl⟩ := fails e h
        exact ⟨rfl, rfl⟩

/-- A reference in the expression of a cell under evaluation leaves the evaluator where it should
be. -/
lemma Fresh.mention {start e₀ s x e z} (h : Fresh raw start e₀ s (.cell x e))
    (mentions : Mentions e z) :
    Fresh raw start e₀ (s.enter x) (.reference z) :=
  ⟨⟨h.settled, h.nodup_enter, e, h.leads_enter, mentions⟩, h.own, h.recorded, trivial⟩

/-- On the way to a cycle, the evaluation of a cell calls for that of the next one and ends with it.
-/
lemma Runs.exists_next {start e₀ x z} (single : raw.SingleReference) (edge : References raw x z)
    (path : ReflTransGen (References raw) z c) (cycle : TransGen (References raw) c c)
    {s e outcome t}
    (run : Runs raw s (.cell x e) outcome t) (fresh : Fresh raw start e₀ s (.cell x e))
    (unset : z ∉ s.memo) (hmem : z ∉ (s.enter x).trail.path) :
    ∃ e' outcome' u, Runs raw (s.enter x) (.cell z e') outcome' u ∧
      Fresh raw start e₀ (s.enter x) (.cell z e') ∧
      t = u.leave x outcome := by
  obtain ⟨e, hx, mentions⟩ := edge
  cases fresh.holdsCell.unique hx
  obtain ⟨lexeme, hlexeme, hc⟩ := id mentions
  obtain ⟨w, last⟩ := RightmostReference.exists_of_mem (P := fun _ => True) hlexeme hc trivial
  obtain rfl := single.mentions_unique hx mentions last.mentions
  cases run with
  | @cell _ u _ _ _ run =>
    obtain ⟨found, u', run', fails⟩ :=
      run.of_last_reference (single.alternating x e z hx mentions) last
    have fresh' := fresh.mention mentions
    cases found with
    | ok value =>
      exact absurd (valueless_of_reaches path cycle) (fresh'.justified run').not_valueless
    | error err =>
      obtain ⟨rfl, rfl⟩ := fails err rfl
      obtain ⟨_, source, hsource, rfl⟩ := holds_of_reaches path cycle
      generalize (.error err : Outcome) = found at run'
      cases run' with
      | undefined hz => cases hsource.symm.trans hz
      | settled hz hseen =>
        -- there is nothing to be seen of the cell yet
        cases hsource.symm.trans hz
        rw [memo_enter, Grid.getElem?_eq_none unset] at hseen
        cases hseen
      | circular _ _ hmem' => exact absurd hmem' hmem
      | nested hz hcell _ run' => exact ⟨_, _, _, run', fresh'.nested hz hcell hmem, rfl⟩

/-- The cell on the cycle that is met first is evaluated while nothing else on the cycle is under
evaluation. -/
theorem Runs.exists_entry {start e₀ x y} (single : raw.SingleReference)
    (cycle : TransGen (References raw) c c)
    (meets : Meets raw (OnCycle raw c) x y) {s e outcome t} (run : Runs raw s (.cell x e) outcome t)
    (fresh : Fresh raw start e₀ s (.cell x e))
    (unset : ∀ v, ReflTransGen (References raw) v c → v ∉ s.memo)
    (off : ∀ v ∈ s.trail.path, ¬ OnCycle raw c v) :
    ∃ s' e' outcome' t', Runs raw s' (.cell y e') outcome' t' ∧ Fresh raw start e₀ s' (.cell y e') ∧
      (∀ v ∈ s'.trail.path, ¬ OnCycle raw c v) ∧ t.memo[y]? = t'.memo[y]? := by
  induction meets generalizing s e outcome t with
  | here _ => exact ⟨s, e, outcome, t, run, fresh, off, rfl⟩
  | @next x z y hx edge meets ih =>
    have path : ReflTransGen (References raw) z c :=
      meets.reaches.trans meets.property.2.to_reflTransGen
    have off' : ∀ v ∈ (s.enter x).trail.path, ¬ OnCycle raw c v := by
      intro v hv
      rw [trail_enter, Trail.path_enter fresh.not_mem, List.mem_append, List.mem_singleton] at hv
      rcases hv with hv | rfl
      · exact off v hv
      · exact hx
    -- if the next cell were under evaluation, it would be on the cycle
    have hmem : z ∉ (s.enter x).trail.path := by
      intro hmem
      obtain ⟨e, hx', mentions⟩ := id edge
      cases fresh.holdsCell.unique hx'
      have around := (fresh.mention mentions).toPlaced.reaches_self fresh.own hmem
      exact off' z hmem (single.onCycle_of_reaches path around)
    obtain ⟨e', outcome', u, run', fresh', rfl⟩ :=
      run.exists_next single edge path cycle fresh (unset z path) hmem
    obtain ⟨s', e'', outcome'', t', entry, freshEntry, offEntry, same⟩ := ih run' fresh' unset off'
    refine ⟨s', e'', outcome'', t', entry, freshEntry, offEntry, ?_⟩
    rw [memo_leave, Grid.getElem?_insert, if_neg, same]
    rintro rfl
    exact hx meets.property

end Evaluation

end TableCalc
