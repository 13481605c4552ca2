import TableCalc.Proofs.Evaluation.Adequacy
import TableCalc.Proofs.Evaluation.Valued

/-!
# Evaluation when all is settled

Once every raw cell has a result, an evaluation looks results up and calls for no other evaluation,
so it meets no circular reference (`Runs.of_complete`). The rules leave no choice then: justified
outcomes that are not circular references are equal (`Justified.unique_of_not_circular`).

Such an outcome may be that an error is passed on from a cell. That cell is the one of the rightmost
reference to a cell without a value (`Justified.rightmost`).
-/

namespace TableCalc.Evaluation
open Expression Relation

variable {raw : Grid}

/-- A reference to the cell yields no value. -/
def Valueless (raw : Grid) (z : Address) : Prop := ¬ ∃ n, (Task.reference z).Valued raw n

/-- A reference fails only to a cell without a value. -/
lemma Justified.valueless {z e} (h : Justified raw (.reference z) (.error e)) :
    Valueless raw z := by
  rintro ⟨n, valued⟩
  exact not_yields_error ((h.yields_iff n).2 valued)

/-- A reference has a value only to a cell with a value. -/
lemma Justified.not_valueless {z value} (h : Justified raw (.reference z) (.ok value)) :
    ¬ Valueless raw z :=
  fun valueless => valueless ⟨value.toInt, (h.yields_iff _).1 (yields_ok.2 rfl)⟩

/-- Every expression comes to an outcome. -/
lemma exists_justified {z e} (hz : Holds raw z e) :
    ∃ outcome, Justified raw (.cell z e) outcome := by
  obtain ⟨outcome, t, run, -⟩ := exists_runs_evaluateAndStore raw { memo := ∅ } z e
  have ready : Ready raw { memo := ∅ } := ⟨rfl, Grid.settled_empty, recorded_empty⟩
  exact ⟨outcome, (ready.next hz run).1⟩

/-- A cell without a value is one to which no reference has a value. -/
lemma not_valueless_iff {z} :
    ¬ Valueless raw z ↔ ∃ value, Justified raw (.reference z) (.ok value) := by
  refine ⟨fun h => ?_, fun ⟨value, justified⟩ => justified.not_valueless⟩
  obtain ⟨n, ⟨value, hz, -⟩ | valued⟩ := not_not.1 h
  · exact ⟨value, .plain hz rfl⟩
  · obtain ⟨e, hz⟩ := valued.holds
    obtain ⟨outcome, justified⟩ := exists_justified hz
    have seen := Justified.remembered hz justified
    cases outcome with
    | ok value => exact ⟨value, seen⟩
    | error e => exact absurd seen.valueless h

/-- A failing reference to an expression cell is an error passed on, or circular. -/
lemma Justified.error_of_reference {z e err} (hz : Holds raw z e)
    (h : Justified raw (.reference z) (.error err)) :
    err = .propagated z ∨ ∃ y, err = .circularReference y := by
  obtain ⟨source, hsource, -⟩ := hz
  generalize hout : (.error err : Outcome) = outcome at h
  cases h with
  | undefined h => cases hsource.symm.trans h
  | plain h hseen =>
    cases hsource.symm.trans h
    cases hseen
  | circular _ _ =>
    cases hout
    exact .inr ⟨z, rfl⟩
  | @nested _ _ inner _ _ =>
    cases inner with
    | ok value => cases hout
    | error e =>
      cases hout
      cases e with
      | circularReference y =>
        by_cases hy : y = z
        · exact .inl (if_pos hy)
        · exact .inr ⟨y, if_neg hy⟩
      | _ => exact .inl rfl
  | @remembered _ _ inner _ _ =>
    cases inner <;> cases hout
    exact .inl rfl

/-- What a reference yields if it is not circular is determined. -/
lemma Justified.reference_unique {z outcome outcome'} (h : Justified raw (.reference z) outcome)
    (h' : Justified raw (.reference z) outcome')
    (hne : ∀ y, outcome ≠ .error (.circularReference y))
    (hne' : ∀ y, outcome' ≠ .error (.circularReference y)) : outcome = outcome' := by
  have expression {e} (hz : Holds raw z e) : outcome = outcome' := by
    cases outcome with
    | ok value => exact ((h.ok_iff h' value).1 rfl).symm
    | error e =>
      cases outcome' with
      | ok value => cases (h.ok_iff h' value).2 rfl
      | error e' =>
        rcases h.error_of_reference hz with rfl | ⟨y, rfl⟩
        · rcases h'.error_of_reference hz with rfl | ⟨y', rfl⟩
          · rfl
          · exact absurd rfl (hne' y')
        · exact absurd rfl (hne y)
  have hh := h
  cases hh with
  | undefined hz =>
    cases h' with
    | undefined _ => rfl
    | plain hz' _ => cases hz.symm.trans hz'
    | circular hz' _ | nested hz' _ | remembered hz' _ => exact expression hz'
  | plain hz hseen =>
    cases h' with
    | undefined hz' => cases hz.symm.trans hz'
    | plain hz' hseen' =>
      cases hz.symm.trans hz'
      cases hseen.symm.trans hseen'
      rfl
    | circular hz' _ | nested hz' _ | remembered hz' _ => exact expression hz'
  | circular hz _ | nested hz _ | remembered hz _ => exact expression hz

/-- Justified outcomes that are not circular references are equal. -/
theorem Justified.unique_of_not_circular {task outcome outcome'} (h : Justified raw task outcome)
    (h' : Justified raw task outcome') (hne : ∀ y, outcome ≠ .error (.circularReference y))
    (hne' : ∀ y, outcome' ≠ .error (.circularReference y)) : outcome = outcome' := by
  induction h generalizing outcome' with
  | cell _ ih =>
    cases h' with
    | cell h' => exact ih h' hne hne'
  | unfinished =>
    cases h'
    rfl
  | first _ ih =>
    cases h' with
    | first h' => exact ih h' hne hne'
  | operandFails h ih =>
    cases h' with
    | operandFails h' => exact ih h' hne hne'
    | operatorFails h' _ => cases (h.ok_iff h' _).2 rfl
    | step h' _ _ => cases (h.ok_iff h' _).2 rfl
  | operatorFails h hop _ =>
    cases h' with
    | operandFails h' => cases (h.ok_iff h' _).1 rfl
    | operatorFails _ hop' =>
      cases hop.symm.trans hop'
      rfl
    | step _ hop' _ => cases hop.symm.trans hop'
  | step h hop _ _ ihEarlier =>
    cases h' with
    | operandFails h' => cases (h.ok_iff h' _).1 rfl
    | operatorFails _ hop' => cases hop.symm.trans hop'
    | step h' hop' hEarlier' =>
      cases (h.ok_iff h' _).1 rfl
      cases hop.symm.trans hop'
      -- a circular reference among the earlier lexemes would be the outcome
      rw [ihEarlier hEarlier' (by rintro y rfl; exact hne y rfl)
        (by rintro y rfl; exact hne' y rfl)]
  | unknown hc => cases h' <;> simp_all
  | literal hc => cases h' <;> simp_all
  | misplaced hc => cases h' <;> simp_all
  | reference hc _ ih =>
    cases h' with
    | reference hc' h' =>
      cases hc.symm.trans hc'
      exact ih h' hne hne'
    | unknown hc' => cases hc.symm.trans hc'
    | literal hc' => cases hc.symm.trans hc'
    | misplaced hc' => cases hc.symm.trans hc'
  | undefined hz => exact Justified.reference_unique (.undefined hz) h' hne hne'
  | plain hz hseen => exact Justified.reference_unique (.plain hz hseen) h' hne hne'
  | circular hz cycle => exact absurd rfl (hne _)
  | nested hz h _ => exact Justified.reference_unique (.nested hz h) h' hne hne'
  | remembered hz h _ => exact Justified.reference_unique (.remembered hz h) h' hne hne'

/-- A reference passes on no error but that of its own cell. -/
lemma Justified.eq_of_reference {z w} (h : Justified raw (.reference z) (.error (.propagated w))) :
    z = w := by
  generalize hout : (.error (.propagated w) : Outcome) = outcome at h
  cases h with
  | undefined _ => cases hout
  | @plain _ given _ _ hseen =>
    cases given <;> cases hseen <;> cases hout
    rfl
  | circular _ _ => cases hout
  | @nested _ _ inner hz h =>
    have reference : Justified raw (.reference z) (.error (.propagated w)) := hout ▸ .nested hz h
    rcases reference.error_of_reference hz with h | ⟨y, h⟩
    · cases h
      rfl
    · cases h
  | @remembered _ _ inner _ _ =>
    cases inner <;> cases hout
    rfl

/-- An error that is passed on from a cell is found by a reference to the cell. -/
theorem Justified.reference_passesOn {task outcome w} (h : Justified raw task outcome)
    (hout : outcome = .error (.propagated w)) :
    Justified raw (.reference w) (.error (.propagated w)) := by
  induction h with
  | cell _ ih => exact ih hout
  | unfinished => cases hout
  | first _ ih => exact ih hout
  | operandFails _ ih =>
    cases hout
    exact ih rfl
  | operatorFails _ hop _ =>
    cases hout
    cases operator_error hop
  | @step _ _ _ _ _ earlierOutcome _ _ _ _ ihEarlier =>
    cases earlierOutcome with
    | ok lhs => cases Operator.apply_error hout
    | error e => exact ihEarlier hout
  | unknown hc =>
    cases hout
    cases Token.classify_error hc
  | literal _ => cases hout
  | misplaced _ => cases hout
  | reference _ _ ih => exact ih hout
  | undefined _ => cases hout
  | plain hz hseen =>
    have found := Justified.plain hz (hout ▸ hseen)
    exact found.eq_of_reference ▸ found
  | circular _ _ => cases hout
  | nested hz h _ =>
    have found := hout ▸ Justified.nested hz h
    exact found.eq_of_reference ▸ found
  | remembered hz h _ =>
    have found := hout ▸ Justified.remembered hz h
    exact found.eq_of_reference ▸ found

/-- Errors are passed on from error cells and expression cells only. -/
lemma Justified.error_or_holds {w} (h : Justified raw (.reference w) (.error (.propagated w))) :
    (∃ message, raw[w]? = some (.error message)) ∨ ∃ e, Holds raw w e := by
  generalize hout : (.error (.propagated w) : Outcome) = outcome at h
  cases h with
  | undefined _ => cases hout
  | @plain _ given _ hz hseen =>
    cases given <;> cases hseen <;> cases hout
    exact .inl ⟨_, hz⟩
  | circular _ _ => cases hout
  | nested hz _ => exact .inr ⟨_, hz⟩
  | remembered hz _ => exact .inr ⟨_, hz⟩

/-- An operand that passes an error on refers to a cell without a value. -/
lemma Justified.operand_passesOn {lexeme w}
    (h : Justified raw (.operand lexeme) (.error (.propagated w))) :
    Token.classify lexeme = .ok (.reference w) ∧ Valueless raw w := by
  cases h with
  | unknown hc => cases Token.classify_error hc
  | reference hc h =>
    obtain rfl := h.eq_of_reference
    exact ⟨hc, h.valueless⟩

/-- An operand with a value does not refer to a cell without one. -/
lemma Justified.operand_not_valueless {lexeme value w}
    (h : Justified raw (.operand lexeme) (.ok value))
    (hc : Token.classify lexeme = .ok (.reference w)) : ¬ Valueless raw w := by
  cases h with
  | literal hc' => cases hc.symm.trans hc'
  | reference hc' h =>
    cases hc.symm.trans hc'
    exact h.not_valueless

/-- An expression with a value refers to cells with a value only. -/
lemma Justified.fold_not_valueless {lexemes value} (h : Justified raw (.fold lexemes) (.ok value)) :
    ∀ lexeme ∈ lexemes, ∀ w, Token.classify lexeme = .ok (.reference w) → ¬ Valueless raw w := by
  generalize hout : (.ok value : Outcome) = outcome at h
  induction lexemes using foldReversed.induct generalizing value outcome with
  | case1 => simp
  | case2 lexeme =>
    cases h with
    | first h =>
      intro lexeme' hmem w hc
      rw [List.mem_singleton.1 hmem] at hc
      exact (hout ▸ h).operand_not_valueless hc
  | case3 last symbol earlier ih =>
    cases h with
    | operandFails _ => cases hout
    | operatorFails _ _ => cases hout
    | @step _ _ _ _ _ earlierOutcome h hop hEarlier =>
      intro lexeme hmem w hc
      cases earlierOutcome with
      | error e => cases hout
      | ok lhs =>
        rcases List.mem_cons.1 hmem with rfl | hmem
        · exact h.operand_not_valueless hc
        · rcases List.mem_cons.1 hmem with rfl | hmem
          · cases (Token.classify_operator_iff.2 (operator_eq_ok_iff.1 hop)).symm.trans hc
          · exact ih _ rfl hEarlier lexeme hmem w hc

/-- A cell that refers to a cell without a value has none. -/
lemma Valueless.of_references {z w} (h : Valueless raw w) (edge : References raw z w) :
    Valueless raw z := by
  obtain ⟨e, hz, lexeme, hmem, hc⟩ := edge
  obtain ⟨outcome, justified⟩ := exists_justified hz
  cases outcome with
  | error e => exact (Justified.remembered hz justified).valueless
  | ok value =>
    cases justified with
    | cell justified =>
      exact absurd h (justified.fold_not_valueless lexeme (List.mem_reverse.2 hmem) w hc)

/-- A cell that leads to one without a value has none itself. -/
lemma Valueless.of_reaches {z w} (h : Valueless raw w) (path : ReflTransGen (References raw) z w) :
    Valueless raw z := by
  induction path using ReflTransGen.head_induction_on with
  | refl => exact h
  | head edge _ ih => exact ih.of_references edge

/-- An error that is passed on comes from the rightmost reference to a cell without a value. -/
theorem Justified.rightmost {lexemes w}
    (h : Justified raw (.fold lexemes) (.error (.propagated w))) :
    RightmostReference (Valueless raw) lexemes.reverse w := by
  generalize hout : (.error (.propagated w) : Outcome) = outcome at h
  induction lexemes using foldReversed.induct generalizing outcome with
  | case1 =>
    cases h
    cases hout
  | case2 lexeme =>
    cases h with
    | first h =>
      show RightmostReference _ ([] ++ [lexeme]) w
      exact RightmostReference.snoc_iff.2 (.inl (hout ▸ h).operand_passesOn)
  | case3 last symbol earlier ih =>
    rw [List.reverse_cons, RightmostReference.snoc_iff, List.reverse_cons,
      RightmostReference.snoc_iff]
    cases h with
    | operandFails h => exact .inl (hout ▸ h).operand_passesOn
    | operatorFails _ hop =>
      cases hout
      cases operator_error hop
    | @step _ _ _ _ op earlierOutcome h hop hEarlier =>
      have failed : .error (.propagated w) = earlierOutcome := by
        cases earlierOutcome with
        | error e => exact hout
        | ok lhs => cases Operator.apply_error hout.symm
      -- neither the operator nor the last operand refers to a cell without a value
      refine .inr ⟨fun z hc => ?_, .inr ⟨fun z hc => ?_, ih _ failed hEarlier⟩⟩
      · exact h.operand_not_valueless hc
      · cases (Token.classify_operator_iff.2 (operator_eq_ok_iff.1 hop)).symm.trans hc

/-- Where every raw cell has a result, references change nothing and are not circular. -/
theorem Runs.of_complete {s task outcome t} (run : Runs raw s task outcome t)
    (settled : s.memo.Settled) (complete : ∀ z ∈ raw, z ∈ s.memo) (h : ∀ z e, task ≠ .cell z e) :
    t = s ∧ ∀ y, outcome ≠ .error (.circularReference y) := by
  have present {z : Address} {given source} (hz : raw[z]? = some given) :
      s.memo[z]?.getD given ≠ .expression source := by
    have hmem : z ∈ s.memo := complete z (Grid.isSome_getElem?_iff_mem.1 (by simp [hz]))
    obtain ⟨cell, hcell⟩ := Option.isSome_iff_exists.1 (Grid.isSome_getElem?_iff_mem.2 hmem)
    rw [hcell, Option.getD_some]
    rintro rfl
    exact settled z source hcell
  induction run with
  | cell _ _ => exact absurd rfl (h _ _)
  | unfinished => exact ⟨rfl, nofun⟩
  | first _ ih => exact ih settled complete nofun present
  | operandFails _ ih => exact ih settled complete nofun present
  | operatorFails _ hop ih =>
    refine ⟨(ih settled complete nofun present).1, ?_⟩
    rintro y ⟨⟩
    cases operator_error hop
  | @step _ _ _ _ _ _ rhs op outcome _ _ _ ih ihEarlier =>
    obtain ⟨rfl, -⟩ := ih settled complete nofun present
    obtain ⟨rfl, hne⟩ := ihEarlier settled complete nofun present
    refine ⟨rfl, ?_⟩
    cases outcome with
    | error e => exact hne
    | ok lhs => exact fun y happly => nomatch Operator.apply_error happly
  | unknown hc =>
    refine ⟨rfl, ?_⟩
    rintro y ⟨⟩
    cases Token.classify_error hc
  | literal _ => exact ⟨rfl, nofun⟩
  | misplaced _ => exact ⟨rfl, nofun⟩
  | reference _ _ ih => exact ih settled complete nofun present
  | undefined _ => exact ⟨rfl, nofun⟩
  | @settled s z given _ _ hseen =>
    refine ⟨rfl, ?_⟩
    generalize s.memo[z]?.getD given = cell at hseen
    cases cell <;> cases hseen <;> nofun
  | circular hz hcell _ => exact absurd hcell (present hz)
  | nested hz hcell _ _ _ => exact absurd hcell (present hz)

end TableCalc.Evaluation
