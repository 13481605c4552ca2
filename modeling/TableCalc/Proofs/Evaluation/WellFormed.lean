import TableCalc.Proofs.Evaluation.Cycle

/-!
# Well-formed grids

In a well-formed grid, expressions are terms with operators between them, and refer to number cells
and expression cells only. No lexeme and no missing cell can be the reason for a failure there, so
an expression that refers to a cell without a value fails because of the rightmost one
(`Grid.WellFormed.blames`).
-/

namespace TableCalc
open Evaluation Expression

/-- The lexeme is a numeral in range or a reference. -/
def IsTerm (lexeme : String) : Prop :=
  (∃ value, Token.classify lexeme = .ok (.number value)) ∨
    ∃ z, Token.classify lexeme = .ok (.reference z)

/-- The lexemes are terms and operators in turn, and begin and end with a term. -/
inductive Alternating : List String → Prop where
  | term {lexeme} :
    IsTerm lexeme →
    Alternating [lexeme]
  | step {earlier symbol last} {op : Operator} :
    Alternating earlier →
    symbol.toList = [op.symbol] →
    IsTerm last →
    Alternating (earlier ++ [symbol, last])

/-- The cell is a number or an expression. -/
def Grid.Usable (raw : Grid) (z : Address) : Prop :=
  (∃ value, raw[z]? = some (.number value)) ∨ ∃ source, raw[z]? = some (.expression source)

/-- Every expression alternates between terms and operators, and refers to number cells and
expression cells only. -/
structure Grid.WellFormed (raw : Grid) : Prop where
  alternating : ∀ x e, Holds raw x e → Alternating (tokenize e)
  usable : ∀ x z, References raw x z → raw.Usable z

variable {raw : Grid}

namespace Evaluation

/-- A reference to a usable cell without a value passes its error on. -/
lemma Justified.of_valueless {z} (hz : raw.Usable z) (h : Valueless raw z) :
    Justified raw (.reference z) (.error (.propagated z)) := by
  rcases hz with ⟨value, hz⟩ | ⟨source, hz⟩
  · exact absurd h (Justified.plain hz rfl).not_valueless
  · exact h.justified (.of_eq hz)

/-- A term that refers to no cell without a value has a value. -/
lemma exists_justified_operand {lexeme} (term : IsTerm lexeme)
    (valued : ∀ w, Token.classify lexeme = .ok (.reference w) → ¬ Valueless raw w) :
    ∃ value, Justified raw (.operand lexeme) (.ok value) := by
  rcases term with ⟨value, hc⟩ | ⟨w, hc⟩
  · exact ⟨value, .literal hc⟩
  · obtain ⟨value, justified⟩ := not_valueless_iff.1 (valued w hc)
    exact ⟨value, .reference hc justified⟩

/-- Where terms and operators alternate, the rightmost reference to a cell without a value makes the
fold fail. -/
lemma Justified.of_rightmost {lexemes z} (alternating : Alternating lexemes)
    (usable : ∀ lexeme ∈ lexemes, ∀ w, Token.classify lexeme = .ok (.reference w) → raw.Usable w)
    (rightmost : RightmostReference (Valueless raw) lexemes z) :
    Justified raw (.fold lexemes.reverse) (.error (.propagated z)) := by
  induction alternating with
  | @term lexeme _ =>
    have rightmost : RightmostReference (Valueless raw) ([] ++ [lexeme]) z := rightmost
    rcases RightmostReference.snoc_iff.1 rightmost with ⟨hc, hz⟩ | ⟨-, before, _, after, split, -⟩
    · exact .first (.reference hc (.of_valueless (usable lexeme (by simp) z hc) hz))
    · simp at split
  | @step earlier symbol last op _ hsymbol term ih =>
    rw [← List.singleton_append, ← List.append_assoc, RightmostReference.snoc_iff,
      RightmostReference.snoc_iff] at rightmost
    have split : (earlier ++ [symbol, last]).reverse = last :: symbol :: earlier.reverse := by simp
    rw [split]
    -- the reference is the last term, or it is further to the left and the last term has a value
    rcases rightmost with ⟨hc, hz⟩ | ⟨hlast, ⟨hc, -⟩ | ⟨-, rightmost⟩⟩
    · exact .operandFails (.reference hc (.of_valueless (usable last (by simp) z hc) hz))
    · cases (Token.classify_operator_iff.2 hsymbol).symm.trans hc
    · obtain ⟨value, justified⟩ := exists_justified_operand term hlast
      have before : ∀ lexeme ∈ earlier, ∀ w, Token.classify lexeme = .ok (.reference w) →
          raw.Usable w :=
        fun lexeme hmem => usable lexeme (by simp [hmem])
      exact .step justified (operator_eq_ok_iff.2 hsymbol) (ih before rightmost)

end Evaluation

/-- An expression of a well-formed grid fails because of its rightmost reference to a cell without a
value. -/
lemma Grid.WellFormed.blames (h : raw.WellFormed) {x e z} (hx : Holds raw x e)
    (rightmost : RightmostReference (Valueless raw) (tokenize e) z) : Blames raw x z := by
  refine ⟨e, hx, rightmost.mentions, .cell (.of_rightmost (h.alternating x e hx) ?_ rightmost)⟩
  exact fun lexeme hmem w hc => h.usable x w ⟨e, hx, lexeme, hmem, hc⟩

end TableCalc
