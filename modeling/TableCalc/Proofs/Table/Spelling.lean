import TableCalc.Proofs.Expression.Normal
import TableCalc.Proofs.Table.Inline

/-!
# The spelling of expressions

Neither white space in an expression nor the case of its letters matters: it is evaluated in its
normal form, at the top as well as for another cell. So two tables whose expressions differ in
spelling alone have the same results and the same tally (`compute_up_to_spelling`).
-/

namespace TableCalc
open Evaluation Expression

/-- The second grid is the first one with other spellings of the expressions. -/
structure Grid.Respells (raw raw' : Grid) : Prop where
  other : ∀ z : Address, (∀ source, raw[z]? ≠ some (Cell.expression source)) → raw'[z]? = raw[z]?
  expression : ∀ (z : Address) (source : String), raw[z]? = some (.expression source) →
    ∃ source' : String, raw'[z]? = some (.expression source') ∧
      Respelled source.toList source'.toList

namespace Grid.Respells

variable {raw raw' : Grid}

/-- A source may be spelled otherwise. -/
lemma insert {x : Address} {source source' : String} (hx : raw[x]? = some (.expression source))
    (respelled : Respelled source.toList source'.toList) :
    raw.Respells (raw.insert x (.expression source')) where
  other z hz := by
    have hne : x ≠ z := by
      rintro rfl
      exact hz source hx
    rw [getElem?_insert, if_neg hne]
  expression z s hz := by
    rw [getElem?_insert]
    split
    case isTrue h =>
      cases h
      cases hx.symm.trans hz
      exact ⟨source', rfl, respelled⟩
    case isFalse => exact ⟨s, hz, .refl _⟩

/-- With other spellings, nothing is replaced but by itself. -/
lemma inlines (h : raw.Respells raw') : raw.Inlines raw' where
  other z hz := h.other z fun source hsource => hz _ (.of_eq hsource)
  expression := by
    rintro z e ⟨source, hsource, rfl⟩
    obtain ⟨source', hsource', respelled⟩ := h.expression z source hsource
    exact ⟨normalize source, ⟨source', hsource', respelled.normalize_eq.symm⟩, .refl _⟩

end Grid.Respells

namespace Table

/-- An expression can be brought to its normal form before it is cut into lexemes or afterwards, and
that form is all that a pass reads of it. -/
theorem compute_up_to_spelling :
    (∀ s, tokenize (normalize s) = ((tokenize s).map normalize).filter (· ≠ "")) ∧
    (∀ s, normalize (normalize s) = normalize s) ∧
    (∀ s s', normalize (s ++ s') = normalize s ++ normalize s') ∧
    (∀ s, ∀ c ∈ (normalize s).toList, Text.isBlank c = false ∧ c.isLower = false) ∧
    ∀ t t' : Table, t.raw.Respells t'.raw →
      t'.compute.2.computed = t.compute.2.computed ∧ t'.compute.1 = t.compute.1 :=
  ⟨tokenize_normalize, Expression.normalize_idem, normalize_append,
    fun _ _ => clear_of_mem_normalize,
    fun _ _ respells => compute_of_inlines respells.inlines⟩

/-- The first cell of the knotted row can be written in capitals and with white space around its
letters. -/
theorem compute_up_to_spelling_knottedRow :
    knottedRow.raw[(⟨0, 0⟩ : Address)]? = some (.expression "b1+d1") ∧
    let t' : Table :=
      { knottedRow with raw := knottedRow.raw.insert ⟨0, 0⟩ (.expression "\tB 1+d1 ") }
    t'.compute.2.computed = knottedRow.compute.2.computed ∧
      t'.compute.1 = knottedRow.compute.1 := by
  have hx : knottedRow.raw[(⟨0, 0⟩ : Address)]? = some (.expression "b1+d1") := rfl
  have rest : Respelled "+d1".toList "+d1 ".toList :=
    .char rfl (.char rfl (.char rfl (.blank rfl .nil)))
  have respelled : Respelled "b1+d1".toList "\tB 1+d1 ".toList :=
    .blank rfl (.char rfl (.blank rfl (.char rfl rest)))
  obtain ⟨-, -, -, -, same⟩ := compute_up_to_spelling
  exact ⟨hx, same _ _ (.insert hx respelled)⟩

end Table

end TableCalc
