import TableCalc.Proofs.Evaluation.Inline
import TableCalc.Proofs.Expression.Lexeme
import TableCalc.Proofs.Table.Computed
import TableCalc.Proofs.Table.Solution

/-!
# A known value in place of a reference

If a pass has a number for a cell, references to that cell can be replaced by the number. The pass
over the new table may evaluate that cell later, but it has the same result for every cell, errors
of cells on cycles included, and the same tally (`compute_of_inlines`). The two passes are compared
step by step: they have the same results for all cells without a value at any time.
-/

namespace TableCalc.Table
open Evaluation Expression Relation

variable {raw raw' : Grid} {t t' : Table}

/-- The evaluation of a cell that leads to no cell without a value changes no result of such a cell.
-/
lemma computeNext_similar_self {s z source} (ready : Ready raw' s)
    (hz : raw'[z]? = some (.expression source))
    (h : ∀ y, ReflTransGen (References raw') z y → ¬ Valueless raw y) :
    Similar raw s (computeNext raw' s (z, source)) := by
  by_cases hmem : z ∈ s.memo
  · rw [computeNext_of_mem hmem]
    exact ⟨rfl, fun _ _ => rfl⟩
  · obtain ⟨outcome, run⟩ := runs_computeNext hmem
    have admitted : z ∉ s.trail.path := by
      rw [ready.trail]
      exact List.not_mem_nil
    exact run.similar ready.settled admitted fun y reaches => h y (reaches.cell (.of_eq hz))

/-- A step of one pass and the same step of the other one keep them similar. -/
lemma computeNext_similar (inlines : raw.Inlines raw') {s s' z source source'} (ready : Ready raw s)
    (ready' : Ready raw' s') (hz : raw[z]? = some (.expression source))
    (hz' : raw'[z]? = some (.expression source'))
    (similar : Similar raw s s') :
    Similar raw (computeNext raw s (z, source)) (computeNext raw' s' (z, source')) := by
  by_cases valueless : Valueless raw z
  · have same : z ∈ s'.memo ↔ z ∈ s.memo := by
      rw [← Grid.isSome_getElem?_iff_mem, ← Grid.isSome_getElem?_iff_mem, similar.memo z valueless]
    by_cases hmem : z ∈ s.memo
    · rw [computeNext_of_mem hmem, computeNext_of_mem (same.2 hmem)]
      exact similar
    · -- both passes evaluate the cell, and the two runs are similar
      have hmem' : z ∉ s'.memo := mt same.1 hmem
      obtain ⟨outcome, run⟩ := runs_computeNext hmem
      obtain ⟨outcome', run'⟩ := runs_computeNext hmem'
      obtain ⟨e', he', inlined⟩ := inlines.expression z _ (.of_eq hz)
      cases he'.unique (.of_eq hz')
      obtain ⟨u, again, similar'⟩ :=
        run.inline inlines (.initial ready (.of_eq hz) hmem) (.cell inlined)
          (.initial ready' he' hmem') similar
      obtain ⟨-, rfl⟩ := run'.deterministic again
      exact similar'
  · have left := computeNext_similar_self ready hz fun y path hy => valueless (hy.of_reaches path)
    have right := computeNext_similar_self ready' hz' fun y path =>
      not_valueless_of_reaches inlines valueless path
    exact left.symm.trans (similar.trans right)

/-- Steps at the same places keep two passes similar. -/
lemma foldl_computeNext_similar (inlines : raw.Inlines raw')
    {entries entries' : List (Address × String)}
    (places : entries'.map Prod.fst = entries.map Prod.fst)
    (hentries : ∀ entry ∈ entries, raw[entry.1]? = some (.expression entry.2))
    (hentries' : ∀ entry ∈ entries', raw'[entry.1]? = some (.expression entry.2)) {s s'}
    (ready : Ready raw s) (ready' : Ready raw' s') (similar : Similar raw s s') :
    Similar raw (entries.foldl (computeNext raw) s) (entries'.foldl (computeNext raw') s') := by
  induction entries generalizing entries' s s' with
  | nil =>
    cases List.map_eq_nil_iff.1 places
    exact similar
  | cons entry entries ih =>
    obtain ⟨⟨z, source'⟩, entries', rfl, hhead, htail⟩ := List.map_eq_cons_iff.1 places
    obtain ⟨z, source⟩ := entry
    cases hhead
    obtain ⟨hz, hentries⟩ := List.forall_mem_cons.1 hentries
    obtain ⟨hz', hentries'⟩ := List.forall_mem_cons.1 hentries'
    exact ih htail hentries hentries' (computeNext_ready ready hz).1
      (computeNext_ready ready' hz').1
      (computeNext_similar inlines ready ready' hz hz' similar)

/-- The expressions are at the same places. -/
lemma places_of_inlines (inlines : raw.Inlines raw') :
    raw'.expressions.map Prod.fst = raw.expressions.map Prod.fst := by
  refine Grid.expressions_map_fst_congr fun z => ⟨?_, ?_⟩
  · rintro ⟨source', hz'⟩
    obtain ⟨_, source, hz, -⟩ := inlines.holds_iff.2 ⟨_, .of_eq hz'⟩
    exact ⟨source, hz⟩
  · rintro ⟨source, hz⟩
    obtain ⟨_, source', hz', -⟩ := inlines.holds_iff.1 ⟨_, .of_eq hz⟩
    exact ⟨source', hz'⟩

/-- The plain cells are the same. -/
lemma plain_of_inlines (inlines : raw.Inlines raw') : raw'.plain = raw.plain := by
  refine Grid.ext_getElem? fun z => ?_
  by_cases hz : ∃ e, Holds raw z e
  · obtain ⟨e', hz'⟩ := inlines.holds_iff.1 hz
    obtain ⟨e, hz⟩ := hz
    rw [getElem?_plain_of_holds hz, getElem?_plain_of_holds hz']
  · rw [Grid.getElem?_plain, Grid.getElem?_plain, inlines.other z (not_exists.1 hz)]

/-- With values in place of references, a pass has the same results and the same tally. -/
theorem compute_of_inlines (inlines : t.raw.Inlines t'.raw) :
    t'.compute.2.computed = t.compute.2.computed ∧ t'.compute.1 = t.compute.1 := by
  have similar : Similar t.raw (computeAll t.raw) (computeAll t'.raw) :=
    foldl_computeNext_similar inlines (places_of_inlines inlines) (fun _ => Grid.mem_expressions.1)
      (fun _ => Grid.mem_expressions.1) ready_plain ready_plain
        ⟨rfl, fun _ _ => by rw [plain_of_inlines inlines]⟩
  have same : t'.compute.2.computed = t.compute.2.computed := by
    refine Grid.ext_getElem? fun z => ?_
    by_cases valueless : Valueless t.raw z
    · rw [computed_compute, computed_compute]
      exact similar.memo z valueless
    · obtain ⟨value, justified⟩ := not_valueless_iff.1 valueless
      rw [computed_of_justified justified,
        computed_of_justified (justified.inline inlines rfl .reference)]
  refine ⟨same, ?_⟩
  rw [tally_compute_expressions, tally_compute_expressions, places_of_inlines inlines,
    plain_of_inlines inlines, same]

/-- Let a lexeme in the expression of `x` refer to a cell for which a pass has a number that is not
negative. With the digits of the number in its place, and otherwise the same normal form, a pass has
the same results and the same tally. -/
theorem compute_with_value (t : Table) (x z : Address) (source lexeme : String)
    (before after : List String)
    (value : Int64) (n : Nat) (hx : t.raw[x]? = some (.expression source))
    (split : tokenize (normalize source) = before ++ lexeme :: after)
    (hc : Token.classify lexeme = .ok (.reference z))
    (hz : t.compute.2.computed[z]? = some (.number value)) (hn : value.toInt = n) :
    normalize source = String.join (before ++ lexeme :: after) ∧
    let t' : Table :=
      { t with raw := t.raw.insert x (.expression (String.join (before ++ toString n :: after))) }
    t'.compute.2.computed = t.compute.2.computed ∧ t'.compute.1 = t.compute.1 := by
  refine ⟨split ▸ (join_tokenize _).symm, compute_of_inlines (.insert hx ?_)⟩
  have run : IsRun lexeme.toList := isRun_of_classify hc
  rw [tokenize_normalize_join split run (isNumeral_toString n), split]
  simp only [List.reverse_append, List.reverse_cons, List.append_assoc, List.singleton_append]
  refine .replace (.inr ⟨z, value, hc, justified_of_computed hz, classify_toString hn⟩)
    fun symbol hsymbol => ?_
  cases after with
  | nil => simp at hsymbol
  | cons next after =>
    obtain rfl : next = symbol := by simpa using hsymbol
    exact operator_of_run split run

/-- In the knotted row, the first cell refers to the number of the fourth one, and lies on a cycle.
-/
theorem compute_with_value_knottedRow :
    knottedRow.raw[(⟨0, 0⟩ : Address)]? = some (.expression "b1+d1") ∧
    tokenize (normalize "b1+d1") = ["B1", "+"] ++ "D1" :: [] ∧
    Token.classify "D1" = .ok (.reference ⟨0, 3⟩) ∧
    knottedRow.compute.2.computed[(⟨0, 3⟩ : Address)]? = some (.number 7) ∧
    let t' : Table := { knottedRow with raw := knottedRow.raw.insert ⟨0, 0⟩ (.expression "B1+7") }
    t'.compute.2.computed = knottedRow.compute.2.computed ∧
      t'.compute.1 = knottedRow.compute.1 := by
  have hx : knottedRow.raw[(⟨0, 0⟩ : Address)]? = some (.expression "b1+d1") := rfl
  have split : tokenize (normalize "b1+d1") = ["B1", "+"] ++ "D1" :: [] := by decide
  have hz : knottedRow.compute.2.computed[(⟨0, 3⟩ : Address)]? = some (.number 7) := by
    decide +kernel
  have joined : String.join (["B1", "+"] ++ toString 7 :: []) = "B1+7" := by decide
  obtain ⟨-, same⟩ := compute_with_value knottedRow ⟨0, 0⟩ ⟨0, 3⟩ "b1+d1" "D1" ["B1", "+"]
      [] 7 7 hx split rfl hz rfl
  rw [joined] at same
  exact ⟨hx, split, rfl, hz, same⟩

end TableCalc.Table
