import TableCalc.Document
import TableCalc.Proofs.Evaluation.Quote
import TableCalc.Proofs.Table.Layout
import TableCalc.Proofs.Table.Reader
import TableCalc.Proofs.Table.Tally

/-!
# What a document shows

The cells of a text are words, so there is no white space in the plain ones, and a pass adds nothing
to a table but numbers and messages. Of all white space, then, only the space is ever shown of a
document (`spaced_display`). A delimiter that begins with any other white space, as the usual one
does, stands in no shown cell, and what such a layout writes can be read back
(`readBack?_render_of_ofText`).
-/

namespace TableCalc

namespace Cell

/-- A number is shown without white space. -/
lemma unblank_toString (n : Int) : Text.Unblank (toString n).toList := by
  cases n with
  | ofNat n => exact Expression.toList_toString n ▸ Text.unblank_toDigits n
  | negSucc n =>
    show Text.Unblank ("-" ++ toString (n + 1)).toList
    rw [String.toList_append, Expression.toList_toString]
    exact .append (by decide) (Text.unblank_toDigits _)

/-- With its mark in front, a message has no other white space than before. -/
lemma spaced_render_error {message : String} (h : Text.Spaced message.toList) :
    Text.Spaced (Cell.error message).render.toList := by
  rw [render, String.toList_append]
  exact .append (by decide) h

/-- The outcome of an expression without white space is shown with blanks only. -/
lemma spaced_render_ofOutcome {outcome : Except EvalError Int64}
    (h : ∀ e, outcome = .error e → Text.Unblank e.quoted.toList) :
    Text.Spaced (ofOutcome outcome).render.toList := by
  cases outcome with
  | ok value => exact (unblank_toString _).spaced
  | error e => exact spaced_render_error (EvalError.spaced_message (h e rfl))

/-- The cell of a token shows no white space but that of the token. -/
lemma spaced_render_of_parse {token : String} {cell : Cell} (hparse : parse token = .ok cell)
    (h : Text.Unblank token.toList) : Text.Spaced cell.render.toList := by
  revert hparse
  fun_cases parse token with
  | case1 content htoken | case2 source htoken =>
    rintro ⟨⟩
    rw [htoken] at h
    rw [render, String.toList_ofList]
    exact Text.Unblank.spaced fun c hc => h c (List.mem_cons_of_mem _ hc)
  | case3 message htoken =>
    rintro ⟨⟩
    rw [htoken] at h
    refine spaced_render_error (Text.Unblank.spaced fun c hc => h c (List.mem_cons_of_mem _ ?_))
    rwa [String.toList_ofList] at hc
  | case4 =>
    rintro ⟨⟩
    exact (unblank_toString _).spaced
  | case5 => rintro ⟨⟩

end Cell

/-- The cells of a text show no white space but spaces. -/
lemma Reader.HasCells.spaced_render {text : String} {height width : Nat} {t : Table} {a : Address}
    {cell : Cell}
    (h : HasCells text height width t) (ha : t.raw[a]? = some cell) :
    Text.Spaced cell.render.toList := by
  rw [h.raw] at ha
  split at ha
  case isFalse _ => cases ha
  case isTrue _ =>
    obtain ⟨tokens, htokens, ha⟩ := Option.bind_eq_some_iff.1 ha
    obtain ⟨token, htoken, ha⟩ := Option.bind_eq_some_iff.1 ha
    obtain ⟨line, -, rfl⟩ := Option.map_eq_some_iff.1 htokens
    obtain ⟨word, hword, rfl⟩ := List.mem_map.1 (List.mem_of_getElem? htoken)
    have unblank : Text.Unblank (String.ofList word).toList := by
      rw [String.toList_ofList]
      exact Text.unblank_of_mem_words hword
    cases hparse : Cell.parse (String.ofList word) with
    | error e => simp [hparse, Except.toOption] at ha
    | ok cell' =>
      simp only [hparse, Except.toOption, Option.some.injEq] at ha
      exact Cell.spaced_render_of_parse (ha ▸ hparse) unblank

namespace Table
open Evaluation

variable {t : Table}

/-- If the raw cells show no white space but spaces, the computed ones show no other either. -/
lemma spaced_render_computed
    (h : ∀ (a : Address) cell, t.raw[a]? = some cell → Text.Spaced cell.render.toList)
    {a : Address} {cell : Cell} (ha : t.compute.2.computed[a]? = some cell) :
    Text.Spaced cell.render.toList := by
  have hmem : a ∈ t.compute.2.computed := Grid.isSome_getElem?_iff_mem.1 (by simp [ha])
  obtain ⟨given, hgiven⟩ :=
    Option.isSome_iff_exists.1 (Grid.isSome_getElem?_iff_mem.2 (mem_computed.1 hmem))
  cases hsource : given.source? with
  | none =>
    have plain : given.isExpression = false := by simp [Cell.isExpression, hsource]
    cases ha.symm.trans (getElem?_computed_of_plain hgiven plain)
    exact h a cell hgiven
  | some source =>
    have hz : Holds t.raw a (Expression.normalize source) :=
      .of_eq (by cases given <;> simp_all [Cell.source?])
    obtain ⟨outcome, justified, hcell⟩ := exists_computed hz
    cases ha.symm.trans hcell
    exact Cell.spaced_render_ofOutcome fun e =>
      justified.unblank_quoted (Expression.unblank_normalize source)

/-- If computed cells are shown with blanks only, then so are all places of a table. -/
lemma spaced_display
    (h : ∀ (a : Address) cell, t.computed[a]? = some cell → Text.Spaced cell.render.toList)
    (row col : Nat) : Text.Spaced (t.display row col).toList := by
  unfold display
  cases ha : t.computed[Address.mk row col]? with
  | none => decide
  | some cell => exact h _ cell ha

end Table

namespace Document

/-- The table of a document that a text holds. -/
lemma ofText_eq_ok {text : String} {d : Document} (h : (ofText text).result = .ok d) :
    (Table.ofText text).result = .ok d.table := by
  unfold ofText at h
  cases hread : (Table.ofText text).result with
  | error e => simp [hread, Except.map, Except.mapError] at h
  | ok t =>
    simp only [hread, Except.map, Except.mapError, Except.ok.injEq] at h
    rw [← h]

/-- A document shows no white space but spaces once it is computed. -/
lemma spaced_display {text : String} {d : Document} (h : (ofText text).result = .ok d)
    (row col : Nat) :
    Text.Spaced (d.compute.2.table.display row col).toList := by
  obtain ⟨height, width, hasCells⟩ := Reader.hasCells_of_ofText (ofText_eq_ok h)
  exact Table.spaced_display
    (fun _ _ => Table.spaced_render_computed fun _ _ => hasCells.spaced_render) row col

/-- A table is read back from its text, and nothing is left, if the first character of the delimiter
stands in no shown cell. A document shows no white space but spaces once it is computed, so any
delimiter that begins with other white space will do. -/
theorem readBack?_render_of_ofText :
    (∀ (l : Layout) (t : Table) c, l.delimiter.toList.head? = some c →
      (∀ row < t.height, ∀ col < t.width, c ∉ (t.display row col).toList) →
      l.readBack? t.height t.width (l.render t) = some (t.displayGrid, "")) ∧
    ∀ text d, (ofText text).result = .ok d →
      (∀ row col, ∀ c ∈ (d.compute.2.table.display row col).toList,
        Text.isBlank c = true → c = ' ') ∧
      ∀ (l : Layout) c, l.delimiter.toList.head? = some c → Text.isBlank c = true → c ≠ ' ' →
        l.readBack? d.table.height d.table.width (d.compute.2.render l) =
          some (d.compute.2.table.displayGrid, "") := by
  refine ⟨fun l t c => Layout.readBack?_render, fun text d h => ⟨spaced_display h, ?_⟩⟩
  intro l c hc blank hne
  have clear : ∀ row col, c ∉ (d.compute.2.table.display row col).toList :=
    fun row col hmem => hne (spaced_display h row col c hmem blank)
  exact Layout.readBack?_render hc fun row _ col _ => clear row col

/-- A row whose first cell refers to the text in the second one. -/
def textRow : Document where
  table :=
    { width := 2
      height := 1
      raw := (∅ : Grid).insert ⟨0, 0⟩ (.expression "B1") |>.insert ⟨0, 1⟩ (.text "x") }

/-- There are spaces in the first cell, and the usual layout is read back all the same. -/
theorem readBack?_render_of_ofText_textRow :
    (ofText "1 2\n=B1 'x\n").result = .ok textRow ∧
      textRow.compute.2.render {} = "\r\n#Can't use text in expression! Cell B1\tx\t\r\n" ∧
      ({} : Layout).readBack? 1 2 (textRow.compute.2.render {}) =
        some ([["#Can't use text in expression! Cell B1", "x"]], "") := by
  have h : (ofText "1 2\n=B1 'x\n").result = .ok textRow := by rfl
  have shown : textRow.compute.2.table.displayGrid =
      [["#Can't use text in expression! Cell B1", "x"]] := by
    decide +kernel
  refine ⟨h, by decide +kernel, ?_⟩
  have read := (readBack?_render_of_ofText.2 _ textRow h).2 {} '\t' rfl (by decide) (by decide)
  rwa [shown] at read

end Document

end TableCalc
