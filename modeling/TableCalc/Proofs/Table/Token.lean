import TableCalc.Proofs.Table.Reader

/-!
# Cells put into a table by their tokens

The token of a cell puts that cell at its place. Nothing is lost on the way from a cell to its token
and back, nor on the way from a token to its cell and back, but for the zeros in front of a number
(`cell_token_roundtrip`).
-/

namespace TableCalc.Table

/-- A token puts the cell that it stands for at a place inside the table. -/
lemma setCell_of_parse {t : Table} {row col : Nat} {token : String} {cell : Cell}
    (inside : row < t.height ∧ col < t.width) (h : Cell.parse token = .ok cell) :
    (setCell row col (some token)).run.run t =
      (.ok (), { t with raw := t.raw.insert ⟨row, col⟩ cell }) := by
  obtain ⟨hne, hnull⟩ := Cell.ne_of_parse h
  rw [Reader.run_setCell_of_ne inside hne hnull, h]

/-- A cell that is no negative number is what its token stands for, at any place of a table. The
other way round, the token of a cell is the one that it was read from, up to zeros in front of a
number. A token is no cell exactly if it has no mark and is not a numeral in range; and the numerals
in range are the same in expressions. -/
theorem cell_token_roundtrip :
    (∀ cell : Cell, (∀ value, cell = .number value → 0 ≤ value.toInt) →
      Cell.parse cell.token = .ok cell ∧
      ∀ (t : Table) (row col : Nat), row < t.height ∧ col < t.width →
        (setCell row col (some cell.token)).run.run t =
          (.ok (), { t with raw := t.raw.insert ⟨row, col⟩ cell })) ∧
    (∀ (token : String) (cell : Cell), Cell.parse token = .ok cell →
      cell.token = match cell with
        | .number _ => String.ofList (Text.withoutZeros token.toList)
        | _ => token) ∧
    (∀ (token : String) (e : TableError), Cell.parse token = .error e ↔
      e = .unknownFormat token ∧ (∀ mark ∈ ['\'', '=', '#'], token.toList.head? ≠ some mark) ∧
      ¬ (Text.IsNumeral token.toList ∧ Nat.ofDigitChars 10 token.toList 0 ≤ 9223372036854775807)) ∧
    ∀ digits : String, Text.IsNumeral digits.toList →
      (∀ value, Cell.parse digits = .ok (.number value) ↔
        Token.classify digits = .ok (.number value)) ∧
      ((∃ e, Cell.parse digits = .error e) ↔
        Token.classify digits = .error (.numberOutOfRange digits)) := by
  refine ⟨fun cell h => ?_, fun _ _ => Cell.token_of_parse, fun token e => ?_,
    fun _ => Cell.parse_iff_classify⟩
  · have read := Cell.parse_token h
    exact ⟨read, fun t row col inside => setCell_of_parse inside read⟩
  · rw [Cell.parse_eq_error_iff, Text.int64?_eq_none_iff]

/-- The largest number, with zeros in front; a text that starts with a mark; and the least numeral
that is no number. -/
theorem cell_token_roundtrip_limit :
    let largest : Cell := .number 9223372036854775807
    Cell.parse "009223372036854775807" = .ok largest ∧ largest.token = "9223372036854775807" ∧
    Cell.parse largest.token = .ok largest ∧
    Cell.parse (Cell.text "'=#").token = .ok (.text "'=#") ∧
    Text.IsNumeral "9223372036854775808".toList ∧
    Cell.parse "9223372036854775808" = .error (.unknownFormat "9223372036854775808") ∧
    Token.classify "9223372036854775808" = .error (.numberOutOfRange "9223372036854775808") := by
  obtain ⟨toCell, toToken, -, agree⟩ := cell_token_roundtrip
  have read : Cell.parse "009223372036854775807" = .ok (.number 9223372036854775807) := by rfl
  have numeral : Text.IsNumeral "9223372036854775808".toList := by decide
  have beyond :
      Cell.parse "9223372036854775808" = .error (.unknownFormat "9223372036854775808") := by rfl
  refine ⟨read, toToken _ _ read, (toCell _ ?_).1, (toCell _ ?_).1, numeral, beyond,
    (agree _ numeral).2.1 ⟨_, beyond⟩⟩
  · rintro _ ⟨⟩
    decide
  · rintro _ ⟨⟩

end TableCalc.Table
