import TableCalc.Proofs.Expression.Lexeme

/-!
# Normal forms of lexemes

A text can be brought to its normal form before it is cut or piece by piece afterwards
(`lexemes_normalizeChars`). For operators are their own normal form, and no other character turns
into one; so a lexeme between operators remains one, or nothing is left of it, and then there is an
operator on either side.

The spelling of a text does not matter to its normal form (`Respelled.normalize_eq`).
-/

namespace TableCalc.Expression

/-- The second text is the first one with white space put in anywhere and ASCII letters in either
case. -/
inductive Respelled : List Char → List Char → Prop where
  | nil :
    Respelled [] []
  | blank {c : Char} {cs ds : List Char} :
    Text.isBlank c = true →
    Respelled cs ds →
    Respelled cs (c :: ds)
  | char {c d : Char} {cs ds : List Char} :
    d.toUpper = c.toUpper →
    Respelled cs ds →
    Respelled (c :: cs) (d :: ds)

variable {cs ds : List Char} {c d : Char}

/-- A text is normalized piece by piece. -/
lemma normalizeChars_append :
    normalizeChars (cs ++ ds) = normalizeChars cs ++ normalizeChars ds := by
  rw [normalizeChars, List.filter_append, List.flatMap_append]
  rfl

/-- A text is normalized lexeme by lexeme. -/
lemma normalizeChars_flatten (ls : List (List Char)) :
    normalizeChars ls.flatten = (ls.map normalizeChars).flatten := by
  induction ls with
  | nil => rfl
  | cons l ls ih =>
    rw [List.flatten_cons, normalizeChars_append, ih, List.map_cons, List.flatten_cons]

/-- What is normalized stays as it is. -/
lemma normalizeChars_idem : normalizeChars (normalizeChars cs) = normalizeChars cs :=
  normalizeChars_eq_self (isNormal_normalizeChars cs)

/-- An operator is no white space and its own upper case. -/
lemma operator_isNormal (hc : Operator.isSymbol c = true) :
    c.toNat < 65 ∧ Text.isBlank c = false ∧ Text.uppercase c = [c] := by
  obtain ⟨op, hop⟩ := Option.isSome_iff_exists.1 hc
  obtain rfl := Operator.ofSymbol?_eq_some_iff.1 hop
  cases op <;> decide

/-- An operator is in normal form. -/
lemma normalizeChars_operator (hc : Operator.isSymbol c = true) : normalizeChars [c] = [c] :=
  normalizeChars_eq_self (List.forall_mem_singleton.2 (operator_isNormal hc).2)

/-- No operator comes into a normal form that was not there before. -/
lemma isSymbol_of_mem_normalizeChars (hcs : ∀ c ∈ cs, Operator.isSymbol c = false) :
    ∀ d ∈ normalizeChars cs, Operator.isSymbol d = false := by
  intro d hd
  obtain ⟨c, hc, hd⟩ := List.mem_flatMap.1 hd
  have symbol := hcs c (List.mem_filter.1 hc).1
  rcases Text.eq_or_le_of_mem_uppercase hd with rfl | high
  · exact symbol
  · rw [← Bool.not_eq_true]
    intro hsymbol
    have := (operator_isNormal hsymbol).1
    omega

/-- A cut remains a cut if its pieces are brought to their normal forms and the empty ones are
dropped. -/
lemma Cut.normalize {ls} (h : Cut ls) : Cut ((ls.map normalizeChars).filter (!·.isEmpty)) := by
  induction h with
  | nil => exact .nil
  | operator hc _ ih =>
    rw [List.map_cons, normalizeChars_operator hc, List.filter_cons_of_pos (by simp)]
    exact .operator hc ih
  | @run cs rest hrun next _ ih =>
    rw [List.map_cons]
    by_cases left : normalizeChars cs = []
    · rw [List.filter_cons_of_neg (by simp [left])]
      exact ih
    · rw [List.filter_cons_of_pos (by simp [left])]
      refine .run ⟨left, isSymbol_of_mem_normalizeChars hrun.2⟩ (fun other hother => ?_) ih
      -- the operator behind the run is kept, so it still is the next piece
      cases rest with
      | nil => cases hother
      | cons l rest =>
        obtain ⟨c, hc, rfl⟩ := next l (by simp)
        rw [List.map_cons, normalizeChars_operator hc, List.filter_cons_of_pos (by simp)] at hother
        cases hother
        exact ⟨c, hc, rfl⟩

/-- The lexemes of a normal form are the normal forms of the lexemes, but for those of which nothing
is left. -/
theorem lexemes_normalizeChars (cs : List Char) :
    lexemes (normalizeChars cs) = ((lexemes cs).map normalizeChars).filter (!·.isEmpty) := by
  obtain ⟨cut, flatten⟩ := cut_lexemes cs
  refine lexemes_eq_iff.2 ⟨cut.normalize, ?_⟩
  rw [List.flatten_filter_not_isEmpty, ← normalizeChars_flatten, flatten]

/-- The lexemes of a normalized text are the normalized lexemes, without those that are gone. -/
lemma tokenize_normalize (s : String) :
    tokenize (normalize s) = ((tokenize s).map normalize).filter (· ≠ "") := by
  have left : (fun token => decide (token ≠ "")) ∘ String.ofList = (!·.isEmpty) := by
    funext cs
    cases cs <;> simp
  have piece : normalize ∘ String.ofList = String.ofList ∘ normalizeChars := by
    funext cs
    rw [Function.comp_apply, normalize, String.toList_ofList, Function.comp_apply]
  calc tokenize (normalize s)
    _ = (((lexemes s.toList).map normalizeChars).filter (!·.isEmpty)).map String.ofList := by
      rw [tokenize, normalize, String.toList_ofList, lexemes_normalizeChars]
    _ = (((lexemes s.toList).map normalizeChars).map String.ofList).filter (· ≠ "") := by
      rw [← left, ← List.filter_map]
    _ = ((tokenize s).map normalize).filter (· ≠ "") := by
      rw [tokenize, List.map_map, List.map_map, piece]

/-- A text is normalized piece by piece. -/
lemma normalize_append (s t : String) : normalize (s ++ t) = normalize s ++ normalize t := by
  rw [normalize, String.toList_append, normalizeChars_append, String.ofList_append]
  rfl

/-- What is normalized stays as it is. -/
lemma normalize_idem (s : String) : normalize (normalize s) = normalize s := by
  rw [normalize, normalize, String.toList_ofList, normalizeChars_idem]

/-- There is neither white space nor a small ASCII letter in a normal form. -/
lemma clear_of_mem_normalize {s : String} (h : c ∈ (normalize s).toList) :
    Text.isBlank c = false ∧ c.isLower = false := by
  rw [normalize, String.toList_ofList] at h
  obtain ⟨blank, own⟩ := isNormal_normalizeChars _ c h
  refine ⟨blank, Bool.eq_false_iff.2 fun lower => ?_⟩
  obtain ⟨-, -, changed, upper⟩ := Text.uppercase_of_isLower lower
  rw [own] at upper
  exact changed (List.singleton_inj.1 upper).symm

/-- White space is dropped. -/
lemma normalizeChars_blank (hc : Text.isBlank c = true) : normalizeChars [c] = [] := by
  simp [normalizeChars, hc]

/-- An ASCII letter may be put in upper case before. -/
lemma normalizeChars_toUpper (c : Char) : normalizeChars [c.toUpper] = normalizeChars [c] := by
  unfold normalizeChars
  rw [List.filter_cons, List.filter_cons, Text.isBlank_toUpper]
  split
  · rw [List.filter_nil, List.flatMap_singleton, List.flatMap_singleton, Text.uppercase_toUpper]
  · rfl

/-- A text is a spelling of itself. -/
lemma Respelled.refl (cs : List Char) : Respelled cs cs := by
  induction cs with
  | nil => exact .nil
  | cons c cs ih => exact .char rfl ih

/-- Other spellings have the same normal form. -/
lemma Respelled.normalizeChars_eq (h : Respelled cs ds) :
    normalizeChars ds = normalizeChars cs := by
  induction h with
  | nil => rfl
  | @blank c cs ds hc _ ih =>
    rw [← List.singleton_append, normalizeChars_append, normalizeChars_blank hc, ih,
      List.nil_append]
  | @char c d cs ds same _ ih =>
    rw [← List.singleton_append, normalizeChars_append, ← normalizeChars_toUpper, same,
      normalizeChars_toUpper, ih,
      ← normalizeChars_append, List.singleton_append]

/-- Other spellings of a text have the same normal form. -/
lemma Respelled.normalize_eq {s s' : String} (h : Respelled s.toList s'.toList) :
    normalize s' = normalize s := by
  rw [normalize, h.normalizeChars_eq, normalize]

end TableCalc.Expression
