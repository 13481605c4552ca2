import TableCalc.Proofs.Text.Ascii
import TableCalc.Text.Blank
import TableCalc.Text.Uppercase

/-!
# Upper case is final

The upper case of a character consists of characters that are their own upper case
(`uppercase_of_mem_uppercase`), and there is no white space among them unless the character was one
(`isBlank_of_mem_uppercase`). Both are matters of the tables alone: no run of code points that they
lead to meets a run of code points that they change, or of white space. It is enough to compare the
ends of two runs, and where they overlap, whether one has the even code points and the other the odd
ones. The tables lead to letters and marks only, so nothing below `A` is brought in
(`eq_or_le_of_mem_uppercase`).
-/

namespace TableCalc.Text

namespace CaseRun

/-- The run of one code point that is its own upper case. -/
def single (n : Nat) : CaseRun := ⟨n, n, 1, n⟩

/-- The upper case of the last code point of the run. -/
def lastImage (r : CaseRun) : Nat := r.target + (r.last - r.first)

/-- The images of `r` lie apart from the code points of `q`. -/
def avoids (r q : CaseRun) : Bool :=
  Nat.blt q.last r.target || Nat.blt r.lastImage q.first ||
    ((Nat.beq r.step 2 || Nat.beq r.first r.last) && Nat.beq q.step 2 && !Nat.beq (r.target % 2)
      (q.first % 2))

/-- A run covers the code points at its steps. -/
lemma covers_iff {r : CaseRun} {n : Nat} :
    r.covers n = true ↔ r.first ≤ n ∧ n ≤ r.last ∧ (n - r.first) % r.step = 0 := by
  simp [covers, and_assoc]

/-- The run of one code point covers this one. -/
lemma covers_single {n : Nat} : (single n).covers n = true := by
  simp [covers, single]

/-- The run of one code point leaves it as it is. -/
lemma image_single {n : Nat} : (single n).image n = n := by
  simp [image, single]

/-- Upper cases lie between those of the first and of the last code point. -/
lemma image_le {r : CaseRun} {n : Nat} (h : r.covers n = true) :
    r.target ≤ r.image n ∧ r.image n ≤ r.lastImage := by
  obtain ⟨first, last, -⟩ := covers_iff.1 h
  simp only [image, lastImage]
  omega

/-- The upper cases of a run are in no run that it avoids. -/
lemma not_covers_image {r q : CaseRun} {n : Nat} (apart : r.avoids q = true)
    (h : r.covers n = true) :
    q.covers (r.image n) = false := by
  rw [Bool.eq_false_iff]
  intro hq
  obtain ⟨qfirst, qlast, qstep⟩ := covers_iff.1 hq
  obtain ⟨lower, upper⟩ := image_le h
  simp only [avoids, Bool.or_eq_true, Bool.and_eq_true, Bool.not_eq_true', Nat.blt_eq, Nat.beq_eq,
    ← Bool.not_eq_true] at apart
  rcases apart with (before | after) | ⟨⟨even, step⟩, parity⟩
  · omega
  · omega
  · -- both go in steps of two, so the image has the parity of both ends
    obtain ⟨first, last, hstep⟩ := covers_iff.1 h
    simp only [image, step] at *
    rcases even with even | even
    · rw [even] at hstep
      omega
    · omega

end CaseRun

/-- The code points that have another upper case. -/
def changing : List CaseRun := caseRuns ++ caseExpansions.map fun e => .single e.1

/-- White space as runs of code points. -/
def blankRuns : List CaseRun := blankRanges.map fun r => ⟨r.1, r.2, 1, r.1⟩

/-- The runs whose images are the code points that upper cases consist of. -/
def upperRuns : List CaseRun := caseRuns ++ caseExpansions.flatMap fun e => e.2.map .single

/-- Upper cases avoid the code points that change, and white space. -/
lemma avoids_of_mem {r q : CaseRun} (hr : r ∈ upperRuns) (hq : q ∈ changing ++ blankRuns) :
    r.avoids q = true := by
  have all : (upperRuns.all fun r => (changing ++ blankRuns).all r.avoids) = true := by
    decide +kernel
  exact List.all_eq_true.1 (List.all_eq_true.1 all r hr) q hq

/-- Surrogates are no characters, and no upper case. -/
lemma isValidChar_image {r : CaseRun} {n : Nat} (hr : r ∈ upperRuns) (h : r.covers n = true) :
    (r.image n).isValidChar := by
  have all : (upperRuns.all fun r => Nat.blt r.lastImage 0xD800 ||
      (Nat.blt 0xDFFF r.target && Nat.blt r.lastImage 0x110000)) = true := by decide +kernel
  have := List.all_eq_true.1 all r hr
  simp only [Bool.or_eq_true, Bool.and_eq_true, Nat.blt_eq] at this
  obtain ⟨lower, upper⟩ := CaseRun.image_le h
  rw [Nat.isValidChar]
  omega

/-- A code point in none of the tables is its own upper case. -/
lemma upperCodes_of_not_covers {n : Nat} (h : ∀ q ∈ changing, q.covers n = false) :
    upperCodes n = [n] := by
  have runs : caseRuns.find? (·.covers n) = none :=
    List.find?_eq_none.2 fun q hq => by simp [h q (List.mem_append_left _ hq)]
  have expansions : caseExpansions.lookup n = none := by
    refine List.lookup_eq_none_iff.2 fun e he => ?_
    have := h (.single e.1) (List.mem_append_right _ (List.mem_map_of_mem he))
    rw [bne_iff_ne]
    rintro rfl
    simp [CaseRun.covers_single] at this
  rw [upperCodes, expansions, runs]

/-- A code point is kept if it is its own upper case, and otherwise is replaced by an image. -/
lemma mem_upperCodes {n m : Nat} (h : m ∈ upperCodes n) :
    m = n ∧ upperCodes n = [n] ∨ ∃ r ∈ upperRuns, ∃ k, r.covers k = true ∧ m = r.image k := by
  unfold upperCodes at h ⊢
  split at h
  case h_1 codes hcodes =>
    obtain ⟨l₁, l₂, split, -⟩ := List.lookup_eq_some_iff.1 hcodes
    have he : (n, codes) ∈ caseExpansions := by simp [split]
    refine .inr ⟨.single m, ?_, m, CaseRun.covers_single, CaseRun.image_single.symm⟩
    exact List.mem_append_right _ (List.mem_flatMap.2 ⟨_, he, List.mem_map_of_mem h⟩)
  case h_2 _ =>
    split at h
    case h_1 r hr =>
      refine .inr ⟨r, List.mem_append_left _ (List.mem_of_find?_eq_some hr), n, ?_,
        List.mem_singleton.1 h⟩
      simpa using List.find?_some hr
    case h_2 _ => exact .inl ⟨List.mem_singleton.1 h, rfl⟩

/-- White space is what the ranges of white space cover. -/
lemma isBlank_eq_any {c : Char} : isBlank c = blankRuns.any (·.covers c.toNat) := by
  simp [isBlank, blankRuns, CaseRun.covers, List.any_map, Function.comp_def, Nat.mod_one]

/-- A valid code point is that of its character. -/
lemma toNat_ofNat {n : Nat} (h : n.isValidChar) : (Char.ofNat n).toNat = n := by
  rw [Char.ofNat, dif_pos h]
  rfl

/-- A character of an upper case is one that was there before, or it is clear of what changes and of
white space. -/
lemma mem_uppercase {c d : Char} (h : d ∈ uppercase c) :
    d = c ∧ uppercase c = [c] ∨ ∀ q ∈ changing ++ blankRuns, q.covers d.toNat = false := by
  obtain ⟨m, hm, rfl⟩ := List.mem_map.1 h
  rcases mem_upperCodes hm with ⟨rfl, own⟩ | ⟨r, hr, k, hk, rfl⟩
  · exact .inl ⟨Char.ofNat_toNat c, by simp [uppercase, own]⟩
  · have valid := isValidChar_image hr hk
    refine .inr fun q hq => ?_
    rw [toNat_ofNat valid]
    exact CaseRun.not_covers_image (avoids_of_mem hr hq) hk

/-- An upper case is its own upper case. -/
theorem uppercase_of_mem_uppercase {c d : Char} (h : d ∈ uppercase c) : uppercase d = [d] := by
  rcases mem_uppercase h with ⟨rfl, own⟩ | clear
  · exact own
  · simp [uppercase, upperCodes_of_not_covers fun q hq => clear q (List.mem_append_left _ hq)]

/-- The upper case of a character that is no white space is none. -/
theorem isBlank_of_mem_uppercase {c d : Char} (h : d ∈ uppercase c) (hc : isBlank c = false) :
    isBlank d = false := by
  rcases mem_uppercase h with ⟨rfl, -⟩ | clear
  · exact hc
  · rw [isBlank_eq_any, List.any_eq_false]
    exact fun q hq => by simp [clear q (List.mem_append_right _ hq)]

/-- No character below `A` is brought in. -/
theorem eq_or_le_of_mem_uppercase {c d : Char} (h : d ∈ uppercase c) : d = c ∨ 65 ≤ d.toNat := by
  have all : (upperRuns.all fun r => Nat.ble 65 r.target) = true := by decide +kernel
  obtain ⟨m, hm, rfl⟩ := List.mem_map.1 h
  rcases mem_upperCodes hm with ⟨rfl, -⟩ | ⟨r, hr, k, hk, rfl⟩
  · exact .inl (Char.ofNat_toNat c)
  · rw [toNat_ofNat (isValidChar_image hr hk)]
    have target : 65 ≤ r.target := Nat.le_of_ble_eq_true (List.all_eq_true.1 all r hr)
    exact .inr (Nat.le_trans target (CaseRun.image_le hk).1)

/-- A small ASCII letter has its capital as its upper case. -/
lemma uppercase_of_isLower {c : Char} (h : c.isLower = true) :
    isBlank c = false ∧ isBlank c.toUpper = false ∧ c.toUpper ≠ c ∧ uppercase c = [c.toUpper] := by
  have all : ∀ i : Fin 26, isBlank (Char.ofNat (97 + i)) = false ∧
      isBlank (Char.ofNat (97 + i)).toUpper = false ∧
      (Char.ofNat (97 + i)).toUpper ≠ Char.ofNat (97 + i) ∧
      uppercase (Char.ofNat (97 + i)) = [(Char.ofNat (97 + i)).toUpper] := by
    decide +kernel
  have bounds := isLower_iff_toNat.1 h
  have := all ⟨c.toNat - 97, by omega⟩
  rwa [show 97 + (c.toNat - 97) = c.toNat by omega, Char.ofNat_toNat] at this

/-- A letter in upper case is white space no more than before. -/
lemma isBlank_toUpper (c : Char) : isBlank c.toUpper = isBlank c := by
  cases h : c.isLower with
  | false => rw [toUpper_of_not_isLower h]
  | true =>
    obtain ⟨blank, blank', -⟩ := uppercase_of_isLower h
    rw [blank, blank']

/-- An ASCII letter may be put in upper case before. -/
lemma uppercase_toUpper (c : Char) : uppercase c.toUpper = uppercase c := by
  cases h : c.isLower with
  | false => rw [toUpper_of_not_isLower h]
  | true =>
    obtain ⟨-, -, -, upper⟩ := uppercase_of_isLower h
    rw [upper]
    exact uppercase_of_mem_uppercase (upper ▸ List.mem_singleton_self _)

end TableCalc.Text
