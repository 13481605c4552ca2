import TableCalc.Config
import TableCalc.Proofs.Files
import TableCalc.Proofs.Text.Blank

/-!
# Loading a configuration

What is found at the path of a configuration file (`Finds`) says which settings count and what there
is to warn of. Each field of the layout is then decided on its own, by what the command line gives,
by the settings or by default (`Decided`), so a value that is of no use leaves the other fields
alone.

All warnings go to the log as well (`logged_ofFile`), except that a missing file is not logged.
-/

namespace TableCalc

/-- The name of a line ending in a configuration file. -/
def LineEnding.name : LineEnding → String
  | crlf => "crlf"
  | lf => "lf"

namespace Config
open Text

/-- The text is the name of the line ending, in letters of either case and with white space around
it. -/
def Spells (written : String) (ending : LineEnding) : Prop :=
  ∃ before core after, written.toList = before ++ core ++ after ∧ Blank before ∧ Blank after ∧
    core.map Char.toLower = ending.name.toList

/-- A line ending is found by its name, and by nothing else. -/
lemma lineEnding?_eq_some_iff {name : String} {ending : LineEnding} :
    lineEnding? name = some ending ↔ name = ending.name := by
  unfold lineEnding?
  split
  case isTrue h =>
    subst h
    cases ending <;> decide
  case isFalse h =>
    split
    case isTrue h' =>
      subst h'
      cases ending <;> decide
    case isFalse h' => cases ending <;> simp [LineEnding.name, h, h']

/-- White space has no letters that a lower case would change. -/
lemma toLower_of_isBlank {c : Char} (h : isBlank c = true) : c.toLower = c := by
  refine dif_neg fun upper => ?_
  have letter : 65 ≤ c.toNat ∧ c.toNat ≤ 90 := ⟨upper.1, upper.2⟩
  simp only [isBlank, blankRanges, List.any_cons, List.any_nil, Bool.or_eq_true, Bool.and_eq_true,
    decide_eq_true_eq, Bool.false_eq_true, or_false] at h
  omega

/-- A line ending is spelled out by what is compared equal to its name. -/
lemma spells_iff {written : String} {ending : LineEnding} :
    Spells written ending ↔ lineEnding? (lineEndingName written) = some ending := by
  rw [lineEnding?_eq_some_iff, ← String.toList_inj, lineEndingName, String.toList_ofList]
  constructor
  · rintro ⟨before, core, after, split, hbefore, hafter, hname⟩
    -- the letters of the name are no white space, so nothing of it is trimmed off
    have letters : Unblank ending.name.toList := by cases ending <;> decide
    have kept : Unblank core := fun c hc => Bool.eq_false_iff.2 fun blank => by
      have := letters c.toLower (hname ▸ List.mem_map_of_mem hc)
      rw [toLower_of_isBlank blank, blank] at this
      cases this
    have hne : core ≠ [] := by
      rintro rfl
      cases ending <;> cases hname
    rw [split, trim_eq hbefore hafter hne (kept _ (List.head_mem hne))
      (kept _ (List.getLast_mem hne)), hname]
  · intro h
    obtain ⟨before, after, split, hbefore, hafter⟩ := exists_trim written.toList
    exact ⟨before, _, after, split, hbefore, hafter, h⟩

instance (written : String) (ending : LineEnding) : Decidable (Spells written ending) :=
  decidable_of_iff _ spells_iff.symm

/-- What is found at the path of a configuration file. -/
inductive Found where
  | absent
  | directory
  | tooLarge (size : Nat)
  /-- The content is not UTF-8. -/
  | notText
  /-- The text has no settings, for this reason. -/
  | malformed (reason : String)
  | accepted (s : Settings)

/-- What is found if the path is read with this outcome. -/
inductive Finds (parse : String → Except String Settings) :
    Except FileError ByteArray → Found → Prop where
  | absent {cause} :
    cause.isAbsence = true →
    Finds parse (.error cause) .absent
  | directory :
    Finds parse (.error .isADirectory) .directory
  | tooLarge {content} :
    maxSize < content.size →
    Finds parse (.ok content) (.tooLarge content.size)
  | notText {content} :
    content.size ≤ maxSize →
    String.fromUTF8? content = none →
    Finds parse (.ok content) .notText
  | malformed {content text reason} :
    content.size ≤ maxSize →
    String.fromUTF8? content = some text →
    parse text = .error reason →
    Finds parse (.ok content) (.malformed reason)
  | accepted {content text s} :
    content.size ≤ maxSize →
    String.fromUTF8? content = some text →
    parse text = .ok s →
    Finds parse (.ok content) (.accepted s)

/-- The fields that count: without a file that can be used, none is set. -/
def Found.fields : Found → OutputSection
  | accepted s => s.output.getD {}
  | absent | directory | tooLarge _ | notText | malformed _ => {}

/-- One warning for each field that is set to a value of no use. -/
def rejections (s : OutputSection) : List Warning :=
  (if s.delimiter = some "" then [.emptyDelimiter] else []) ++
    (s.lineEnding.toList.filter fun written => ¬ (Spells written .crlf ∨ Spells written .lf)).map
      fun written => .unknownLineEnding (lineEndingName written)

/-- One warning for a file that cannot be used, and for a missing one if the user has named it. -/
def Found.warnings (path : Path) (isNamed : Bool) : Found → List Warning
  | absent => if isNamed then [.missing path] else []
  | directory => [.unreadable path .isADirectory]
  | tooLarge size => [.tooLarge path size]
  | notText => [.unreadable path .notText]
  | malformed reason => [.malformed path reason]
  | accepted s => rejections (s.output.getD {})

/-- The layout has what the command line gives, or else what is set and of use, or else what is
usual, in each field regardless of the other ones. -/
structure Decided (delimiter : Option String) (lf : Bool) (s : OutputSection) (layout : Layout) :
    Prop where
  delimiter_given : ∀ given, delimiter = some given → layout.delimiter = given
  delimiter_set : delimiter = none → ∀ text, s.delimiter = some text → text ≠ "" →
    layout.delimiter = text
  delimiter_usual : delimiter = none → (∀ text, s.delimiter = some text → text = "") →
    layout.delimiter = "\t"
  lineEnding_given : lf = true → layout.lineEnding = .lf
  lineEnding_set : lf = false → ∀ written ending, s.lineEnding = some written →
    Spells written ending → layout.lineEnding = ending
  lineEnding_usual : lf = false →
    (∀ written ending, s.lineEnding = some written → ¬ Spells written ending) →
      layout.lineEnding = .crlf
  leadingBlankLine_set : ∀ b, s.leadingBlankLine = some b → layout.leadingBlankLine = b
  leadingBlankLine_usual : s.leadingBlankLine = none → layout.leadingBlankLine = true

/-- `Consults parse t named usual s warnings`: of the file that the user has named and the one at
the usual place the first one counts, and from it come the fields and the warnings. -/
inductive Consults (parse : String → Except String Settings) (t : FileTree) :
    Option Path → Option Path → OutputSection → List Warning → Prop where
  | named {path usual found} :
    Finds parse (t.read path) found →
    Consults parse t (some path) usual found.fields (found.warnings path true)
  | usual {path found} :
    Finds parse (t.read path) found →
    Consults parse t none (some path) found.fields (found.warnings path false)
  | nothing :
    Consults parse t none none {} []

variable {parse : String → Except String Settings} {t : FileTree} {input : ByteArray}
  {named usual : Option Path} {path : Path} {s : OutputSection} {warnings : List Warning}
  {layout : Layout}

/-- Something is found at every path, if only that nothing stands there. -/
lemma exists_finds (parse : String → Except String Settings) (t : FileTree) (path : Path) :
    ∃ found, Finds parse (t.read path) found := by
  cases hread : t.read path with
  | error cause =>
    rcases FileTree.read_error_cases hread with absence | rfl
    · exact ⟨_, .absent absence⟩
    · exact ⟨_, .directory⟩
  | ok content =>
    rcases Nat.lt_or_ge maxSize content.size with large | small
    · exact ⟨_, .tooLarge large⟩
    cases htext : String.fromUTF8? content with
    | none => exact ⟨_, .notText small htext⟩
    | some text =>
      cases hparse : parse text with
      | error reason => exact ⟨_, .malformed small htext hparse⟩
      | ok s => exact ⟨_, .accepted small htext hparse⟩

/-- Whatever files are there, some fields and some warnings come from them. -/
lemma exists_consults (parse : String → Except String Settings) (t : FileTree)
    (named usual : Option Path) : ∃ s warnings, Consults parse t named usual s warnings := by
  cases named with
  | some path =>
    obtain ⟨found, finds⟩ := exists_finds parse t path
    exact ⟨_, _, .named finds⟩
  | none =>
    cases usual with
    | some path =>
      obtain ⟨found, finds⟩ := exists_finds parse t path
      exact ⟨_, _, .usual finds⟩
    | none => exact ⟨_, _, .nothing⟩

/-- A delimiter counts unless it is empty, and then there is a warning. -/
lemma applyDelimiter_eq {delimiter : Option String} : applyDelimiter layout delimiter =
    ({ layout with delimiter := (delimiter.filter (· ≠ "")).getD layout.delimiter },
      if delimiter = some "" then [.emptyDelimiter] else []) := by
  fun_cases applyDelimiter layout delimiter
  case case1 => rfl
  case case2 => rfl
  case case3 text hne => simp [Option.filter, show text ≠ "" from hne]

/-- A line ending counts if it is spelled out, and otherwise there is a warning. -/
lemma applyLineEnding_eq {written : Option String} : applyLineEnding layout written =
    ({ layout with
        lineEnding :=
          (written.bind fun text => lineEnding? (lineEndingName text)).getD layout.lineEnding },
      (written.toList.filter fun text => ¬ (Spells text .crlf ∨ Spells text .lf)).map fun text =>
        .unknownLineEnding (lineEndingName text)) := by
  cases written with
  | none => rfl
  | some text =>
    unfold applyLineEnding
    dsimp only
    simp only [spells_iff]
    cases h : lineEnding? (lineEndingName text) with
    | none => simp [h]
    | some ending => cases ending <;> simp [h]

/-- Each field of a layout is set on its own. A section that is not there sets no field. -/
lemma apply_eq {settings : Settings} (h : settings.output.getD {} = s) : apply layout settings =
    ({ delimiter := (s.delimiter.filter (· ≠ "")).getD layout.delimiter
       lineEnding :=
         (s.lineEnding.bind fun text => lineEnding? (lineEndingName text)).getD layout.lineEnding
       leadingBlankLine := s.leadingBlankLine.getD layout.leadingBlankLine },
      rejections s) := by
  subst h
  unfold apply
  cases settings.output with
  | none => rfl
  | some output =>
    dsimp only
    rw [applyDelimiter_eq]
    dsimp only
    rw [applyLineEnding_eq]
    rfl

/-- On top of the usual layout, a file decides each field that it sets to a value of use. -/
lemma decided_apply {settings : Settings} (h : settings.output.getD {} = s) :
    Decided none false s (apply {} settings).1 := by
  rw [apply_eq h]
  refine ⟨nofun, fun _ text htext hne => ?_, fun _ empty => ?_, nofun,
    fun _ written ending hwritten spells => ?_, fun _ unknown => ?_, fun b hb => ?_,
    fun hnone => ?_⟩
  · simp [htext, hne, Option.filter]
  · cases htext : s.delimiter with
    | none => rfl
    | some text => simp [empty text htext, Option.filter]
  · simp [hwritten, spells_iff.1 spells]
  · cases hwritten : s.lineEnding with
    | none => rfl
    | some written =>
      have : lineEnding? (lineEndingName written) = none :=
        Option.eq_none_iff_forall_ne_some.2 fun ending h =>
          unknown written ending hwritten (spells_iff.2 h)
      simp [this]
  · simp [hb]
  · simp [hnone]

/-- Without settings all is as usual. -/
lemma decided_usual : Decided none false {} {} := by
  have nothing : (({} : Settings).output.getD {}) = {} := rfl
  exact decided_apply nothing

/-- Unless the command line gives one, no delimiter is empty. -/
lemma Decided.delimiter_ne (h : Decided none false s layout) : layout.delimiter ≠ "" := by
  by_cases empty : ∀ text, s.delimiter = some text → text = ""
  · simp [h.delimiter_usual rfl empty]
  · obtain ⟨text, htext, hne⟩ : ∃ text, s.delimiter = some text ∧ text ≠ "" := by simpa using empty
    rwa [h.delimiter_set rfl text htext hne]

/-- A file without settings leaves the layout as usual, with one warning. -/
lemma ofFile_of_unusable {content : ByteArray} {w : Warning} {isNamed : Bool}
    (h : settingsOf parse path content = .error w) :
    ofFile parse path isNamed (.ok content) = { warnings := [w], logged := [w] } := by
  rw [ofFile, h]

/-- The settings of a file are applied to the usual layout. -/
lemma ofFile_of_settings {content : ByteArray} {settings : Settings} {isNamed : Bool}
    (h : settingsOf parse path content = .ok settings) :
    ofFile parse path isNamed (.ok content) =
      { layout := (apply {} settings).1
        warnings := (apply {} settings).2
        logged := (apply {} settings).2 } := by
  rw [ofFile, h]

/-- What is found at a path decides the layout and the warnings. -/
lemma ofFile_of_finds {reading : Except FileError ByteArray} {found : Found}
    (h : Finds parse reading found) (path : Path) (isNamed : Bool) :
    Decided none false found.fields (ofFile parse path isNamed reading).layout ∧
      (ofFile parse path isNamed reading).warnings = found.warnings path isNamed := by
  cases h with
  | absent absence =>
    rw [ofFile, if_pos absence]
    exact ⟨decided_usual, rfl⟩
  | directory => exact ⟨decided_usual, rfl⟩
  | @tooLarge content large =>
    have refused : settingsOf parse path content = .error (.tooLarge path content.size) := by
      rw [settingsOf, if_pos large]
    rw [ofFile_of_unusable refused]
    exact ⟨decided_usual, rfl⟩
  | @notText content small htext =>
    have refused : settingsOf parse path content = .error (.unreadable path .notText) := by
      rw [settingsOf, if_neg (Nat.not_lt.2 small), decodeText, htext]
    rw [ofFile_of_unusable refused]
    exact ⟨decided_usual, rfl⟩
  | @malformed content text reason small htext hparse =>
    have refused : settingsOf parse path content = .error (.malformed path reason) := by
      rw [settingsOf, if_neg (Nat.not_lt.2 small), decodeText, htext]
      exact congrArg (Except.mapError (Warning.malformed path)) hparse
    rw [ofFile_of_unusable refused]
    exact ⟨decided_usual, rfl⟩
  | @accepted content text s small htext hparse =>
    have taken : settingsOf parse path content = .ok s := by
      rw [settingsOf, if_neg (Nat.not_lt.2 small), decodeText, htext]
      exact congrArg (Except.mapError (Warning.malformed path)) hparse
    rw [ofFile_of_settings taken]
    exact ⟨decided_apply rfl, by rw [apply_eq rfl]; rfl⟩

/-- The layout is decided by the file that counts, and so are the warnings. -/
lemma run_load_of_consults (h : Consults parse t named usual s warnings) :
    ∃ loaded, (load (FileTree.host input) parse named usual).run t = (loaded, t) ∧
      Decided none false s loaded.layout ∧ loaded.warnings = warnings := by
  cases h with
  | @named path usual found finds =>
    obtain ⟨decided, warned⟩ := ofFile_of_finds finds path true
    refine ⟨ofFile parse path true (t.read path), ?_, decided, warned⟩
    cases usual <;> rfl
  | @usual path found finds =>
    obtain ⟨decided, warned⟩ := ofFile_of_finds finds path false
    exact ⟨ofFile parse path false (t.read path), rfl, decided, warned⟩
  | nothing => exact ⟨{}, rfl, decided_usual, rfl⟩

/-- Of a file that the user has named and that is missing there is a warning, and no log. -/
lemma ofFile_of_absent {cause : FileError} (h : cause.isAbsence = true) :
    ofFile parse path true (.error cause) = { warnings := [.missing path] } := by
  rw [ofFile, if_pos h]
  rfl

/-- What is warned of is logged, unless a file that the user has named is missing. -/
lemma logged_ofFile {reading : Except FileError ByteArray} {isNamed : Bool}
    (h : ¬ (isNamed = true ∧ Finds parse reading .absent)) :
    (ofFile parse path isNamed reading).logged = (ofFile parse path isNamed reading).warnings := by
  cases reading with
  | error cause =>
    by_cases absence : cause.isAbsence = true
    · obtain rfl : isNamed = false := Bool.eq_false_iff.2 fun yes => h ⟨yes, .absent absence⟩
      rw [ofFile, if_pos absence]
      rfl
    · rw [ofFile, if_neg absence]
  | ok content =>
    cases hsettings : settingsOf parse path content with
    | error w => rw [ofFile_of_unusable hsettings]
    | ok s => rw [ofFile_of_settings hsettings]

/-- What is warned of is logged, in the same words and order, unless a file that the user has named
is missing. Of that there is one warning, and nothing is logged. -/
theorem load_logs_unless_missing (parse : String → Except String Settings) (t : FileTree)
    (input : ByteArray) (named usual : Option Path) :
    ∃ loaded, (load (FileTree.host input) parse named usual).run t = (loaded, t) ∧
      (loaded.logged.map Warning.message = loaded.warnings.map Warning.message ↔
        ¬ ∃ path, named = some path ∧ Finds parse (t.read path) .absent) ∧
      ∀ path, named = some path → Finds parse (t.read path) .absent →
        loaded.warnings = [.missing path] ∧ loaded.logged = [] := by
  cases named with
  | none =>
    cases usual with
    | none => exact ⟨{}, rfl, by simp, nofun⟩
    | some path =>
      refine ⟨ofFile parse path false (t.read path), rfl, ?_, nofun⟩
      rw [logged_ofFile (by simp)]
      simp
  | some path =>
    refine ⟨ofFile parse path true (t.read path), by cases usual <;> rfl, ?_, ?_⟩
    · constructor
      · rintro same ⟨_, ⟨⟩, finds⟩
        generalize t.read path = reading at same finds
        cases finds with
        | absent absence =>
          rw [ofFile_of_absent absence] at same
          cases same
      · intro present
        rw [logged_ofFile fun finds => present ⟨path, rfl, finds.2⟩]
    · rintro _ ⟨⟩ finds
      generalize t.read path = reading at finds
      cases finds with
      | absent absence =>
        rw [ofFile_of_absent absence]
        exact ⟨rfl, rfl⟩

/-- A tree without any files. -/
def emptyTree : FileTree := { node := fun _ => none }

/-- The user has named a file that is not there. -/
theorem missing_file_not_logged :
    ∃ loaded,
      (load (FileTree.host .empty) (fun _ => .ok {}) (some (Path.ofText "c")) none).run emptyTree =
        (loaded, emptyTree) ∧
      loaded.warnings.map Warning.message = ["Config file not found: c"] ∧
      loaded.logged.map Warning.message = [] := by
  have absent : emptyTree.read (Path.ofText "c") = .error .notFound := rfl
  refine ⟨{ warnings := [.missing (Path.ofText "c")] }, ?_, ?_, rfl⟩
  · show (ofFile _ (Path.ofText "c") true (emptyTree.read (Path.ofText "c")), emptyTree) = _
    rw [absent]
    rfl
  · have shown : (Warning.missing (Path.ofText "c")).message = "Config file not found: " ++ "c" :=
      congrArg ("Config file not found: " ++ ·) Path.text_ofText
    exact congrArg (fun text => [text]) (shown.trans (by decide +kernel))

end Config

end TableCalc
