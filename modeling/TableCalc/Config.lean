import TableCalc.Files
import TableCalc.Table.Layout
import TableCalc.Text.Blank

/-!
# Configuration

The layout that a configuration file asks for. Nothing about the file can stop the program: what
cannot be used is left at its usual value, with a warning. A file that is named has to be there; the
one at the usual place need not.

The text of a configuration file is TOML. What reads it is not part of this library: it is a
parameter, which either finds the settings in a text or says what is wrong with the text.
-/

namespace TableCalc

/-- The section `output` of a configuration file, as it is written there. -/
structure OutputSection where
  delimiter : Option String := none
  lineEnding : Option String := none
  leadingBlankLine : Option Bool := none
deriving DecidableEq, Repr

/-- What a configuration file sets. -/
structure Settings where
  output : Option OutputSection := none
deriving DecidableEq, Repr

namespace Config

/-- The largest configuration file that is read, in bytes. -/
def maxSize : Nat := 1048576

/-- What is wrong with a configuration file. -/
inductive Warning where
  | missing (path : Path)
  | tooLarge (path : Path) (size : Nat)
  | unreadable (path : Path) (cause : FileError)
  /-- The text has no settings, for this reason. -/
  | malformed (path : Path) (reason : String)
  | emptyDelimiter
  /-- The name, trimmed and in lower case, stands for no line ending. -/
  | unknownLineEnding (name : String)
deriving DecidableEq, Repr

/-- The text of a warning. -/
def Warning.message : Warning → String
  | missing path => "Config file not found: " ++ path.text
  | tooLarge path size =>
    "Refusing to read " ++ path.text ++ ": file too large (" ++ toString size ++ " bytes, max " ++
      toString maxSize ++ ")"
  | unreadable path cause => "Failed to read " ++ path.text ++ ": " ++ cause.message
  | malformed path reason => "Failed to parse " ++ path.text ++ ": " ++ reason
  | emptyDelimiter => "output.delimiter must not be empty, using a tab"
  | unknownLineEnding name =>
    "Unknown output.line_ending '" ++ name ++ "', expected 'crlf' or 'lf'"

/-- The name of a line ending as it is compared: trimmed, its ASCII letters in lower case. -/
def lineEndingName (written : String) : String :=
  String.ofList ((Text.trim written.toList).map Char.toLower)

/-- The line ending with a name. -/
def lineEnding? (name : String) : Option LineEnding :=
  if name = "crlf" then some .crlf
  else if name = "lf" then some .lf
  else none

/-- The layout with the delimiter that a file sets, if that is usable. -/
def applyDelimiter (layout : Layout) : Option String → Layout × List Warning
  | none => (layout, [])
  | some "" => (layout, [.emptyDelimiter])
  | some delimiter => ({ layout with delimiter }, [])

/-- The layout with the line ending that a file sets, if that is usable. -/
def applyLineEnding (layout : Layout) : Option String → Layout × List Warning
  | none => (layout, [])
  | some written =>
    match lineEnding? (lineEndingName written) with
    | some lineEnding => ({ layout with lineEnding }, [])
    | none => (layout, [.unknownLineEnding (lineEndingName written)])

/-- The layout with the settings of a file, and a warning for each that is not usable. -/
def apply (layout : Layout) (s : Settings) : Layout × List Warning :=
  match s.output with
  | none => (layout, [])
  | some output =>
    let (layout, delimiterWarnings) := applyDelimiter layout output.delimiter
    let (layout, lineEndingWarnings) := applyLineEnding layout output.lineEnding
    let leadingBlankLine := output.leadingBlankLine.getD layout.leadingBlankLine
    ({ layout with leadingBlankLine }, delimiterWarnings ++ lineEndingWarnings)

/-- The settings that `parse` finds in the content of the file at `path`. -/
def settingsOf (parse : String → Except String Settings) (path : Path) (content : ByteArray) :
    Except Warning Settings :=
  if maxSize < content.size then .error (.tooLarge path content.size)
  else
    match decodeText content with
    | .error cause => .error (.unreadable path cause)
    | .ok text => (parse text).mapError (.malformed path)

/-- A layout, with what was wrong on the way to it. -/
structure Loaded where
  layout : Layout := {}
  warnings : List Warning := []
  /-- The warnings that go to the log. -/
  logged : List Warning := []
deriving DecidableEq, Repr

/-- The outcome of reading the file at `path`, which the user has named if `named` is true. That a
named file is missing is not logged. -/
def ofFile (parse : String → Except String Settings) (path : Path) (named : Bool) :
    Except FileError ByteArray → Loaded
  | .error cause =>
    if cause.isAbsence then { warnings := if named then [.missing path] else [] }
    else { warnings := [.unreadable path cause], logged := [.unreadable path cause] }
  | .ok content =>
    match settingsOf parse path content with
    | .error w => { warnings := [w], logged := [w] }
    | .ok s =>
      let (layout, warnings) := apply {} s
      { layout, warnings, logged := warnings }

/-- Loads the layout from the file that the user has named, or else from the file at the usual
place, if any. -/
def load {m : Type → Type} [Monad m] (host : Host m) (parse : String → Except String Settings)
    (named usual : Option Path) : m Loaded :=
  match named, usual with
  | some path, _ => return ofFile parse path true (← host.readFile path)
  | none, some path => return ofFile parse path false (← host.readFile path)
  | none, none => return {}

end Config

end TableCalc
