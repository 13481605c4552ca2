import TableCalc.Config
import TableCalc.Document

/-!
# The command

Loads a table, computes it and writes it out, all as an invocation says. A failure to load or to
write ends the run with the code 1 and one message. Failing cells are part of the table and no
failure of the run.

An invocation is what a command line comes to that has been accepted. Command lines themselves are
not part of this library, and neither is what reads the text of a configuration file.
-/

namespace TableCalc

/-- What a command line asks for. -/
structure Invocation where
  /-- The file with the table. -/
  input : Option Path := none
  /-- The file for the computed table. -/
  output : Option Path := none
  /-- The configuration file. -/
  config : Option Path := none
  /-- Whether the configuration file at the usual place counts if none is named. -/
  useDefaultConfig : Bool := true
  delimiter : Option String := none
  lf : Bool := false
deriving DecidableEq, Repr

/-- How a run ends, and what it shows on the way. -/
structure Outcome where
  code : Nat := 0
  /-- The text for standard output. -/
  out : String := ""
  /-- The text for standard error. -/
  err : String := ""
deriving DecidableEq, Repr

namespace Command

/-- The name that stands for standard input. -/
def dash : Name := [0x2D]

/-- Whether a path stands for standard input: a dash, alone or as a path of one name. -/
def isStandardInput (path : Path) : Bool :=
  match path.parts with
  | first :: parts => first = dash && parts.all fun part => part = [] || part = Path.here
  | [] => false

/-- The file with the table, if it is not to be read from standard input. -/
def inputFile? (i : Invocation) : Option Path := i.input.filter (!isStandardInput ·)

/-- The layout with what the command line sets. -/
def overrideLayout (i : Invocation) (layout : Layout) : Layout :=
  { layout with
    delimiter := i.delimiter.getD layout.delimiter
    lineEnding := if i.lf then .lf else layout.lineEnding }

/-- Warnings as they are shown, one after another. -/
def warningLines (warnings : List Config.Warning) : String :=
  String.join (warnings.map fun w => "Warning: " ++ w.message ++ "\n")

/-- What is in front of a failure to load the table. -/
def loadContext : (file : Option Path) → String
  | some path => "Failed to load " ++ path.text
  | none => "Failed to load table from standard input"

/-- The end of a run that fails, after the text `err`. -/
def fail (err context : String) (e : DocumentError) : Outcome :=
  { code := 1, err := err ++ "Error: " ++ context ++ ": " ++ e.messageWithCauses ++ "\n" }

variable {m : Type → Type} [Monad m]

/-- Writes a computed document where the invocation says. -/
def deliver (host : Host m) (i : Invocation) (err : String) (layout : Layout) (d : Document) :
    m Outcome := do
  match i.output with
  | none => return { out := d.render layout, err }
  | some path =>
    match ← d.save host path layout with
    | .ok () => return { err }
    | .error e => return fail err ("Failed to write " ++ path.text) e

/-- Does what an invocation asks for. The file `usualConfig` counts if no configuration file is
named, and `parse` finds the settings in its text. -/
def run (host : Host m) (parse : String → Except String Settings) (usualConfig : Option Path)
    (i : Invocation) : m Outcome := do
  let usual := if i.useDefaultConfig then usualConfig else none
  let loaded ← Config.load host parse i.config usual
  let err := warningLines loaded.warnings
  let file := inputFile? i
  let loading ← match file with
    | some path => Document.load host path
    | none => Document.loadInput host
  match loading.result with
  | .error e => return fail err (loadContext file) e
  | .ok d => deliver host i err (overrideLayout i loaded.layout) d.compute.2

end Command

end TableCalc
