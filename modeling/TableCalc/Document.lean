import TableCalc.Files
import TableCalc.Table.Layout
import TableCalc.Table.Reader

/-!
# Documents

A document is a table with where it came from and the counts of its last pass. It is loaded from
text, from bytes or from a file, and saved as rendered text.
-/

namespace TableCalc

/-- Why a document cannot be loaded or saved. -/
inductive DocumentError where
  | file (cause : FileError)
  | content (cause : ReadError)
deriving DecidableEq, Repr

namespace DocumentError

/-- The text shown for a document error. -/
def message : DocumentError → String
  | file cause => "IO error: " ++ cause.message
  | content cause => cause.message

/-- The text with the causes behind it. A file error is its own cause. -/
def messageWithCauses (e : DocumentError) : String :=
  match e with
  | file cause => e.message ++ ": " ++ cause.message
  | content _ => e.message

end DocumentError

/-- A table, the file it was loaded from and the counts of its last pass. -/
structure Document where
  table : Table
  source : Option Path := none
  tally : Option Tally := none

/-- The outcome of loading, with the warnings that came up on the way. -/
structure Loading where
  warnings : List ExtraTokens := []
  result : Except DocumentError Document

namespace Document

/-- The document that a text holds. -/
def ofText (text : String) : Loading :=
  let reading := Table.ofText text
  { warnings := reading.warnings
    result := (reading.result.map fun table => { table }).mapError .content }

/-- The document in what was read from a file or from the input. -/
def ofBytes (bytes : Except FileError ByteArray) : Loading :=
  match bytes.bind decodeText with
  | .ok text => ofText text
  | .error e => { result := .error (.file e) }

/-- Loads a document from a file. -/
def load {m : Type → Type} [Monad m] (host : Host m) (path : Path) : m Loading := do
  let loading := ofBytes (← host.readFile path)
  return { loading with result := loading.result.map fun d => { d with source := some path } }

/-- Loads a document from the input. -/
def loadInput {m : Type → Type} [Monad m] (host : Host m) : m Loading :=
  return ofBytes (← host.readInput)

/-- Whether a pass has been made. -/
def isComputed (d : Document) : Bool := d.tally.isSome

/-- Computes every cell anew. -/
def compute (d : Document) : Tally × Document :=
  let (tally, table) := d.table.compute
  (tally, { d with table, tally := some tally })

/-- The computed table as text. -/
def render (d : Document) (layout : Layout) : String := layout.render d.table

/-- Writes the computed table to a file. -/
def save {m : Type → Type} [Monad m] (host : Host m) (path : Path) (layout : Layout)
    (d : Document) :
    m (Except DocumentError Unit) := do
  return (← host.writeFile path (d.render layout).toUTF8).mapError .file

end Document

end TableCalc
