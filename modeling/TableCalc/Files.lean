import TableCalc.Text.Lossy

/-!
# Files

What the program needs of its surroundings: to read a file, to write one and to read its input.
`Host` names these three for any monad. `FileTree` is a host without side effects: directories and
files by path, below a working directory. Paths and the names on them are bytes, which need not be
text.
-/

namespace TableCalc

/-- Why a file cannot be read or written. -/
inductive FileError where
  | notFound
  | permissionDenied
  | notADirectory
  | isADirectory
  | nameTooLong
  /-- The path has a zero byte in it. -/
  | zeroByte
  /-- The content is not UTF-8. -/
  | notText
  /-- Any other cause, by its message. -/
  | other (text : String)
deriving DecidableEq, Repr

namespace FileError

/-- The text shown for a file error. -/
def message : FileError → String
  | notFound => "No such file or directory (os error 2)"
  | permissionDenied => "Permission denied (os error 13)"
  | notADirectory => "Not a directory (os error 20)"
  | isADirectory => "Is a directory (os error 21)"
  | nameTooLong => "File name too long (os error 36)"
  | zeroByte => "file name contained an unexpected NUL byte"
  | notText => "stream did not contain valid UTF-8"
  | other text => text

/-- Whether the error means that nothing stands at the path. -/
def isAbsence : FileError → Bool
  | notFound | notADirectory | nameTooLong | zeroByte => true
  | permissionDenied | isADirectory | notText | other _ => false

end FileError

/-- The text that bytes encode. -/
def decodeText (bytes : ByteArray) : Except FileError String :=
  match String.fromUTF8? bytes with
  | some text => .ok text
  | none => .error .notText

/-- The name of a file or directory. -/
abbrev Name := List UInt8

/-- The bytes of a text. -/
def Name.ofText (text : String) : Name := text.toUTF8.data.toList

/-- A path to a file or directory, as it is written. -/
structure Path where
  bytes : List UInt8
deriving DecidableEq, Repr

namespace Path

/-- The byte between two names on a path. -/
def slash : UInt8 := 0x2F

/-- The name that stays in a directory. -/
def here : Name := [0x2E]

/-- The name that goes up from a directory. -/
def up : Name := [0x2E, 0x2E]

/-- The path that a text spells. -/
def ofText (text : String) : Path := ⟨Name.ofText text⟩

/-- The text shown for a path. -/
def text (p : Path) : String :=
  match String.fromUTF8? ⟨p.bytes.toArray⟩ with
  | some text => text
  | none => Text.decodeLossy p.bytes

/-- What stands between the slashes of a path. -/
def parts (p : Path) : List Name := p.bytes.splitOn slash

/-- Whether a path starts at the root. -/
def isAbsolute (p : Path) : Bool := p.bytes.head? = some slash

/-- A path that a text spells is shown as this text. -/
@[simp] theorem text_ofText {s : String} : (ofText s).text = s := by
  have bytes : (⟨(ofText s).bytes.toArray⟩ : ByteArray) = s.toUTF8 := rfl
  have decoded : String.fromUTF8? s.toUTF8 = some s := dif_pos s.isValidUTF8
  rw [text, bytes, decoded]

end Path

/-- Access to files and to the input. -/
structure Host (m : Type → Type) where
  readFile : Path → m (Except FileError ByteArray)
  /-- Replaces the content of a file, which need not be there before. -/
  writeFile : Path → ByteArray → m (Except FileError Unit)
  readInput : m (Except FileError ByteArray)

/-- What stands at a path. -/
inductive FileNode where
  | file (content : ByteArray)
  | directory

/-- Files and directories by the names on their way from the root, and a working directory. -/
structure FileTree where
  workingDirectory : List Name := []
  node : List Name → Option FileNode

namespace FileTree

/-- The longest name of a file, in bytes. -/
def maxName : Nat := 255

/-- The longest path, in bytes. -/
def maxPath : Nat := 4095

/-- Refuses a path that cannot name anything. -/
def checkPath (path : Path) : Except FileError Unit :=
  if 0 ∈ path.bytes then .error .zeroByte
  else if path.bytes = [] then .error .notFound
  else if maxPath < path.bytes.length then .error .nameTooLong
  else .ok ()

/-- The tree with one more or one changed node. -/
def insert (t : FileTree) (place : List Name) (n : FileNode) : FileTree :=
  { t with node := fun p => if p = place then some n else t.node p }

/-- Follows the parts of a path from a directory. Empty parts and `.` stay where they are, `..` goes
up. -/
def follow (t : FileTree) :
    (place : List Name) → (parts : List Name) → Except FileError (List Name × FileNode)
  | place, [] => .ok (place, .directory)
  | place, part :: parts =>
    if part = [] ∨ part = Path.here then t.follow place parts
    else if part = Path.up then t.follow place.dropLast parts
    else if maxName < part.length then .error .nameTooLong
    else
      match t.node (place ++ [part]) with
      | none => .error .notFound
      | some .directory => t.follow (place ++ [part]) parts
      | some (.file content) =>
        if parts = [] then .ok (place ++ [part], .file content) else .error .notADirectory

/-- Where a path starts. -/
def start (t : FileTree) (path : Path) : List Name :=
  if path.isAbsolute then [] else t.workingDirectory

/-- The content of the file at a path. -/
def read (t : FileTree) (path : Path) : Except FileError ByteArray := do
  checkPath path
  match ← t.follow (t.start path) path.parts with
  | (_, .file content) => return content
  | (_, .directory) => throw .isADirectory

/-- The parts of a path up to its last name, and that name with whether slashes follow it. -/
def splitLast (parts : List Name) : Option (List Name × Name × Bool) :=
  let reversed := parts.reverse
  match reversed.dropWhile (· = []) with
  | [] => none
  | name :: parents => some (parents.reverse, name, decide (reversed.head? = some []))

/-- The tree after the file at a path got this content. The directory of the file has to be there.
-/
def write (t : FileTree) (path : Path) (content : ByteArray) : Except FileError FileTree := do
  checkPath path
  match splitLast path.parts with
  | none => throw .isADirectory
  | some (parents, name, slashed) =>
    match ← t.follow (t.start path) parents with
    | (_, .file _) => throw .notADirectory
    | (place, .directory) =>
      if slashed ∨ name = Path.here ∨ name = Path.up then throw .isADirectory
      if maxName < name.length then throw .nameTooLong
      match t.node (place ++ [name]) with
      | some .directory => throw .isADirectory
      | _ => return t.insert (place ++ [name]) (.file content)

/-- The host that keeps its files in a tree and has a fixed input. -/
def host (input : ByteArray) : Host (StateM FileTree) where
  readFile path := return (← get).read path
  writeFile path content := do
    match (← get).write path content with
    | .ok t => set t; return .ok ()
    | .error e => return .error e
  readInput := return .ok input

end FileTree

end TableCalc
