import OdinSchema.Dictionary
import OdinSchema.Tool.Path
import OdinSchema.Wire.Varint

/-!
# File trees

Directories and files by their address from the root, with the operations
the tool needs: reading a file, writing one, and making a directory with
the directories above it. An address is the list of names on the way
down, so it has no double dots; a path is walked through existing
directories to find one. Names and paths may not be longer than file
systems allow.
-/

namespace OdinSchema

/-- What is at an address. -/
inductive Entry where
  | directory
  | file (content : Wire.Bytes)
  deriving DecidableEq, Repr

/-- The names on the way down from the root. -/
abbrev Address := List String

/-- Directories and files, and the directory that relative paths start
from. -/
structure FileTree where
  entries : Dictionary Address Entry := .empty
  current : Address := []

/-- Why an operation on a path fails. -/
inductive PathError where
  | missing
  | notDirectory
  | isDirectory
  | occupied
  | tooLong
  | holdsNul
  deriving DecidableEq, Repr

/-- The wording of a failure at a path. -/
def PathError.text : PathError → String
  | missing => "no such file or directory"
  | notDirectory => "not a directory"
  | isDirectory => "is a directory"
  | occupied => "file exists"
  | tooLong => "file name too long"
  | holdsNul => "embedded null byte"

namespace FileTree

/-- What is at an address. The root is a directory. -/
def get? (t : FileTree) (address : Address) : Option Entry :=
  if address = [] then some .directory else t.entries.get? address

/-- Put an entry at an address. -/
def put (t : FileTree) (address : Address) (entry : Entry) : FileTree :=
  { t with entries := t.entries.set address entry }

/-- The address one segment further. The root is above itself, and a name
has at most 255 bytes. -/
def step (address : Address) (segment : String) : Except PathError Address :=
  if segment = ".." then .ok address.dropLast
  else if segment.utf8ByteSize ≤ 255 then .ok (address ++ [segment])
  else .error .tooLong

/-- Walk down through directories. -/
def walk (t : FileTree) (address : Address) : List String → Except PathError Address
  | [] => .ok address
  | segment :: rest =>
    match step address segment with
    | .error e => .error e
    | .ok next =>
      match t.get? next with
      | some .directory => t.walk next rest
      | some (.file _) => .error .notDirectory
      | none => .error .missing

/-- The address of a path, whose last segment need not exist. A path has
at most 4095 bytes. -/
def resolve (t : FileTree) (p : Path) : Except PathError Address :=
  if p.holdsNul then .error .holdsNul
  else if 4095 < p.text.utf8ByteSize then .error .tooLong
  else
    let start := if p.root = .relative then t.current else []
    match t.walk start p.segments.dropLast with
    | .error e => .error e
    | .ok address =>
      match p.segments.getLast? with
      | none => .ok address
      | some segment => step address segment

/-- Whether a path leads to a directory. -/
def isDirectory (t : FileTree) (p : Path) : Bool :=
  match t.resolve p with
  | .ok address => t.get? address = some .directory
  | .error _ => false

/-- The content of a file. -/
def read (t : FileTree) (p : Path) : Except PathError Wire.Bytes :=
  match t.resolve p with
  | .error e => .error e
  | .ok address =>
    match t.get? address with
    | some (.file content) => .ok content
    | some .directory => .error .isDirectory
    | none => .error .missing

/-- Write a file, in place of the one that may be there. -/
def write (t : FileTree) (p : Path) (content : Wire.Bytes) : Except PathError FileTree :=
  match t.resolve p with
  | .error e => .error e
  | .ok address =>
    if t.get? address = some .directory then .error .isDirectory
    else .ok (t.put address (.file content))

/-- Make a directory where there is nothing yet. -/
def makeDirectory (t : FileTree) (p : Path) : Except PathError FileTree :=
  match t.resolve p with
  | .error e => .error e
  | .ok address =>
    if (t.get? address).isSome then .error .occupied else .ok (t.put address .directory)

/-- Make a directory unless it is there. -/
def ensureDirectory (t : FileTree) (p : Path) : Except PathError FileTree :=
  match t.makeDirectory p with
  | .ok t => .ok t
  | .error e => if e ≠ .missing ∧ t.isDirectory p then .ok t else .error e

/-- Make a directory and those above it, unless they are there. The tree
afterwards is given also on failure. -/
def makeDirectories (t : FileTree) (p : Path) : FileTree × Option PathError :=
  match t.ensureDirectory p with
  | .ok t => (t, none)
  | .error e =>
    if h : e = .missing ∧ p.segments ≠ [] then
      have : p.parent.segments.length < p.segments.length := by
        simp only [Path.parent, List.length_dropLast]
        have := List.length_pos_iff.2 h.2
        omega
      match t.makeDirectories p.parent with
      | (t, some e) => (t, some e)
      | (t, none) =>
        match t.ensureDirectory p with
        | .ok t => (t, none)
        | .error e => (t, some e)
    else (t, some e)
termination_by p.segments.length

/-- The files of a tree with their addresses. -/
def files (t : FileTree) : List (Address × Wire.Bytes) :=
  t.entries.entries.filterMap fun (address, entry) =>
    match entry with
    | .file content => some (address, content)
    | .directory => none

end FileTree

end OdinSchema
