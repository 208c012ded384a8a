/-!
# Paths

A path is a root and a list of segments. Empty segments and single dots
say nothing and are dropped; double dots are kept, as what they mean is
for the file tree to say.
-/

namespace OdinSchema

/-- How a path starts. Two slashes are kept apart from one. -/
inductive PathRoot where
  | relative
  | slash
  | doubleSlash
  deriving DecidableEq, Repr

/-- The text of a root. -/
def PathRoot.text : PathRoot → String
  | relative => ""
  | slash => "/"
  | doubleSlash => "//"

/-- A path to a file or a directory. -/
structure Path where
  root : PathRoot := .relative
  segments : List String := []
  deriving DecidableEq, Repr

namespace Path

/-- The root in front of a text. -/
def readRoot : List Char → PathRoot
  | '/' :: '/' :: '/' :: _ => .slash
  | '/' :: '/' :: _ => .doubleSlash
  | '/' :: _ => .slash
  | _ => .relative

/-- The path a text spells. -/
def read (text : String) : Path where
  root := readRoot text.toList
  segments := ((text.toList.splitOnP (· == '/')).map .ofList).filter fun s => s ≠ "" && s ≠ "."

/-- The text of a path; an empty one is a single dot. -/
def text (p : Path) : String :=
  if p = {} then "." else p.root.text ++ "/".intercalate p.segments

/-- A path seen from another; one that has a root stands alone. -/
def join (p q : Path) : Path :=
  if q.root = .relative then { p with segments := p.segments ++ q.segments } else q

/-- The path without its last segment. -/
def parent (p : Path) : Path :=
  { p with segments := p.segments.dropLast }

/-- Whether a character that no name of a file can hold is in a path. -/
def holdsNul (p : Path) : Bool :=
  p.segments.any fun s => s.toList.contains (Char.ofNat 0)

end Path

end OdinSchema
