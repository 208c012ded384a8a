import OdinSchema.Descriptor
import OdinSchema.Dictionary

/-!
# The catalog of loaded files

Loading turns the descriptors of a request into a schema. It qualifies
every name, finds the place of every field, recognises maps by the entry
messages seen so far, gives each oneof its members, and at the end checks
that every type referred to is declared.

A catalog holds what loading has found. It is kept when loading fails,
and an attempt to load again starts from it.
-/

namespace OdinSchema

/-- Why files are not loaded. -/
inductive LoadError where
  /-- A oneof is asked for by a position it does not have, or a map entry
  lacks a key or a value. -/
  | outOfRange
  /-- The option that overrides a field's type is malformed. -/
  | malformedOption
  /-- A field refers to a type that is not declared. -/
  | unresolved (typeName : String) (field : Verbatim)
  /-- A name that has to be text is none. -/
  | illegible (cause : Illegible)
  deriving DecidableEq, Repr

/-- The wording of an error. -/
def LoadError.text : LoadError → String
  | outOfRange => "list index out of range"
  | malformedOption => "malformed option"
  | unresolved typeName field =>
    "Unable to resolve type reference '" ++ typeName ++ "' for field '" ++ field.shown ++ "'"
  | illegible cause => cause.text

/-- A field's reference to a type. -/
structure Reference where
  typeName : String
  field : Verbatim
  deriving DecidableEq, Repr

/-- What loading has found: the full names of the declared types, the map
entries by full name, the references to check and the loaded files. -/
structure Catalog where
  types : List String := []
  entries : Dictionary String Message := .empty
  references : List Reference := []
  files : Dictionary Verbatim File := .empty
  complete : Bool := false

/-- Loading: a failure keeps the catalog. -/
abbrev Load := ExceptT LoadError (StateM Catalog)

/-- A result that does not hang on the catalog. -/
def Load.ofExcept {α : Type} (result : Except LoadError α) : Load α :=
  ExceptT.mk (pure result)

/-! ## Names and places -/

/-- A full name: the segments that are not empty, joined by dots. All of
them have to be text. -/
def qualify (segments : List Verbatim) : Except LoadError String :=
  let given := segments.filter (· ≠ .text "")
  match given.findIdx? (·.text?.isNone) with
  | some position => .error (.illegible (.segment position))
  | none => .ok (".".intercalate (given.map Verbatim.shown))

/-- The place of the declaration at an address: the first one given for
it with both a line and a column. -/
def locate (placements : List Placement) (path : List Int) : Option Location :=
  placements.findSome? fun placement =>
    if placement.path = path then
      match placement.span with
      | line :: column :: _ => some ⟨line, column⟩
      | _ => none
    else none

/-- The position a signed index stands for among `count` items; a negative
index counts from the end. -/
def position? (count : Nat) (index : Int) : Option Nat :=
  if 0 ≤ index then
    if index < count then some index.toNat else none
  else if -count ≤ index then some (count + index).toNat
  else none

/-- What the messages of a file have in common: its dialect and the places
of its declarations. -/
structure FileContext where
  dialect : Verbatim
  placements : List Placement

end OdinSchema
