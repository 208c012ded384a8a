import OdinSchema.Schema

/-!
# Why a declaration is refused

A fault of a schema is reported at the line of the field it concerns, so
a fault of a field without a known place cannot be reported: that is a
defect of the input rather than a diagnostic of the schema. Causes are
kept apart here and worded in one place each.
-/

namespace OdinSchema

/-- What is wrong with a field. -/
inductive Fault where
  /-- The external type is set to an empty name. -/
  | emptyExternal (field : Verbatim)
  /-- The alias is set to an empty name. -/
  | emptyTypedef (field : Verbatim)
  /-- Two variants of a union have one type, though overrides ask for a
  tagged union. -/
  | repeatedVariant (type field : Verbatim)
  /-- An alias is asked to stand for a second type. -/
  | aliasConflict (name : Verbatim) (bound wanted : String)
  /-- A fault stated in words of its own. -/
  | stated (text : String)
  deriving DecidableEq, Repr

/-- The wording of a fault. -/
def Fault.text : Fault → String
  | emptyExternal field => "(odin).external must not be empty (field " ++ field.shown ++ ")"
  | emptyTypedef field => "(odin).typedef must not be empty (field " ++ field.shown ++ ")"
  | repeatedVariant type field =>
    "Duplicate Odin union type " ++ type.shown ++ " for field " ++ field.shown ++
      " after applying (odin).external/typedef overrides"
  | aliasConflict name bound wanted =>
    "Type alias '" ++ name.shown ++ "' already refers to '" ++ bound ++
      "', cannot redefine as '" ++ wanted ++ "'"
  | stated text => text

/-- A fault at a line of the source text, lines counted from one. -/
structure Diagnostic where
  line : Int
  fault : Fault
  deriving DecidableEq, Repr

/-- The wording of a diagnostic. -/
def Diagnostic.text (d : Diagnostic) : String :=
  "line " ++ toString d.line ++ ": " ++ d.fault.text

/-- What no source line can be blamed for. -/
inductive Defect where
  /-- A fault of a field whose place in the source is not known. -/
  | unlocated (field : Verbatim)
  /-- A declaration is asked for the entry message of a map. -/
  | mapEntry (fullName : String)
  deriving DecidableEq, Repr

/-- The wording of a defect. -/
def Defect.text : Defect → String
  | unlocated field =>
    "Field '" ++ field.shown ++ "' has no source location (synthetic field passed)"
  | mapEntry fullName => "Map entry message '" ++ fullName ++ "' cannot be emitted"

/-- Why a declaration is not written. -/
inductive Refusal where
  | diagnostic (diagnostic : Diagnostic)
  | defect (defect : Defect)
  | illegible (cause : Illegible)
  deriving DecidableEq, Repr

/-- The refusal of a field for a fault, at the field's own line. -/
def FieldHead.refuse (f : FieldHead) (fault : Fault) : Refusal :=
  match f.location with
  | some location => .diagnostic ⟨location.line + 1, fault⟩
  | none => .defect (.unlocated f.name)

end OdinSchema
