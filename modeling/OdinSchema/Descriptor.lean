import OdinSchema.Schema
import OdinSchema.Wire.Content

/-!
# Descriptors

Schema files as the compiler describes them: names are not yet qualified,
references not yet resolved, and the option that overrides a field's Odin
type is still encoded.
-/

namespace OdinSchema

/-- A field. `odin` holds the encoded occurrences of the option that
overrides its type. -/
structure FieldDescriptor where
  name : Verbatim := ""
  number : Int := 0
  label : Cardinality := .optional
  code : TypeCode := 1
  typeName : Verbatim := ""
  oneofIndex : Option Int := none
  packed : Option Bool := none
  odin : List Wire.Bytes := []
  deriving DecidableEq, Repr

/-- An enum. -/
structure EnumDescriptor where
  name : Verbatim := ""
  values : List EnumValue := []
  deriving DecidableEq, Repr

/-- What a message describes, the messages nested in it left out. An option
that is not set is none. -/
structure MessageDescriptorHead where
  name : Verbatim := ""
  fields : List FieldDescriptor := []
  enums : List EnumDescriptor := []
  oneofs : List Verbatim := []
  mapEntry : Option Bool := none
  deriving DecidableEq, Repr

/-- A message with the messages nested in it. -/
inductive MessageDescriptor where
  | mk (head : MessageDescriptorHead) (nested : List MessageDescriptor)
  deriving Repr

/-- Where a declaration stands in the source text: its address among the
declarations of the file, and its span. -/
structure Placement where
  path : List Int := []
  span : List Int := []
  deriving DecidableEq, Repr

/-- A file. -/
structure FileDescriptor where
  name : Verbatim := ""
  package : Verbatim := ""
  dialect : Verbatim := ""
  dependencies : List Verbatim := []
  enums : List EnumDescriptor := []
  messages : List MessageDescriptor := []
  placements : List Placement := []
  deriving Repr

/-- A request to generate code for files, given all files they need. -/
structure Request where
  files : List FileDescriptor := []
  targets : List Verbatim := []
  parameter : Verbatim := ""
  version : Version := {}
  deriving Repr

end OdinSchema
