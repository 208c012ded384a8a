import OdinSchema.Verbatim

/-!
# Schemas

The declarations of a protobuf file as the generator sees them: every
type with its full name, every field with its resolved kind, its place in
the source text and the option that overrides its Odin type.
-/

namespace OdinSchema

/-- The number a descriptor gives to a field's type. Numbers outside the
table are kept as they are. -/
abbrev TypeCode := Int

namespace TypeCode

/-- Strings. -/
def string : TypeCode := 9

/-- Groups, the older form of nested messages. -/
def group : TypeCode := 10

/-- Messages. -/
def message : TypeCode := 11

/-- Byte strings. -/
def bytes : TypeCode := 12

/-- Enums. -/
def enum : TypeCode := 14

end TypeCode

/-- How often a field may occur. -/
inductive Cardinality where
  | optional
  | required
  | repeated
  deriving DecidableEq, Repr

/-- What the values of a field are. -/
inductive Kind where
  | scalar
  | enum
  | message
  | map
  deriving DecidableEq, Repr

/-- Where a declaration starts, line and column counted from zero. -/
structure Location where
  line : Int
  column : Int := 0
  deriving DecidableEq, Repr

/-- The value of the option that overrides a field's Odin type: the name
of a type declared elsewhere, or of a distinct alias to declare. -/
structure Override where
  external : Option Verbatim := none
  typedef : Option Verbatim := none
  deriving DecidableEq, Repr

/-- What a field declares by itself. -/
structure FieldHead where
  name : Verbatim
  number : Int := 1
  code : TypeCode
  cardinality : Cardinality := .optional
  kind : Kind := .scalar
  typeName : Option String := none
  oneof : Option Verbatim := none
  oneofIndex : Option Int := none
  packable : Bool := false
  packed : Bool := false
  override : Option Override := none
  location : Option Location := none
  deriving DecidableEq, Repr

/-- A field of a message. A map field carries the key and value fields of
its entry. -/
inductive Field where
  | single (head : FieldHead)
  | map (head : FieldHead) (key value : Field)
  deriving DecidableEq, Repr

/-- What a field declares by itself. -/
def Field.head : Field → FieldHead
  | single head => head
  | map head _ _ => head

/-- The key and value fields of a map field. -/
def Field.entry? : Field → Option (Field × Field)
  | single _ => none
  | map _ key value => some (key, value)

/-- One name of an enum. -/
structure EnumValue where
  name : Verbatim
  number : Int
  deriving DecidableEq, Repr

/-- An enum type. -/
structure EnumType where
  name : Verbatim
  fullName : String
  values : List EnumValue := []
  deriving DecidableEq, Repr

/-- A group of fields of which at most one is set. -/
structure Oneof where
  name : Verbatim
  fullName : String
  members : List Field := []
  deriving DecidableEq, Repr

/-- What a message declares, the messages nested in it left out. -/
structure MessageHead where
  name : Verbatim
  fullName : String
  fields : List Field := []
  oneofs : List Oneof := []
  enums : List EnumType := []
  isMapEntry : Bool := false
  deriving DecidableEq, Repr

/-- A message type with the messages nested in it. -/
inductive Message where
  | mk (head : MessageHead) (nested : List Message)
  deriving Repr

/-- What a message declares, the messages nested in it left out. -/
def Message.head : Message → MessageHead
  | mk head _ => head

/-- The messages nested directly in a message. -/
def Message.nested : Message → List Message
  | mk _ nested => nested

/-- A file of declarations. `dialect` is the version of the schema
language it is written in. -/
structure File where
  name : Verbatim
  package : Option Verbatim := none
  dialect : Verbatim := "proto2"
  dependencies : List Verbatim := []
  messages : List Message := []
  enums : List EnumType := []
  deriving Repr

/-- The version of the compiler that sent a request. -/
structure Version where
  major : Int := 0
  minor : Int := 0
  patch : Int := 0
  deriving DecidableEq, Repr

/-- The wording of a version. -/
def Version.text (v : Version) : String :=
  toString v.major ++ "." ++ toString v.minor ++ "." ++ toString v.patch

end OdinSchema
