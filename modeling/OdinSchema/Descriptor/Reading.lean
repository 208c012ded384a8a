import OdinSchema.Descriptor.Override

/-!
# Reading descriptors

Descriptors, sets of them and requests, read from their encoded form.
Each reader is told how many levels of messages may still nest; the whole
of a request has one hundred.

A reader looks into the members it takes and into no others. Services,
extensions, the options of files, enums and oneofs, and among the options of a
field all but two, have to be whole records; if such a member is itself a
message, its payload is not read, and nothing is said here about what it
holds. So a reader accepts more than a reader of the full descriptor schema:
the two agree on inputs whose other members are well formed and do not nest
too deep.
-/

namespace OdinSchema

open Wire

/-- The cardinality a label stands for. -/
def Cardinality.ofLabel? (label : Int) : Option Cardinality :=
  match label with
  | 1 => some .optional
  | 2 => some .required
  | 3 => some .repeated
  | _ => none

/-- Whether a number is in the table of type codes. -/
def TypeCode.isKnown (code : TypeCode) : Bool :=
  1 ≤ code && code ≤ 18

/-- The options of a field: whether it is packed, and the encoded
occurrences of the option that overrides its type. -/
def FieldDescriptor.readOptions (records : List Record) : Option Bool × List Bytes :=
  (bool? 2 records, payloads Override.optionNumber records)

/-- A field. Labels and type codes that are not known are left aside. -/
def FieldDescriptor.read (levels : Nat) (bytes : Bytes) : Option FieldDescriptor := do
  let records ← Record.readAll levels bytes
  let (packed, odin) := FieldDescriptor.readOptions (← merged levels 8 records)
  let labels := ((varints 4 records).map toInt32).filterMap Cardinality.ofLabel?
  let codes := ((varints 5 records).map toInt32).filter TypeCode.isKnown
  return {
    packed, odin
    name := text 1 records
    typeName := text 6 records
    number := int32 3 records
    label := labels.getLast?.getD .optional
    code := codes.getLast?.getD 1
    oneofIndex := int32? 9 records }

/-- A name of an enum. -/
def EnumValue.read (levels : Nat) (bytes : Bytes) : Option EnumValue := do
  let records ← Record.readAll levels bytes
  return { name := text 1 records, number := int32 2 records }

/-- An enum. -/
def EnumDescriptor.read (levels : Nat) (bytes : Bytes) : Option EnumDescriptor := do
  let records ← Record.readAll levels bytes
  return { name := text 1 records, values := ← submessages levels EnumValue.read 2 records }

/-- The name of a oneof. -/
def readOneofName (levels : Nat) (bytes : Bytes) : Option Verbatim :=
  (Record.readAll levels bytes).map (text 1)

/-- A message, given a reader of the messages nested in it. -/
def MessageDescriptor.readWith (readNested : Bytes → Option MessageDescriptor) (levels : Nat)
    (bytes : Bytes) : Option MessageDescriptor := do
  let records ← Record.readAll levels bytes
  let fields ← submessages levels FieldDescriptor.read 2 records
  let nested ← (payloads 3 records).mapM readNested
  let enums ← submessages levels EnumDescriptor.read 4 records
  let oneofs ← submessages levels readOneofName 8 records
  let options ← merged levels 7 records
  return .mk { name := text 1 records, fields, enums, oneofs, mapEntry := bool? 7 options } nested

/-- A message. -/
def MessageDescriptor.read : (levels : Nat) → Bytes → Option MessageDescriptor
  | 0 => MessageDescriptor.readWith (fun _ => none) 0
  | levels + 1 => MessageDescriptor.readWith (MessageDescriptor.read levels) (levels + 1)

/-- The place of a declaration. -/
def Placement.read (levels : Nat) (bytes : Bytes) : Option Placement := do
  let records ← Record.readAll levels bytes
  return { path := ← int32s 1 records, span := ← int32s 2 records }

/-- A file. -/
def FileDescriptor.read (levels : Nat) (bytes : Bytes) : Option FileDescriptor := do
  let records ← Record.readAll levels bytes
  let messages ← submessages levels MessageDescriptor.read 4 records
  let enums ← submessages levels EnumDescriptor.read 5 records
  let source ← merged levels 9 records
  let placements ← submessages (levels - 1) Placement.read 1 source
  return {
    enums, messages, placements
    name := text 1 records
    package := text 2 records
    dependencies := texts 3 records
    dialect := text 12 records }

/-- A set of files. -/
def FileDescriptor.readSet (bytes : Bytes) : Option (List FileDescriptor) := do
  submessages 100 FileDescriptor.read 1 (← Record.readAll 100 bytes)

/-- A request. The files as they were before options were stripped must be
well formed too, but are not used. -/
def Request.read (bytes : Bytes) : Option Request := do
  let records ← Record.readAll 100 bytes
  let version ← merged 100 3 records
  let files ← submessages 100 FileDescriptor.read 15 records
  let _ ← submessages 100 FileDescriptor.read 17 records
  return {
    files
    targets := texts 1 records
    parameter := text 2 records
    version := ⟨int32 1 version, int32 2 version, int32 3 version⟩ }

/-- The override among the encoded options of a field. -/
def Override.readOptions (bytes : Bytes) : Option (Option Override) := do
  Override.ofPayloads (FieldDescriptor.readOptions (← Record.readAll 100 bytes)).2

end OdinSchema
