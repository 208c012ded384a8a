import OdinSchema.Catalog.Basic
import OdinSchema.Descriptor.Override
import OdinSchema.Name

/-!
# Loading fields

A field is read off its descriptor, the oneofs of its message and the map
entries known so far. Of several faults the first counts in this order: a
type name that is no text, a map entry without a key or a value, an
unknown oneof, a malformed option.
-/

namespace OdinSchema

namespace FieldDescriptor

/-- The kind a type code stands for, maps taken as the messages they are
made of. -/
def kind (d : FieldDescriptor) : Kind :=
  if d.code = TypeCode.enum then .enum
  else if d.code = TypeCode.message ∨ d.code = TypeCode.group then .message
  else .scalar

/-- The full name a field gives for its type, if its kind has one. -/
def fullTypeName? (d : FieldDescriptor) : Option String :=
  if d.kind = .scalar then none
  else (d.typeName.given?.bind Verbatim.text?).map fun name => .ofList (dropDot name.toList)

/-- Whether a field needs the name of its type and is given none that is
text. -/
def hasIllegibleType (d : FieldDescriptor) : Bool :=
  d.kind ≠ .scalar && d.typeName.text?.isNone

/-- Whether several values can be written together. -/
def packable (d : FieldDescriptor) : Bool :=
  d.label = .repeated &&
    !(d.code = TypeCode.string || d.code = TypeCode.bytes || d.code = TypeCode.message ||
      d.code = TypeCode.group)

/-- The entry message of a field that is a map: a repeated message field
whose type is a known map entry. -/
def entryMessage? (entries : Dictionary String Message) (d : FieldDescriptor) :
    Option Message :=
  if d.kind = .message ∧ d.label = .repeated then d.fullTypeName?.bind entries.get? else none

/-- The reference of a field that has to be checked. A map field needs no
check, as its type is known already. -/
def reference? (entries : Dictionary String Message) (d : FieldDescriptor) :
    Option Reference :=
  match d.entryMessage? entries with
  | some entry => if entry.head.fields.length < 2 then check else none
  | none => check
where
  /-- The reference to a named type. -/
  check : Option Reference :=
    (d.fullTypeName?.filter (· ≠ "")).map fun typeName => ⟨typeName, d.name⟩

/-- What a field declares before it is known to be a map or a member of a
oneof. Values are packed as the field says, and where it does not say,
unless the dialect is the oldest. -/
def head (dialect : Verbatim) (location : Option Location) (d : FieldDescriptor) : FieldHead where
  name := d.name
  number := d.number
  code := d.code
  cardinality := d.label
  kind := d.kind
  typeName := d.fullTypeName?
  packable := d.packable
  packed := d.packable && d.packed.getD (dialect ≠ .text "proto2")
  location := location

/-- The oneof a field belongs to, by name, if it belongs to one. -/
def oneof? (oneofs : List Verbatim) (d : FieldDescriptor) :
    Except LoadError (Option Verbatim) :=
  match d.oneofIndex with
  | none => .ok none
  | some index =>
    match (position? oneofs.length index).bind (oneofs[·]?) with
    | some name => .ok (some name)
    | none => .error .outOfRange

/-- The key and value fields of a field that is a map. -/
def entryFields? (entries : Dictionary String Message) (d : FieldDescriptor) :
    Except LoadError (Option (Field × Field)) :=
  match d.entryMessage? entries with
  | none => .ok none
  | some entry =>
    match entry.head.fields with
    | key :: value :: _ => .ok (some (key, value))
    | _ => .error .outOfRange

/-- The field a descriptor stands for, in a message with the given oneofs
and with the map entries known so far. -/
def toField (dialect : Verbatim) (location : Option Location) (oneofs : List Verbatim)
    (entries : Dictionary String Message) (d : FieldDescriptor) : Except LoadError Field := do
  if d.hasIllegibleType then throw (.illegible .start)
  let entry ← d.entryFields? entries
  let oneof ← d.oneof? oneofs
  let override ← (Override.ofPayloads d.odin).elim (.error .malformedOption) .ok
  let head := { d.head dialect location with oneof, oneofIndex := d.oneofIndex, override }
  match entry with
  | some (key, value) => return .map { head with kind := .map } key value
  | none => return .single head

/-- Load a field, noting its reference first. -/
def load (context : FileContext) (path : List Int) (oneofs : List Verbatim)
    (d : FieldDescriptor) : Load Field := do
  let entries := (← get).entries
  modify fun c => { c with references := c.references ++ (d.reference? entries).toList }
  .ofExcept <|
    d.toField context.dialect (locate context.placements path) oneofs entries

end FieldDescriptor

/-- Load the fields of a message, the first of which is at position
`start`. -/
def loadFields (context : FileContext) (path : List Int) (oneofs : List Verbatim) :
    (start : Nat) → List FieldDescriptor → Load (List Field)
  | _, [] => return []
  | start, d :: rest => do
    let field ← d.load context (path ++ [2, (start : Int)]) oneofs
    let fields ← loadFields context path oneofs (start + 1) rest
    return field :: fields

end OdinSchema
