import OdinSchema.Catalog.Field

/-!
# Loading enums and messages

A message is loaded after the messages and enums nested in it, so its own
fields find the map entries nested in it. Its address is a list of field
numbers and positions on the way down from the file.
-/

namespace OdinSchema

/-- Note that a type is declared. -/
def declare (fullName : String) : Load Unit :=
  modify fun c => { c with types := c.types ++ [fullName] }

/-- Load an enum inside the given segments. -/
def EnumDescriptor.load (segments : List Verbatim) (d : EnumDescriptor) : Load EnumType := do
  let fullName ← .ofExcept (qualify (segments ++ [d.name]))
  declare fullName
  return { name := d.name, fullName, values := d.values }

/-- Load enums in turn. -/
def loadEnums (segments : List Verbatim) : List EnumDescriptor → Load (List EnumType)
  | [] => return []
  | d :: rest => do
    let enum ← d.load segments
    let enums ← loadEnums segments rest
    return enum :: enums

/-- Add a member to a oneof. -/
def Oneof.addMember (o : Oneof) (member : Field) : Oneof :=
  { o with members := o.members ++ [member] }

/-- Add a field to the oneof it belongs to, if it belongs to one. -/
def assignMember (oneofs : List Oneof) (field : Field) : List Oneof :=
  match field.head.oneofIndex.bind (position? oneofs.length) with
  | some position => oneofs.modify position (·.addMember field)
  | none => oneofs

mutual

/-- Load a message at an address, inside the given segments. -/
def MessageDescriptor.load (context : FileContext) (segments : List Verbatim) (path : List Int) :
    MessageDescriptor → Load Message
  | .mk head nested => do
    let inner := segments ++ [head.name]
    let fullName ← .ofExcept (qualify inner)
    declare fullName
    let nested ← MessageDescriptor.loadNested context inner path 0 nested
    let enums ← loadEnums inner head.enums
    let fields ← loadFields context path head.oneofs 0 head.fields
    let oneofs := head.oneofs.map fun name => { name, fullName := fullName ++ "." ++ name.shown }
    return .mk {
      name := head.name, fullName, fields, enums
      oneofs := fields.foldl assignMember oneofs
      isMapEntry := head.mapEntry.getD false } nested

/-- Load the messages nested in the message at an address, the first of
which is at position `start`. Map entries become known as they are
loaded. -/
def MessageDescriptor.loadNested (context : FileContext) (segments : List Verbatim)
    (path : List Int) : (start : Nat) → List MessageDescriptor → Load (List Message)
  | _, [] => return []
  | start, d :: rest => do
    let message ← d.load context segments (path ++ [3, (start : Int)])
    if message.head.isMapEntry then
      modify fun c => { c with entries := c.entries.set message.head.fullName message }
    let messages ← MessageDescriptor.loadNested context segments path (start + 1) rest
    return message :: messages

end

/-- Load the messages of a file, the first of which is at position
`start`. -/
def loadMessages (context : FileContext) (segments : List Verbatim) :
    (start : Nat) → List MessageDescriptor → Load (List Message)
  | _, [] => return []
  | start, d :: rest => do
    let message ← d.load context segments [4, (start : Int)]
    let messages ← loadMessages context segments (start + 1) rest
    return message :: messages

end OdinSchema
