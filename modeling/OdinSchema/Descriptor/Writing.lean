import OdinSchema.Descriptor.Override

/-!
# Writing descriptors

The encoded form of a set of files, as a compiler stores it. Options are
a message of their own, which is left out if none is set.
-/

namespace OdinSchema

open Wire

/-- The label of a cardinality. -/
def Cardinality.label : Cardinality → Int
  | optional => 1
  | required => 2
  | repeated => 3

/-- The record of the options of a declaration under a number. -/
def optionsRecord (number : Nat) (options : List Record) : List Record :=
  if options = [] then [] else [messageRecord number options]

/-- The options of a field. -/
def FieldDescriptor.options (f : FieldDescriptor) : List Record :=
  f.packed.toList.map (boolRecord 2) ++
    f.odin.map fun payload => ⟨Override.optionNumber, .bytes payload⟩

/-- The records of a field. -/
def FieldDescriptor.records (f : FieldDescriptor) : List Record :=
  [verbatimRecord 1 f.name, int32Record 3 f.number, int32Record 4 f.label.label,
    int32Record 5 f.code, verbatimRecord 6 f.typeName] ++
    optionsRecord 8 f.options ++
    f.oneofIndex.toList.map (int32Record 9)

/-- The records of an enum. -/
def EnumDescriptor.records (e : EnumDescriptor) : List Record :=
  verbatimRecord 1 e.name ::
    e.values.map fun v => messageRecord 2 [verbatimRecord 1 v.name, int32Record 2 v.number]

mutual

/-- The records of a message. -/
def MessageDescriptor.records : MessageDescriptor → List Record
  | .mk head nested =>
    [verbatimRecord 1 head.name] ++
      head.fields.map (fun f => messageRecord 2 f.records) ++
      MessageDescriptor.nestedRecords nested ++
      head.enums.map (fun e => messageRecord 4 e.records) ++
      optionsRecord 7 (head.mapEntry.toList.map (boolRecord 7)) ++
      head.oneofs.map fun name => messageRecord 8 [verbatimRecord 1 name]

/-- The records that nest messages in a message. -/
def MessageDescriptor.nestedRecords : List MessageDescriptor → List Record
  | [] => []
  | message :: rest =>
    messageRecord 3 message.records :: MessageDescriptor.nestedRecords rest

end

/-- The records of a place. -/
def Placement.records (p : Placement) : List Record :=
  p.path.map (int32Record 1) ++ p.span.map (int32Record 2)

/-- The records of a file. -/
def FileDescriptor.records (f : FileDescriptor) : List Record :=
  [verbatimRecord 1 f.name, verbatimRecord 2 f.package] ++
    f.dependencies.map (verbatimRecord 3) ++
    f.messages.map (fun m => messageRecord 4 m.records) ++
    f.enums.map (fun e => messageRecord 5 e.records) ++
    [messageRecord 9 (f.placements.map fun p => messageRecord 1 p.records),
      verbatimRecord 12 f.dialect]

/-- A set of files as bytes. -/
def FileDescriptor.writeSet (files : List FileDescriptor) : Bytes :=
  Record.writeAll (files.map fun f => messageRecord 1 f.records)

end OdinSchema
