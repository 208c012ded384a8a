import OdinSchema.Descriptor

/-!
# The option that overrides a field's type

The option is a message with two members, of which the one read last
counts. It may occur several times, and its occurrences are read as one.
-/

namespace OdinSchema.Override

/-- The number of the option among the options of a field. -/
def optionNumber : Nat := 51617

/-- A member of the option. -/
inductive Member where
  | external
  | typedef
  deriving DecidableEq, Repr

/-- The number of a member. -/
def Member.number : Member → Nat
  | external => 1
  | typedef => 2

/-- The override that sets one member. -/
def Member.set (text : Verbatim) : Member → Override
  | external => { external := some text }
  | typedef => { typedef := some text }

/-- The member a record sets, with the encoded text. -/
def member? (r : Wire.Record) : Option (Member × Wire.Bytes) :=
  match r.value with
  | .bytes payload =>
    if r.number = Member.external.number then some (.external, payload)
    else if r.number = Member.typedef.number then some (.typedef, payload)
    else none
  | _ => none

/-- The override that the records of the option set. -/
def ofRecords (records : List Wire.Record) : Override :=
  match (records.filterMap member?).getLast? with
  | none => {}
  | some (member, payload) => member.set (.read payload)

/-- The override that the occurrences of the option set, if there are any.
The outer result is none if an occurrence is malformed. -/
def ofPayloads (payloads : List Wire.Bytes) : Option (Option Override) :=
  if payloads = [] then some none
  else (payloads.mapM (Wire.Record.readAll 99)).map fun records => some (ofRecords records.flatten)

/-- The occurrence of the option that sets members in turn. -/
def payload (members : List (Member × Verbatim)) : Wire.Bytes :=
  Wire.Record.writeAll (members.map fun (member, text) =>
    Wire.verbatimRecord member.number text)

end OdinSchema.Override
