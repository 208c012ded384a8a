import OdinSchema.Diagnostic
import OdinSchema.Spelling

/-!
# The shape of a oneof

A oneof whose members have different types becomes a tagged union, and
one that repeats a type a raw union beside an enum of its members. A
member that overrides its type insists on the tagged union: with it, a
repeated type is a fault.

Types are compared by a key that is read off each member alone. The scan
goes through the members in order and ends at the first that decides.
-/

namespace OdinSchema

/-- The shape of a oneof. -/
inductive Plan where
  /-- All variants differ. -/
  | tagged
  /-- Two variants have this type. -/
  | raw (type : Verbatim)
  deriving DecidableEq, Repr

/-- The fault of an override that is set to an empty name. -/
def Override.fault? (o : Override) (field : Verbatim) : Option Fault :=
  if o.external = some (.text "") then some (.emptyExternal field)
  else if o.typedef = some (.text "") then some (.emptyTypedef field)
  else none

/-- The name an override asks for; none is the empty name. -/
def Override.key (o : Override) : Verbatim :=
  (o.external <|> o.typedef).getD ""

/-- What tells a member's type from the other members'. -/
def FieldHead.variantKey (f : FieldHead) : Verbatim :=
  match f.override with
  | some override => override.key
  | none => if f.code = TypeCode.message then .text (f.typeName.getD "") else .text f.code.builtin

/-- The fault of a member whose override is set to an empty name. -/
def FieldHead.overrideFault? (f : FieldHead) : Option Fault :=
  f.override.bind (·.fault? f.name)

/-- Scan the members after those with the keys `seen`, of which one had an
override if `forced`. -/
def Plan.scan (forced : Bool) (seen : List Verbatim) : List Field → Except Refusal Plan
  | [] => .ok .tagged
  | member :: rest =>
    let head := member.head
    match head.overrideFault? with
    | some fault => .error (head.refuse fault)
    | none =>
      let forced := forced || head.override.isSome
      if head.variantKey ∈ seen then
        if forced then .error (head.refuse (.repeatedVariant head.variantKey head.name))
        else .ok (.raw head.variantKey)
      else Plan.scan forced (head.variantKey :: seen) rest

/-- The shape of a oneof, or why it has none. -/
def Oneof.plan (o : Oneof) : Except Refusal Plan :=
  Plan.scan false [] o.members

end OdinSchema
