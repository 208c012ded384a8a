import OdinSchema.Declaration.Oneof

/-!
# Enum and message declarations

An enum is a block of named numbers. A message is a struct of its plain
fields and its oneofs, followed by the messages and then the enums nested
in it. The entry messages of maps have no declaration: a map field is
spelled as a map.
-/

namespace OdinSchema

/-- The lines of an enum. -/
def EnumType.lines (scope : Scope) (e : EnumType) : List String :=
  ["", scope.resolve e.fullName ++ " :: enum \x7b"] ++
    e.values.map (fun v => "  " ++ v.name.shown ++ " = " ++ toString v.number ++ ",") ++ ["\x7d"]

/-- The steps that write an enum. -/
def EnumType.steps (scope : Scope) (e : EnumType) : List Step :=
  (e.lines scope).map .line

/-- The fields of a message that belong to no oneof. -/
def MessageHead.plainFields (m : MessageHead) : List Field :=
  m.fields.filter (·.head.oneof.isNone)

/-- The steps that write the struct of a message. -/
def MessageHead.structSteps (scope : Scope) (m : MessageHead) : List Step :=
  [.line "", .line (scope.resolve m.fullName ++ " :: struct \x7b")] ++
    m.plainFields.map (fun f => .line (f.line scope 1)) ++
    m.oneofs.flatMap (·.steps scope 1) ++
    [.line "\x7d"]

mutual

/-- The steps that write a message and all that is nested in it. -/
def Message.steps (scope : Scope) : Message → List Step
  | .mk head nested =>
    if head.isMapEntry then [.refuse (.defect (.mapEntry head.fullName))]
    else
      head.structSteps scope ++ Message.nestedSteps scope nested ++
        head.enums.flatMap (·.steps scope)

/-- The steps that write nested messages, map entries left out. -/
def Message.nestedSteps (scope : Scope) : List Message → List Step
  | [] => []
  | message :: rest =>
    (if message.head.isMapEntry then [] else message.steps scope) ++
      Message.nestedSteps scope rest

end

end OdinSchema
