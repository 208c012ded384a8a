import OdinSchema.Declaration.Field
import OdinSchema.Declaration.Plan
import OdinSchema.Draft

/-!
# Oneof declarations

A tagged union lists the spellings of its variants; a variant with a
typedef binds the alias it is spelled by. A raw union lists its members
as field lines and is followed by an enum that numbers them by position.
-/

namespace OdinSchema

/-- The spelling of a member as a variant of a tagged union. -/
def Field.variantSpelling (scope : Scope) (f : Field) : String :=
  match f.head.override with
  | some override =>
    ((override.external <|> override.typedef).map Verbatim.shown).getD (f.spelling scope)
  | none => f.spelling scope

/-- The alias a variant is spelled by, if it has one of its own. -/
def FieldHead.ownAlias? (f : FieldHead) : Option Verbatim :=
  match f.override with
  | some { external := none, typedef } => typedef
  | _ => none

/-- The steps that write a variant of a tagged union. -/
def Field.variantSteps (scope : Scope) (indent : String) (f : Field) : List Step :=
  let line := Step.line (indent ++ f.variantSpelling scope ++ ",")
  match f.head.ownAlias? with
  | some name => [.bind f.head name (f.spelling scope), line]
  | none => [line]

/-- The lines that number the members of a raw union, from `start` on. -/
def discriminants (indent : String) (start : Nat) : List Field → List String
  | [] => []
  | member :: rest =>
    (indent ++ member.head.name.shown ++ " = " ++ toString start ++ ",") ::
      discriminants indent (start + 1) rest

/-- The lines of a raw union and of the enum beside it. -/
def Oneof.rawLines (scope : Scope) (depth : Int) (o : Oneof) : List String :=
  let indent := indentation depth
  [indent ++ o.name.shown ++ ": struct #raw_union \x7b"] ++
    o.members.map (·.line scope (depth + 1)) ++
    [indent ++ "\x7d,", indent ++ o.name.shown ++ "_variant: enum \x7b"] ++
    discriminants (indent ++ "  ") 0 o.members ++
    [indent ++ "\x7d,"]

/-- The steps that write a oneof at a level. -/
def Oneof.steps (scope : Scope) (depth : Int) (o : Oneof) : List Step :=
  let indent := indentation depth
  match o.plan with
  | .error refusal => [.refuse refusal]
  | .ok .tagged =>
    [.line "", .line (indent ++ o.name.shown ++ ": union \x7b")] ++
      o.members.flatMap (·.variantSteps scope (indent ++ "  ")) ++
      [.line (indent ++ "\x7d,")]
  | .ok (.raw type) =>
    [.line "", .note (.rawUnion o.fullName type)] ++ (o.rawLines scope depth).map .line

end OdinSchema
