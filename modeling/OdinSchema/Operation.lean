import OdinSchema.Declaration.Message

/-!
# Operations on one table of aliases

Declarations can be written without a file around them: oneofs, messages and
enums one after the other, in one scope and against one table of aliases,
with aliases bound and shapes asked for in between. What an operation bound
before it was refused stays bound, and the next operation goes on from there.
-/

namespace OdinSchema

/-- An operation in a scope, on a table of aliases. -/
inductive Operation where
  /-- Let an alias stand for a type. -/
  | define (name : Verbatim) (underlying : String)
  /-- Find the shape of a oneof. -/
  | plan (oneof : Oneof)
  /-- Write a oneof at a level. -/
  | oneof (oneof : Oneof) (depth : Int)
  /-- Write a message and all that is nested in it. -/
  | message (message : Message)
  /-- Write an enum. -/
  | enum (enum : EnumType)

/-- What an operation gives, the draft it leaves apart. -/
inductive Effect where
  /-- An alias stands for this type. -/
  | bound (underlying : String)
  /-- A oneof has this shape, or this is why it has none. -/
  | planned (plan : Except Refusal Plan)
  /-- A declaration is written, up to a refusal if there is one. -/
  | written (refusal : Option Refusal)

namespace Operation

/-- The steps of an operation that writes; any other has none. -/
def steps (scope : Scope) : Operation → List Step
  | define _ _ | plan _ => []
  | oneof o depth => o.steps scope depth
  | message m => m.steps scope
  | enum e => e.steps scope

/-- Run one operation, with a draft of its own on the table. -/
def run (scope : Scope) (aliases : AliasTable) : Operation → Effect × Draft
  | define name underlying =>
    match ({ aliases } : Draft).bind name underlying with
    | (bound, draft) => (.bound bound, draft)
  | plan o => (.planned o.plan, { aliases })
  | operation =>
    match ({ aliases } : Draft).perform (operation.steps scope) with
    | (draft, refusal) => (.written refusal, draft)

/-- Run operations in turn, each on the table the one before it left. -/
def runAll (scope : Scope) (aliases : AliasTable) : List Operation → List (Effect × Draft)
  | [] => []
  | operation :: rest =>
    let result := operation.run scope aliases
    result :: runAll scope result.2.aliases rest

end Operation

end OdinSchema
