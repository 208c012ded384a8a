import OdinSchema.Name
import OdinSchema.Schema

/-!
# Odin spellings of field types

Scalars have a builtin Odin type, messages and enums are spelled by their
identifier in the scope, a repeated field is a slice and a map field a
map over the spellings of its key and value.
-/

namespace OdinSchema

/-- The builtin Odin type of a type code. Messages, groups, enums and
unknown codes have none. -/
def TypeCode.builtin (code : TypeCode) : String :=
  match code with
  | 1 => "f64"
  | 2 => "f32"
  | 3 => "i64"
  | 4 => "u64"
  | 5 => "i32"
  | 6 => "u64"
  | 7 => "u32"
  | 8 => "bool"
  | 9 => "string"
  | 12 => "[]u8"
  | 13 => "u32"
  | 15 => "i32"
  | 16 => "i64"
  | 17 => "i32"
  | 18 => "i64"
  | _ => ""

/-- The full name of the type a field refers to, if it refers to one. -/
def FieldHead.reference? (f : FieldHead) : Option String :=
  match f.kind with
  | .message | .enum => f.typeName.filter (· ≠ "")
  | .scalar | .map => none

/-- The spelling of a field's type, taken without its cardinality. -/
def FieldHead.baseSpelling (scope : Scope) (f : FieldHead) : String :=
  match f.reference? with
  | some fullName => scope.resolve fullName
  | none => f.code.builtin

/-- The spelling of a field's declared type. -/
def Field.spelling (scope : Scope) : Field → String
  | .map _ key value => "map[" ++ key.spelling scope ++ "]" ++ value.spelling scope
  | .single head =>
    if head.cardinality = .repeated then "[]" ++ head.baseSpelling scope
    else head.baseSpelling scope

end OdinSchema
