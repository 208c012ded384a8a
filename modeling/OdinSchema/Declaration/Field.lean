import OdinSchema.Spelling

/-!
# Field lines

A plain field of a struct is one line: its name, the spelling of its type
and a tag from which an encoder reads the field's number and types.
-/

namespace OdinSchema

/-- Two spaces for each level; there are none at level zero or below. -/
def indentation (depth : Int) : String :=
  .ofList (List.replicate (2 * depth.toNat) ' ')

/-- One entry of a field's tag. -/
def tagEntry (key value : String) : String :=
  key ++ ":\"" ++ value ++ "\""

/-- The entries of a field's tag: number and type code, for a packable
field whether it is packed, for a map the type codes of key and value. -/
def Field.tagEntries (f : Field) : List String :=
  [tagEntry "id" (toString f.head.number), tagEntry "type" (toString f.head.code)] ++
    (if f.head.packable then [tagEntry "packed" (if f.head.packed then "true" else "false")]
      else []) ++
    match f.entry? with
    | some (key, value) =>
      [tagEntry "key_type" (toString key.head.code),
        tagEntry "value_type" (toString value.head.code)]
    | none => []

/-- The tag of a field. -/
def Field.tag (f : Field) : String :=
  " ".intercalate f.tagEntries

/-- The declaration of a field. -/
def Field.declaration (scope : Scope) (f : Field) : String :=
  f.head.name.shown ++ " : " ++ f.spelling scope ++ " `" ++ f.tag ++ "`,"

/-- The line that declares a field at a level. -/
def Field.line (scope : Scope) (depth : Int) (f : Field) : String :=
  indentation depth ++ f.declaration scope

end OdinSchema
