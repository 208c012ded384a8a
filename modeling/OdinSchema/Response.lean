import OdinSchema.Wire.Content

/-!
# Responses

The answer to a request: the generated files, or an error and no files.
-/

namespace OdinSchema

/-- A generated file. -/
structure Output where
  name : String
  content : String
  deriving DecidableEq, Repr

/-- The answer to a request. -/
structure Response where
  error : Option String := none
  files : List Output := []
  deriving DecidableEq, Repr

/-- The features a generator declares: it accepts fields that are optional
in every dialect. -/
def supportedFeatures : Nat := 1

/-- The records of a generated file. -/
def Output.records (o : Output) : List Wire.Record :=
  [Wire.textRecord 1 o.name, Wire.textRecord 15 o.content]

/-- The records of a response. -/
def Response.records (r : Response) : List Wire.Record :=
  r.error.toList.map (Wire.textRecord 1) ++ [⟨2, .varint supportedFeatures⟩] ++
    r.files.map fun o => Wire.messageRecord 15 o.records

/-- A response as bytes. -/
def Response.write (r : Response) : Wire.Bytes :=
  Wire.Record.writeAll r.records

end OdinSchema
