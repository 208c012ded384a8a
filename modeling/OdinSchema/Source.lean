import OdinSchema.Declaration.Message

/-!
# The text of a generated file

A generated file has a header, the package clause, the declarations of
its messages, the aliases these asked for, and the enums of the file.
-/

namespace OdinSchema

/-- The comment that opens a generated file. -/
def header (version : Version) : List String :=
  ["// Auto-generated by odin-protoc-plugin (https://github.com/lordhippo/odin-protoc-plugin)",
    "// protoc version: " ++ version.text,
    "// Use with the runtime odin-protobuf library (https://github.com/lordhippo/odin-protobuf)"]

/-- The scope of a file. A package that is no text is none: names cannot be
seen from it. -/
def File.scope (f : File) : Scope :=
  .ofPackage (f.package.bind Verbatim.text?)

/-- The step that writes the package clause of a file. -/
def File.packageStep (base : String) (f : File) : Step :=
  match f.package with
  | none => .line ("package " ++ packageIdentifier base none)
  | some (.text package) => .line ("package " ++ packageIdentifier base (some package))
  | some (.bytes _) => .refuse (.illegible .start)

/-- The steps that write what stands before the declarations of a file. -/
def File.preambleSteps (base : String) (version : Version) (f : File) : List Step :=
  (header version).map .line ++ [.line "", f.packageStep base]

/-- The steps that write the messages of a file. -/
def File.messageSteps (f : File) : List Step :=
  f.messages.flatMap (·.steps f.scope)

/-- The line that declares an alias. -/
def aliasLine (name : Verbatim) (underlying : String) : String :=
  name.shown ++ " :: distinct " ++ underlying

/-- The lines that declare the aliases of a table, in its order. -/
def AliasTable.lines (aliases : AliasTable) : List String :=
  aliases.entries.map fun (name, underlying) => aliasLine name underlying

/-- The lines that declare the enums of a file. -/
def File.enumLines (f : File) : List String :=
  f.enums.flatMap (·.lines f.scope)

/-- The draft of a file's messages, and why it is refused if it is. -/
def File.draft (base : String) (version : Version) (f : File) : Draft × Option Refusal :=
  Draft.perform { events := [.rendering f.name] } (f.preambleSteps base version ++ f.messageSteps)

/-- Lines as a text: each ends with a line break. -/
def joinLines (lines : List String) : String :=
  String.join (lines.map (· ++ "\n"))

/-- The text of a file whose messages are drafted: the aliases and the
enums of the file follow. -/
def File.finish (f : File) (draft : Draft) : String :=
  joinLines (draft.lines ++ draft.aliases.lines ++ f.enumLines)

/-- The text of a generated file. -/
def File.source (base : String) (version : Version) (f : File) : Except Refusal String :=
  match f.draft base version with
  | (draft, none) => .ok (f.finish draft)
  | (_, some refusal) => .error refusal

/-- The name of the file generated for a schema file: a known ending is
replaced. -/
def outputName (name : String) : String :=
  let chars := name.toList
  let stem := [".protodevel", ".proto"].findSome? fun ending =>
    (ending.toList.reverse.isPrefixOf? chars.reverse).map List.reverse
  .ofList (stem.getD chars) ++ ".pb.odin"

end OdinSchema
