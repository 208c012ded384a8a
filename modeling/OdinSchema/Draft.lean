import OdinSchema.Dictionary
import OdinSchema.Event

/-!
# Drafts, and the steps that write them

A declaration is turned into a list of steps, which depend on nothing but
the declaration; a draft performs them in order. The steps of different
declarations meet only in the table of aliases, so all interaction is in
`Draft.perform`. A step that refuses ends the performance and leaves what
was written before it.
-/

namespace OdinSchema

/-- One step of writing a file. -/
inductive Step where
  /-- Write a line. -/
  | line (text : String)
  /-- Let an alias stand for a type, on behalf of a field. -/
  | bind (field : FieldHead) (name : Verbatim) (underlying : String)
  /-- Record an event. -/
  | note (event : Event)
  /-- Write no further. -/
  | refuse (refusal : Refusal)

/-- The type an alias stands for, by alias, in the order the aliases were
first bound. -/
abbrev AliasTable := Dictionary Verbatim String

/-- What has been written of a file. -/
structure Draft where
  lines : List String := []
  aliases : AliasTable := .empty
  events : List Event := []

/-- Bind an alias. A binding once made stays, and asking for the same one
again is recorded again. -/
def Draft.bind (d : Draft) (name : Verbatim) (underlying : String) : String × Draft :=
  match d.aliases.define name underlying with
  | (bound, aliases) =>
    if bound = underlying then
      (bound, { d with aliases, events := d.events ++ [.aliasBound name underlying] })
    else (bound, d)

/-- Perform steps until one of them refuses. -/
def Draft.perform (d : Draft) : List Step → Draft × Option Refusal
  | [] => (d, none)
  | .line text :: steps => perform { d with lines := d.lines ++ [text] } steps
  | .note event :: steps => perform { d with events := d.events ++ [event] } steps
  | .refuse refusal :: _ => (d, some refusal)
  | .bind field name underlying :: steps =>
    match d.bind name underlying with
    | (bound, d) =>
      if bound = underlying then perform d steps
      else (d, some (field.refuse (.aliasConflict name bound underlying)))

end OdinSchema
