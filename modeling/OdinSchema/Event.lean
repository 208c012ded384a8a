import OdinSchema.Diagnostic

/-!
# Events worth recording

What a generation run records about itself, and the levels that decide
which records are shown.
-/

namespace OdinSchema

/-- How important a record is. -/
inductive Level where
  | critical
  | error
  | warning
  | info
  | debug
  deriving DecidableEq, Repr

namespace Level

/-- Every level, the most important first. -/
def all : List Level := [critical, error, warning, info, debug]

/-- The name a level is asked for by. -/
def name : Level → String
  | critical => "CRITICAL"
  | error => "ERROR"
  | warning => "WARNING"
  | info => "INFO"
  | debug => "DEBUG"

/-- The weight of a level; heavier records are more important. -/
def weight : Level → Nat
  | critical => 50
  | error => 40
  | warning => 30
  | info => 20
  | debug => 10

/-- The level of that name. -/
def ofName? (name : String) : Option Level :=
  all.find? (·.name = name)

end Level

/-- Something that happened during a run. -/
inductive Event where
  /-- The files of a request were loaded. -/
  | loaded (count : Nat)
  /-- The text of a file is about to be written. -/
  | rendering (file : Verbatim)
  /-- An alias stands for a type. -/
  | aliasBound (name : Verbatim) (underlying : String)
  /-- A oneof has two variants of one type and becomes a raw union. -/
  | rawUnion (oneof : String) (type : Verbatim)
  /-- A file was refused. -/
  | refused (file : Verbatim) (diagnostic : Diagnostic)
  deriving DecidableEq, Repr

/-- The wording of an event. -/
def Event.text : Event → String
  | loaded count => "Loaded " ++ toString count ++ " proto file(s) from request"
  | rendering file => "Rendering " ++ file.shown
  | aliasBound name underlying => "Registered alias " ++ name.shown ++ " -> " ++ underlying
  | rawUnion oneof type =>
    "Oneof " ++ oneof ++ " repeats variant type " ++ type.shown ++ "; emitting #raw_union"
  | refused file diagnostic => "Generation of " ++ file.shown ++ " failed: " ++ diagnostic.text

/-- Events are details of a run, of interest to who looks for a mistake. -/
def Event.level (_ : Event) : Level :=
  .debug

/-- Whether a record of one level is shown to who asked for another;
warnings and above are shown to who did not ask. -/
def Level.shows (asked : Option Level) (level : Level) : Bool :=
  (asked.getD .warning).weight ≤ level.weight

end OdinSchema
