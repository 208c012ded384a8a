import OdinSchema.Event
import OdinSchema.Name
import OdinSchema.Settings.ParameterList

/-!
# Settings of a run

A run is configured by its parameter list, and its level of detail also
by the environment, which the parameter overrules. Settings are checked
in full before anything is generated.
-/

namespace OdinSchema

/-- The settings of a run. -/
structure Settings where
  basePackage : String := "proto"
  level : Option Level := none
  deriving DecidableEq, Repr

namespace Settings

/-- Where a level was asked for. -/
inductive LevelSource where
  | parameter
  | environment
  deriving DecidableEq, Repr

/-- The wording of a source. -/
def LevelSource.text : LevelSource → String
  | parameter => "parameter log_level"
  | environment => "environment variable PROTOC_GEN_ODIN_LOG_LEVEL"

/-- Why settings are not accepted. -/
inductive Error where
  | basePackage (value : String)
  | level (value : String) (source : LevelSource)
  deriving DecidableEq, Repr

/-- The wording of an error. -/
def Error.text : Error → String
  | basePackage value => "parameter base_package '" ++ value ++ "' is not a valid Odin identifier"
  | level value source =>
    "Unsupported log level '" ++ value ++ "' from " ++ source.text ++ ", expected one of " ++
      ", ".intercalate (Level.all.map Level.name)

/-- The level a text asks for, in any case and with blanks around it. An
empty text asks for none. -/
def readLevel (source : LevelSource) (value : Option String) : Except Error (Option Level) :=
  match value.filter (· ≠ "") with
  | none => .ok none
  | some value =>
    match Level.ofName? (.ofList (Text.upper (Text.trim value.toList))) with
    | some level => .ok (some level)
    | none => .error (.level value source)

/-- The base package a value asks for; an empty one asks for the default. -/
def readBasePackage (value : Option String) : Except Error String :=
  let name := (value.filter (· ≠ "")).getD "proto"
  if passesForIdentifier name.toList then .ok name else .error (.basePackage name)

/-- The settings a parameter list and an environment ask for. -/
def read (parameter environment : Option String) : Except Error Settings := do
  let entries := ParameterList.read (parameter.getD "")
  let basePackage ← readBasePackage (entries.get? "base_package")
  match ← readLevel .parameter (entries.get? "log_level") with
  | some level => return { basePackage, level := some level }
  | none => return { basePackage, level := ← readLevel .environment environment }

/-- The level in force after settings are applied; settings without a level
leave it as it was. -/
def levelAfter (settings : Settings) (current : Option Level) : Option Level :=
  settings.level <|> current

/-- The events that are shown under these settings. -/
def shown (settings : Settings) (events : List Event) : List Event :=
  events.filter fun event => Level.shows settings.level event.level

end Settings

end OdinSchema
