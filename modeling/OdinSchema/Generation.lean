import OdinSchema.Catalog.File
import OdinSchema.Descriptor.Reading
import OdinSchema.Response
import OdinSchema.Settings
import OdinSchema.Source

/-!
# Generating code for a request

A request is answered with all of its files or with one error: the first
target that is refused ends the run, and what earlier targets gave is
dropped. Requests that cannot be answered at all, because they do not
load, name an unknown target, hold a declaration no line can be blamed
for or lack a text that is needed, end in a failure instead.
-/

namespace OdinSchema

/-- What a renderer makes of a file: the files it gives, what it records,
and why it stopped if it did. -/
structure Rendering where
  files : List Output := []
  events : List Event := []
  refusal : Option Refusal := none

/-- Turns a loaded file into generated ones. -/
abbrev Renderer := File → Rendering

/-- The renderer of Odin sources. -/
def Renderer.odin (settings : Settings) (version : Version) : Renderer := fun f =>
  match f.draft settings.basePackage version with
  | (draft, none) =>
    match f.name with
    | .text name => { files := [⟨outputName name, f.finish draft⟩], events := draft.events }
    | .bytes _ => { events := draft.events, refusal := some (.illegible .ending) }
  | (draft, some refusal) => { events := draft.events, refusal }

/-- Why a request is not answered. -/
inductive Failure where
  | load (cause : LoadError)
  | unknownFile (name : Verbatim)
  | defect (cause : Defect)
  | illegible (cause : Illegible)
  deriving DecidableEq, Repr

/-- The wording of a failure. -/
def Failure.text : Failure → String
  | load cause => cause.text
  | unknownFile name => name.shown
  | defect cause => cause.text
  | illegible cause => cause.text

/-- The outcome of an answered request. -/
inductive Outcome where
  | generated (files : List Output)
  | rejected (cause : Settings.Error)
  | refused (target : Verbatim) (diagnostic : Diagnostic)
  deriving DecidableEq, Repr

/-- The response that reports an outcome. -/
def Outcome.response : Outcome → Response
  | generated files => { files }
  | rejected cause => { error := some ("Invalid configuration: " ++ cause.text) }
  | refused target diagnostic => { error := some (target.shown ++ ": " ++ diagnostic.text) }

/-- An outcome with what was recorded on the way. -/
structure Answer where
  outcome : Outcome
  events : List Event := []

/-- An answer as it is sent back. -/
def Answer.encoded (answer : Answer) : Wire.Bytes :=
  answer.outcome.response.write

/-- Render targets in turn, after those that gave `files` and recorded
`events`. -/
def renderTargets (loaded : Dictionary Verbatim File) (renderer : Renderer) (files : List Output)
    (events : List Event) : List Verbatim → Except Failure Answer
  | [] => .ok ⟨.generated files, events⟩
  | target :: rest =>
    match loaded.get? target with
    | none => .error (.unknownFile target)
    | some file =>
      let rendering := renderer file
      let events := events ++ rendering.events
      match rendering.refusal with
      | none => renderTargets loaded renderer (files ++ rendering.files) events rest
      | some (.diagnostic diagnostic) =>
        .ok ⟨.refused target diagnostic, events ++ [.refused target diagnostic]⟩
      | some (.defect defect) => .error (.defect defect)
      | some (.illegible cause) => .error (.illegible cause)

/-- The files to generate: those asked for, or every loaded file. -/
def Request.effectiveTargets (request : Request) (loaded : Dictionary Verbatim File) :
    List Verbatim :=
  if request.targets = [] then loaded.keys else request.targets

/-- Answer a request under accepted settings. -/
def Request.generateWith (request : Request) (renderer : Renderer) : Except Failure Answer :=
  match ({} : Catalog).load request.files with
  | (.error cause, _) => .error (.load cause)
  | (.ok loaded, _) =>
    renderTargets loaded renderer [] [.loaded loaded.entries.length]
      (request.effectiveTargets loaded)

/-- Answer a request, with a renderer chosen by the settings, and keep the
events that the settings show. -/
def Request.answer (request : Request) (environment : Option String)
    (renderer : Settings → Renderer) : Except Failure Answer :=
  match request.parameter with
  | .bytes _ => .error (.illegible .entries)
  | .text parameter =>
    match Settings.read parameter environment with
    | .error cause => .ok ⟨.rejected cause, []⟩
    | .ok settings =>
      (request.generateWith (renderer settings)).map fun answer =>
        { answer with events := settings.shown answer.events }

/-- Answer a request with Odin sources. -/
def Request.generate (request : Request) (environment : Option String) :
    Except Failure Answer :=
  request.answer environment fun settings => Renderer.odin settings request.version

/-- Why an encoded request is not answered. -/
inductive PluginFailure where
  | malformed
  | unanswered (cause : Failure)
  deriving DecidableEq, Repr

/-- The wording of a failure to answer an encoded request. -/
def PluginFailure.text : PluginFailure → String
  | malformed => "malformed request"
  | unanswered cause => cause.text

/-- Answer an encoded request; an empty one asks for nothing. -/
def respond (input : Wire.Bytes) (environment : Option String) :
    Except PluginFailure Answer :=
  match Request.read input with
  | none => .error .malformed
  | some request =>
    match request.generate environment with
    | .error cause => .error (.unanswered cause)
    | .ok answer => .ok answer

end OdinSchema
