import OdinSchema.Generation
import OdinSchema.Proofs.Loading

/-!
# A request is answered with all of its files or with none

The targets of a request are rendered in turn, and the files they give are
collected on the way. A run over targets that all render collects the files
of each of them, in order (`renderTargets_append`); the first target that
does not render decides the answer alone, whatever was collected before it
and whatever is asked for after it (`renderTargets_stop`,
`renderTargets_congr`). Which targets these are when none are asked for is
a fact about loading: the loaded files are listed by the names of the
request, each where it occurs first (`keys_of_loads`).
-/

namespace OdinSchema

variable {loaded : Dictionary Verbatim File} {renderer renderer' : Renderer}
variable {before after after' targets : List Verbatim} {t : Verbatim}

/-! ## The targets of a request -/

/-- Loading files adds their names to the loaded ones. -/
theorem keys_of_gives_loadFiles {files : List FileDescriptor} {u : Unit} {c c' : Catalog}
    (names : List Verbatim) (h : (loadFiles files).Gives c u c') (hc : c.files.keys = names.eraseDups) :
    c'.files.keys = (names ++ files.map (·.name)).eraseDups := by
  induction files generalizing c names with
  | nil => simpa [gives_loadFiles_nil.1 h] using hc
  | cons d rest ih =>
    obtain ⟨f, c₁, hf, hrest⟩ := gives_loadFiles_cons.1 h
    have hkept : c₁.files.keys = names.eraseDups := by
      rw [FileDescriptor.files_eq_of_gives_load hf, hc]
    rw [ih _ hrest (Dictionary.keys_set_of_keys_eq hkept), List.append_assoc]
    rfl

/-- **The loaded files are listed by the names of the request**, each in
the place where it occurs first. -/
theorem keys_of_loads {files : List FileDescriptor} (h : Loads files loaded) :
    loaded.keys = (files.map (·.name)).eraseDups := by
  obtain ⟨c, hfiles, -, rfl⟩ := loads_iff.1 h
  exact keys_of_gives_loadFiles [] hfiles rfl

/-- A name is unknown if no file of the request has it. -/
theorem get?_eq_none_of_loads {files : List FileDescriptor} (h : Loads files loaded) :
    loaded.get? t = none ↔ t ∉ files.map (·.name) := by
  rw [Dictionary.get?_eq_none_iff, keys_of_loads h, List.mem_eraseDups]

/-- The targets of a request: those asked for, and if there are none, the
names of its files, each where it occurs first. -/
def Request.namedTargets (request : Request) : List Verbatim :=
  if request.targets = [] then (request.files.map (·.name)).eraseDups else request.targets

theorem Request.effectiveTargets_eq {request : Request} (h : Loads request.files loaded) :
    request.effectiveTargets loaded = request.namedTargets := by
  rw [effectiveTargets, namedTargets, keys_of_loads h]

/-! ## A run over targets -/

/-- A target that is loaded, and rendered to its end. -/
def Renders (loaded : Dictionary Verbatim File) (renderer : Renderer) (t : Verbatim)
    (files : List Output) : Prop :=
  ∃ file, loaded.get? t = some file ∧ (renderer file).refusal = none ∧
    (renderer file).files = files

/-- A target that is not loaded, or whose rendering is refused. -/
def Stops (loaded : Dictionary Verbatim File) (renderer : Renderer) (t : Verbatim) : Prop :=
  ∀ file, loaded.get? t = some file → (renderer file).refusal ≠ none

/-- Targets that render leave a run with their files, in order. -/
theorem renderTargets_append {parts : List (List Output)} (files : List Output)
    (events : List Event) (after : List Verbatim)
    (h : List.Forall₂ (Renders loaded renderer) before parts) :
    ∃ events', renderTargets loaded renderer files events (before ++ after) =
      renderTargets loaded renderer (files ++ parts.flatten) events' after := by
  induction h generalizing files events with
  | nil => exact ⟨events, by simp⟩
  | @cons s part before parts hs _ ih =>
    obtain ⟨file, hfile, hrefusal, rfl⟩ := hs
    obtain ⟨events', hrun⟩ := ih (files ++ (renderer file).files)
      (events ++ (renderer file).events)
    refine ⟨events', ?_⟩
    rw [List.cons_append, renderTargets]
    simp only [hfile, hrefusal, hrun, List.flatten_cons, List.append_assoc]

/-- A run stops at the first target that does not render, with nothing of
what was collected before. -/
theorem renderTargets_stop (files : List Output) (events : List Event) (t : Verbatim)
    (after : List Verbatim)
    (hbefore : ∀ s ∈ before, ∃ files, Renders loaded renderer s files) :
    (loaded.get? t = none →
      renderTargets loaded renderer files events (before ++ t :: after) =
        .error (.unknownFile t)) ∧
    ∀ file diagnostic, loaded.get? t = some file →
      (renderer file).refusal = some (.diagnostic diagnostic) →
      ∃ events', renderTargets loaded renderer files events (before ++ t :: after) =
        .ok ⟨.refused t diagnostic, events'⟩ := by
  obtain ⟨parts, hparts⟩ : ∃ parts, List.Forall₂ (Renders loaded renderer) before parts := by
    induction before with
    | nil => exact ⟨[], .nil⟩
    | cons s before ih =>
      obtain ⟨hs, hrest⟩ := List.forall_mem_cons.1 hbefore
      obtain ⟨part, hpart⟩ := hs
      obtain ⟨parts, hparts⟩ := ih hrest
      exact ⟨part :: parts, .cons hpart hparts⟩
  obtain ⟨events', hrun⟩ := renderTargets_append files events (t :: after) hparts
  rw [hrun, renderTargets]
  constructor
  · intro hunknown
    simp only [hunknown]
  · intro file diagnostic hfile hrefusal
    simp only [hfile, hrefusal]
    exact ⟨_, rfl⟩

/-- Renderers that agree on the file of a target take the same step there:
the runs can part only if both go on. -/
theorem renderTargets_cons_congr {files : List Output} {events : List Event}
    (hagree : ∀ file, loaded.get? t = some file → renderer' file = renderer file)
    (hrest : ∀ file, loaded.get? t = some file → (renderer file).refusal = none →
      renderTargets loaded renderer' (files ++ (renderer file).files)
          (events ++ (renderer file).events) after' =
        renderTargets loaded renderer (files ++ (renderer file).files)
          (events ++ (renderer file).events) after) :
    renderTargets loaded renderer' files events (t :: after') =
      renderTargets loaded renderer files events (t :: after) := by
  rw [renderTargets, renderTargets]
  cases hfile : loaded.get? t with
  | none => rfl
  | some file =>
    simp only [hagree file hfile]
    cases hrefusal : (renderer file).refusal with
    | none => exact hrest file hfile hrefusal
    | some refusal => cases refusal <;> rfl

/-- **What comes after a target that stops a run does not matter**, nor
what the renderer does with it. -/
theorem renderTargets_congr {files : List Output} {events : List Event}
    (hagree : ∀ s ∈ before ++ [t], ∀ file, loaded.get? s = some file →
      renderer' file = renderer file)
    (hstop : Stops loaded renderer t) :
    renderTargets loaded renderer' files events (before ++ t :: after') =
      renderTargets loaded renderer files events (before ++ t :: after) := by
  induction before generalizing files events with
  | nil =>
    -- the runs would part behind `t`, but neither goes on there
    refine renderTargets_cons_congr (hagree t (by simp)) ?_
    intro file hfile hrefusal
    exact absurd hrefusal (hstop file hfile)
  | cons s before ih =>
    refine renderTargets_cons_congr (hagree s (by simp)) ?_
    intro file _ _
    exact ih fun r hr => hagree r (List.mem_cons_of_mem s hr)

/-! ## The answer to a request -/

section Answer

variable {environment : Option String} {parameter : String} {settings : Settings}

/-- A refusal is reported with the target and the line, and without files. -/
theorem Outcome.response_refused {diagnostic : Diagnostic} :
    (Outcome.refused t diagnostic).response = { error := some (t.shown ++ ": line " ++
      toString diagnostic.line ++ ": " ++ diagnostic.fault.text), files := [] } := by
  have hline : ": line " = ": " ++ "line " := rfl
  simp only [response, Diagnostic.text, hline, String.append_assoc]

/-- A request with accepted settings that loads is answered by a run over
its targets. -/
theorem Request.answer_eq (request : Request) (answering : Settings → Renderer)
    (hparameter : request.parameter = .text parameter)
    (hsettings : Settings.read parameter environment = .ok settings)
    (hloads : Loads request.files loaded) :
    request.answer environment answering =
      (renderTargets loaded (answering settings) [] [.loaded loaded.entries.length]
        request.namedTargets).map fun answer =>
          { answer with events := settings.shown answer.events } := by
  have hload : ({} : Catalog).load request.files =
      (.ok loaded, (({} : Catalog).load request.files).2) := Prod.ext hloads rfl
  rw [answer, hparameter]
  simp only [hsettings, generateWith]
  rw [hload]
  simp only [effectiveTargets_eq hloads]

/-- **A request is answered with all of its files or with none.** Settings
that are not accepted are reported, whatever the request describes. Under
accepted settings, and if the files load, a request whose targets all
render is answered with the files of all of them, in order. Otherwise the
first target that is unknown or refused decides: the run fails for its name,
or the response holds the refusal and no file, and nothing that stands
behind that target in the list, or that the renderer would make of it, has
a part in the answer. -/
theorem answer_all_or_nothing (request : Request) (environment : Option String)
    (answering : Settings → Renderer) (parameter : String)
    (hparameter : request.parameter = .text parameter) :
    (∀ cause, Settings.read parameter environment = .error cause →
      (request.answer environment answering).map (·.outcome.response) =
        .ok { error := some ("Invalid configuration: " ++ cause.text), files := [] }) ∧
    ∀ settings loaded, Settings.read parameter environment = .ok settings →
      Loads request.files loaded →
      (∀ parts, List.Forall₂ (Renders loaded (answering settings)) request.namedTargets parts →
        (request.answer environment answering).map (·.outcome.response) =
          .ok { error := none, files := parts.flatten }) ∧
      ∀ before t after, request.namedTargets = before ++ t :: after →
        (∀ s ∈ before, ∃ files, Renders loaded (answering settings) s files) →
        (t ∉ request.files.map (·.name) →
          request.answer environment answering = .error (.unknownFile t)) ∧
        (∀ file diagnostic, loaded.get? t = some file →
          (answering settings file).refusal = some (.diagnostic diagnostic) →
          ∃ text, text = t.shown ++ ": line " ++ toString diagnostic.line ++ ": " ++
              diagnostic.fault.text ∧ text ≠ "" ∧
            (request.answer environment answering).map (·.outcome.response) =
              .ok { error := some text, files := [] }) ∧
        (Stops loaded (answering settings) t → ∀ after' answering',
          (∀ s ∈ before ++ [t], ∀ file, loaded.get? s = some file →
            answering' settings file = answering settings file) →
          { request with targets := before ++ t :: after' }.answer environment answering' =
            request.answer environment answering) := by
  refine ⟨?_, ?_⟩
  · intro cause hcause
    simp only [Request.answer, hparameter, hcause]
    rfl
  intro settings loaded hsettings hloads
  have hanswer := request.answer_eq answering hparameter hsettings hloads
  refine ⟨?_, ?_⟩
  · intro parts hparts
    obtain ⟨events, hrun⟩ := renderTargets_append [] [.loaded loaded.entries.length] [] hparts
    rw [List.append_nil, List.nil_append] at hrun
    rw [hanswer, hrun]
    rfl
  intro before t after htargets hbefore
  rw [htargets] at hanswer
  obtain ⟨hunknown, hrefused⟩ :=
    renderTargets_stop [] [.loaded loaded.entries.length] t after hbefore
  refine ⟨?_, ?_, ?_⟩
  · intro hname
    rw [hanswer, hunknown ((get?_eq_none_of_loads hloads).2 hname)]
    rfl
  · intro file diagnostic hfile hrefusal
    obtain ⟨events, hrun⟩ := hrefused file diagnostic hfile hrefusal
    refine ⟨_, rfl, ?_, ?_⟩
    · intro hempty
      simp at hempty
    · rw [hanswer, hrun, ← Outcome.response_refused]
      rfl
  · intro hstop after' answering' hagree
    rw [hanswer, Request.answer_eq { request with targets := before ++ t :: after' } answering'
      hparameter hsettings hloads]
    have hnamed : { request with targets := before ++ t :: after' }.namedTargets =
        before ++ t :: after' := by
      simp [Request.namedTargets]
    rw [hnamed, renderTargets_congr hagree hstop]

/-- Of three targets the second is refused after giving a file, and the
third is unknown: the answer holds neither the file of the first nor the
one given before the refusal, and does not mention the third. -/
theorem answer_all_or_nothing_second_of_three :
    let request : Request :=
      { files := [{ name := "b" }, { name := "a" }], targets := ["a", "b", "c"] }
    let answering : Settings → Renderer := fun _ file =>
      if file.name = .text "a" then { files := [⟨"a.odin", "A"⟩] }
      else { files := [⟨"b.odin", "B"⟩], refusal := some (.diagnostic ⟨3, .stated "no"⟩) }
    (request.answer none answering).map (·.outcome.response) =
      .ok { error := some "b: line 3: no", files := [] } := by
  intro request answering
  have hsettings : Settings.read (some "") none = .ok {} := rfl
  obtain ⟨loaded, hloads⟩ : ∃ loaded, Loads request.files loaded := ⟨_, rfl⟩
  have ha : Renders loaded (answering {}) "a" [⟨"a.odin", "A"⟩] := by
    cases hloads
    exact ⟨_, rfl, rfl, rfl⟩
  have hb : ∃ file, loaded.get? "b" = some file ∧ file.name = "b" := by
    cases hloads
    exact ⟨_, rfl, rfl⟩
  obtain ⟨file, hfile, hname⟩ := hb
  obtain ⟨text, rfl, -, hresponse⟩ := (((answer_all_or_nothing request none answering "" rfl).2
    {} loaded hsettings hloads).2 ["a"] "b" ["c"] rfl (by simpa using ⟨_, ha⟩)).2.1
    file ⟨3, .stated "no"⟩ hfile (by simp [answering, hname])
  exact hresponse

end Answer

end OdinSchema
