import OdinSchema.Proofs.AllOrNothing
import OdinSchema.Tool

/-!
# Generating code for a whole set of files

A request that names no files asks for all of them, and the tool that is
given no names asks for them one by one. The two lists of targets come from
different places: the names a request describes, and the names its files are
listed under once they are loaded. Where no name is used twice they are the
same list (`Request.namedTargets_of_nodup`), and the targets matter for an
answer only through that list (`Request.generateWith_of_namedTargets`), so
the two ways to ask for everything are answered alike.

Only names that are text can be listed as targets, so the tool asks for
nothing if one of them is not.
-/

namespace OdinSchema

/-! ## The targets of a request -/

/-- **Targets matter only through the files they name.** A request that does
not load fails before they are looked at. -/
theorem Request.generateWith_of_namedTargets {request : Request} {targets : List Verbatim}
    (h : { request with targets }.namedTargets = request.namedTargets) (renderer : Renderer) :
    { request with targets }.generateWith renderer = request.generateWith renderer := by
  rw [generateWith, generateWith]
  cases hload : ({} : Catalog).load request.files with
  | mk result catalog =>
    cases result with
    | error cause => rfl
    | ok loaded =>
      have hloads : Loads request.files loaded := by rw [Loads, hload]
      have htargets : { request with targets }.effectiveTargets loaded =
          request.effectiveTargets loaded := by
        rw [effectiveTargets_eq hloads, ← h]
        exact effectiveTargets_eq hloads
      simp only [htargets]

theorem Request.generate_of_namedTargets {request : Request} {targets : List Verbatim}
    (h : { request with targets }.namedTargets = request.namedTargets)
    (environment : Option String) :
    { request with targets }.generate environment = request.generate environment := by
  simp only [generate, answer, generateWith_of_namedTargets h]

/-- Where no name is used twice, naming every file comes to the same as
naming none. -/
theorem Request.namedTargets_of_nodup (request : Request)
    (hnames : (request.files.map (·.name)).Nodup) (htargets : request.targets = []) :
    { request with targets := request.files.map FileDescriptor.name }.namedTargets =
      request.namedTargets := by
  rw [namedTargets, namedTargets, if_pos htargets, eraseDups_of_nodup hnames]
  exact ite_self _

namespace Tool

variable {files : List FileDescriptor} {arguments : Arguments}

/-! ## The request of the tool -/

/-- Names that are text are targets as they are. -/
theorem mapM_targetOfFile (h : ∀ file ∈ files, ∃ name, file.name = .text name) :
    files.mapM targetOfFile = .ok (files.map (·.name)) := by
  induction files with
  | nil => rfl
  | cons file rest ih =>
    obtain ⟨⟨name, hname⟩, hrest⟩ := List.forall_mem_cons.1 h
    rw [List.mapM_cons, ih hrest, targetOfFile, hname]
    simp only [List.map_cons, hname]
    rfl

/-- A name that is no text leaves the whole set without targets. -/
theorem mapM_targetOfFile_of_bytes {file : FileDescriptor} {given : List UInt8}
    (hfile : file ∈ files) (hname : file.name = .bytes given) :
    ∃ flaw, files.mapM targetOfFile = .error (.complaint (.unusableName flaw)) := by
  induction files with
  | nil => cases hfile
  | cons first rest ih =>
    cases hfirst : first.name with
    | bytes other =>
      refine ⟨Text.flaw other, ?_⟩
      rw [List.mapM_cons, targetOfFile, hfirst]
      rfl
    | text name =>
      have hrest : file ∈ rest := by
        rcases List.mem_cons.1 hfile with rfl | hrest
        · cases hname.symm.trans hfirst
        · exact hrest
      obtain ⟨flaw, hflaw⟩ := ih hrest
      refine ⟨flaw, ?_⟩
      rw [List.mapM_cons, hflaw, targetOfFile, hfirst]
      rfl

/-- **The tool and a request agree on what everything is.** Of a set of files
whose names are text and all different, the tool that is given no names makes
a request, and in every environment this request has the same outcome as the
one that holds the same files and the same parameter and names no target:
the same answer, with the same events on the way, or the same failure. If a
name is no text, the tool complains of it and makes no request. -/
theorem generate_everything (hnames : (files.map (·.name)).Nodup)
    (hprotos : arguments.protos = []) :
    ((∀ file ∈ files, ∃ name, file.name = .text name) →
      ∃ request, Tool.request files arguments = .ok request ∧
        ∀ environment, request.generate environment =
          ({ files, parameter := .text (arguments.parameter.getD "") } : Request).generate
            environment) ∧
    ∀ file ∈ files, ∀ given, file.name = .bytes given →
      ∃ flaw, Tool.request files arguments = .error (.complaint (.unusableName flaw)) := by
  constructor
  · intro htext
    refine ⟨{ files, targets := files.map FileDescriptor.name,
              parameter := .text (arguments.parameter.getD "") }, ?_, fun environment => ?_⟩
    · rw [Tool.request, targets, if_pos hprotos, mapM_targetOfFile htext]
      rfl
    · have hnamed := Request.namedTargets_of_nodup
        { files, parameter := .text (arguments.parameter.getD "") } hnames rfl
      exact Request.generate_of_namedTargets hnamed environment
  · intro file hfile given hname
    obtain ⟨flaw, hflaw⟩ := mapM_targetOfFile_of_bytes hfile hname
    refine ⟨flaw, ?_⟩
    rw [Tool.request, targets, if_pos hprotos, hflaw]
    rfl

/-- Two files, not in the order of their names, of which the second refers to
a type of the first: both are generated, in their own order. -/
theorem generate_everything_in_order :
    let files : List FileDescriptor :=
      [{ name := "b.proto", messages := [.mk { name := "B", fields :=
          [{ name := "x", number := 1, code := 5 }] } []] },
        { name := "a.proto", messages := [.mk { name := "A", fields :=
          [{ name := "b", number := 1, code := 11, typeName := ".B" }] } []] }]
    let arguments : Arguments := { descriptorSet := "set", out := some "out" }
    let preamble : List String := [
      "// Auto-generated by odin-protoc-plugin (https://github.com/lordhippo/odin-protoc-plugin)",
      "// protoc version: 0.0.0",
      "// Use with the runtime odin-protobuf library (https://github.com/lordhippo/odin-protobuf)",
      "",
      "package proto",
      ""]
    ∃ request, Tool.request files arguments = .ok request ∧
      (∀ environment, request.generate environment =
        ({ files, parameter := "" } : Request).generate environment) ∧
      (request.generate none).map (·.outcome.response) = .ok { files := [
        ⟨"b.pb.odin", "\n".intercalate (preamble ++
          ["B :: struct \x7b", "  x : i32 `id:\"1\" type:\"5\"`,", "\x7d", ""])⟩,
        ⟨"a.pb.odin", "\n".intercalate (preamble ++
          ["A :: struct \x7b", "  b : B `id:\"1\" type:\"11\"`,", "\x7d", ""])⟩] } := by
  intro files arguments preamble
  have hnames : ∀ file ∈ files, ∃ name, file.name = .text name := by
    intro file hfile
    simp only [files, List.mem_cons, List.not_mem_nil, or_false] at hfile
    rcases hfile with rfl | rfl <;> exact ⟨_, rfl⟩
  have hdistinct : (files.map (·.name)).Nodup := by decide
  have hprotos : arguments.protos = [] := rfl
  obtain ⟨request, hrequest, hsame⟩ := (generate_everything hdistinct hprotos).1 hnames
  refine ⟨request, hrequest, hsame, ?_⟩
  rw [hsame none]
  decide +kernel

/-- The name of the only file is no text: the request that names no target
is answered, here with the report of a base package that is no identifier,
and the tool does not make a request at all. -/
theorem illegible_name_not_asked_for :
    let files : List FileDescriptor := [{ name := .bytes [0xff] }]
    let arguments : Arguments :=
      { descriptorSet := "set", out := some "out", parameter := some "base_package=1" }
    (files.map (·.name)).Nodup ∧ arguments.protos = [] ∧
    (∀ request, Tool.request files arguments ≠ .ok request) ∧
    (({ files, parameter := "base_package=1" } : Request).generate none).map
        (·.outcome.response) =
      .ok { error := some ("Invalid configuration: parameter base_package '1' is not a " ++
        "valid Odin identifier") } := by
  refine ⟨by decide, rfl, fun request h => ?_, ?_⟩
  · cases h
  · rfl

end Tool

end OdinSchema
