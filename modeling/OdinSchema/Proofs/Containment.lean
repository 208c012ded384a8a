import OdinSchema.Proofs.ErrorLocation
import OdinSchema.Proofs.NormalPath
import OdinSchema.Proofs.Writing

/-!
# Which files a run of the tool can reach

The path of a generated file comes from the name of a file in the set: its
ending is replaced, and it is read below the output directory. Nothing else
is done with the name, so double dots and roots in it count, and a run can
write outside of the directory. It stays inside with a name that goes up no
further than it comes back, as every relative name without double dots does
(`comesBelow_outputName`).

Whatever a run ends with, the files that it changes are at the normal forms of
these paths (`get?_placeAll_of_ne`).
-/

namespace OdinSchema

/-! ## The path of a generated file -/

section OutputName

variable {base : Address} {name : String}

/-- A name keeps what is in front of its ending, and no ending has a slash. -/
theorem exists_stem (name : String) :
    ∃ stem dropped : List Char, name.toList = stem ++ dropped ∧ '/' ∉ dropped ∧
      (outputName name).toList = stem ++ ".pb.odin".toList := by
  rw [outputName, String.toList_append, String.toList_ofList]
  cases hstem : [".protodevel", ".proto"].findSome? fun ending =>
      (ending.toList.reverse.isPrefixOf? name.toList.reverse).map List.reverse with
  | none => exact ⟨name.toList, [], (List.append_nil _).symm, List.not_mem_nil, rfl⟩
  | some stem =>
    obtain ⟨ending, hending, hfound⟩ := List.exists_of_findSome?_eq_some hstem
    obtain ⟨rest, hrest, rfl⟩ := Option.map_eq_some_iff.1 hfound
    refine ⟨rest.reverse, ending.toList, ?_, ?_, rfl⟩
    · have hname := List.isPrefixOf?_eq_some_iff_append_eq.1 hrest
      rw [← List.reverse_reverse name.toList, ← hname, List.reverse_append, List.reverse_reverse]
    · have hplain : ∀ ending ∈ [".protodevel", ".proto"], '/' ∉ ending.toList := by decide
      exact hplain ending hending

/-- What is added to a text without a slash lengthens its last segment. -/
theorem exists_splitOnP_append (stem : List Char) :
    ∃ pieces last, ∀ added, '/' ∉ added →
      (stem ++ added).splitOnP (· == '/') = pieces ++ [last ++ added] := by
  induction stem with
  | nil =>
    refine ⟨[], [], fun added hadded => List.splitOnP_eq_singleton ?_⟩
    intro c hc
    exact beq_false_of_ne fun hslash => hadded (hslash ▸ hc)
  | cons c stem ih =>
    obtain ⟨pieces, last, hsplit⟩ := ih
    have hcons : ∀ added, '/' ∉ added → (c :: stem ++ added).splitOnP (· == '/') =
        if c == '/' then [] :: (pieces ++ [last ++ added])
        else (pieces ++ [last ++ added]).modifyHead (c :: ·) := by
      intro added hadded
      rw [List.cons_append, List.splitOnP_cons_eq_if_modifyHead, hsplit added hadded]
    by_cases hc : c = '/'
    · exact ⟨[] :: pieces, last, fun added hadded => by rw [hcons added hadded]; simp [hc]⟩
    · -- the character goes to the first piece, which is the last one if there is no other
      rcases pieces with _ | ⟨piece, pieces⟩
      · exact ⟨[], c :: last, fun added hadded => by rw [hcons added hadded]; simp [hc]⟩
      · exact ⟨(c :: piece) :: pieces, last, fun added hadded => by
          rw [hcons added hadded]; simp [hc]⟩

theorem readRoot_eq_relative_iff {chars : List Char} :
    Path.readRoot chars = .relative ↔ chars.head? ≠ some '/' := by
  rw [Path.readRoot.eq_def]
  split
  · simp
  · simp
  · simp
  · rename_i hslash
    rcases chars with _ | ⟨c, rest⟩
    · simp
    · simp only [List.head?_cons, true_iff]
      rintro ⟨⟩
      exact hslash rest rfl

/-- What is added to a text without a slash gives it no root. -/
theorem readRoot_append_eq_relative_iff {stem added : List Char} (h : '/' ∉ added) :
    Path.readRoot (stem ++ added) = .relative ↔ stem.head? ≠ some '/' := by
  rw [readRoot_eq_relative_iff, List.head?_append]
  cases stem with
  | nil => simpa using fun hhead => h (List.mem_of_head? hhead)
  | cons c stem => simp

/-- A generated file has a root if the file it is generated for has one, and a
name of its own below directories that are named there. -/
theorem exists_segments_outputName (name : String) :
    ((Path.read (outputName name)).root = .relative ↔ (Path.read name).root = .relative) ∧
    ∃ above own, (Path.read (outputName name)).segments = above ++ [own] ∧ own ≠ ".." ∧
      above ⊆ (Path.read name).segments := by
  obtain ⟨stem, dropped, hname, hdropped, houtput⟩ := exists_stem name
  have hending : '/' ∉ ".pb.odin".toList := by decide
  refine ⟨?_, ?_⟩
  · simp only [Path.read, hname, houtput, readRoot_append_eq_relative_iff hending,
      readRoot_append_eq_relative_iff hdropped]
  · obtain ⟨pieces, last, hsplit⟩ := exists_splitOnP_append stem
    have hlong : ∀ short : String, short.length < 8 →
        String.ofList (last ++ ".pb.odin".toList) ≠ short := by
      rintro short hshort rfl
      rw [String.length_ofList, List.length_append] at hshort
      exact absurd hshort (Nat.not_lt.2 (Nat.le_add_left 8 last.length))
    refine ⟨(pieces.map .ofList).filter fun s => s ≠ "" && s ≠ ".",
      .ofList (last ++ ".pb.odin".toList), ?_, hlong ".." (by decide), ?_⟩
    · have hkept : (decide (String.ofList (last ++ ".pb.odin".toList) ≠ "") &&
          decide (String.ofList (last ++ ".pb.odin".toList) ≠ ".")) = true :=
        Bool.and_eq_true_iff.2 ⟨decide_eq_true (hlong "" (by decide)),
          decide_eq_true (hlong "." (by decide))⟩
      simp only [Path.read, houtput, hsplit _ hending, List.map_append, List.filter_append,
        List.map_cons, List.map_nil]
      exact congrArg _ (List.filter_cons_of_pos hkept)
    · simp only [Path.read, hname, hsplit _ hdropped, List.map_append, List.filter_append]
      exact List.subset_append_left _ _

/-- A relative name without double dots stays in every directory. -/
theorem comesBelow_outputName (hroot : (Path.read name).root = .relative)
    (hdots : ".." ∉ (Path.read name).segments) :
    (Path.read (outputName name)).ComesBelow base := by
  obtain ⟨hsame, above, own, hsegments, hown, habove⟩ := exists_segments_outputName name
  have hplain : ".." ∉ (Path.read (outputName name)).segments := by
    rw [hsegments, List.mem_append, List.mem_singleton]
    rintro (hmem | rfl)
    · exact hdots (habove hmem)
    · exact hown rfl
  rw [Path.ComesBelow, if_pos (hsame.2 hroot), Course.ofSegments_of_not_mem hplain, Nat.sub_zero,
    List.drop_length, hsegments]
  exact List.ne_nil_iff_exists_cons.1 (List.append_ne_nil_of_right_ne_nil _ (List.cons_ne_nil _ _))

end OutputName

/-! ## The names of generated files -/

section Names

variable {loaded : Dictionary Verbatim File} {renderer : Renderer} {targets : List Verbatim}
variable {outputs : List Output} {settings : Settings} {version : Version}

/-- A run that gives files got through all of its targets. -/
theorem of_renderTargets_generated {files : List Output} {events events' : List Event}
    (h : renderTargets loaded renderer files events targets =
      .ok ⟨.generated outputs, events'⟩) :
    ∃ parts, List.Forall₂ (Renders loaded renderer) targets parts ∧
      outputs = files ++ parts.flatten := by
  induction targets generalizing files events with
  | nil =>
    cases h
    exact ⟨[], .nil, (List.append_nil _).symm⟩
  | cons t rest ih =>
    rw [renderTargets] at h
    cases hfile : loaded.get? t with
    | none =>
      rw [hfile] at h
      cases h
    | some file =>
      simp only [hfile] at h
      cases hrefusal : (renderer file).refusal with
      | none =>
        rw [hrefusal] at h
        obtain ⟨parts, hparts, rfl⟩ := ih h
        refine ⟨(renderer file).files :: parts, .cons ⟨file, hfile, hrefusal, rfl⟩ hparts, ?_⟩
        rw [List.flatten_cons, List.append_assoc]
      | some refusal =>
        rw [hrefusal] at h
        cases refusal <;> cases h

/-- A target that is rendered as Odin source gives one file, named after it. -/
theorem name_of_renders_odin {files : List FileDescriptor} {t : Verbatim} {part : List Output}
    (hloads : Loads files loaded) (h : Renders loaded (.odin settings version) t part) :
    ∃ name content, t = .text name ∧ part = [⟨outputName name, content⟩] := by
  obtain ⟨f, hget, hrefusal, rfl⟩ := h
  obtain ⟨_, d, _, _, _, -, rfl, -, -, hload⟩ := hloads.exists_turn hget
  have hname : f.name = d.name := by
    obtain ⟨-, ms, -, rfl⟩ := FileDescriptor.gives_load.1 hload
    rfl
  unfold Renderer.odin at hrefusal ⊢
  rcases hdraft : f.draft settings.basePackage version with ⟨draft, _ | refusal⟩
  · simp only [hdraft] at hrefusal ⊢
    cases htext : f.name with
    | text name => exact ⟨name, _, hname ▸ htext, rfl⟩
    | bytes bytes =>
      simp only [htext] at hrefusal
      cases hrefusal
  · rw [hdraft] at hrefusal
    cases hrefusal

theorem names_of_renders_odin {files : List FileDescriptor} {parts : List (List Output)}
    (hloads : Loads files loaded)
    (h : List.Forall₂ (Renders loaded (.odin settings version)) targets parts) :
    ∃ names : List String, targets = names.map .text ∧
      parts.flatten.map (·.name) = names.map outputName := by
  induction h with
  | nil => exact ⟨[], rfl, rfl⟩
  | cons ht _ ih =>
    obtain ⟨name, content, rfl, rfl⟩ := name_of_renders_odin hloads ht
    obtain ⟨names, rfl, hnames⟩ := ih
    refine ⟨name :: names, rfl, ?_⟩
    rw [List.flatten_cons, List.map_append, hnames]
    rfl

/-- **The generated files are named after the targets**, in order. -/
theorem Request.names_of_generate {request : Request} {environment : Option String}
    {answer : Answer} (h : request.generate environment = .ok answer)
    (hresponse : answer.outcome.response = { error := none, files := outputs }) :
    ∃ names : List String, request.namedTargets = names.map .text ∧
      outputs.map (·.name) = names.map outputName := by
  have hgenerated : answer.outcome = .generated outputs := by
    cases houtcome : answer.outcome <;> rw [houtcome] at hresponse <;> cases hresponse
    rfl
  obtain ⟨-, settings, loaded, -, -, hloads, ⟨outcome, events⟩, hrun, rfl⟩ :=
    Request.of_answer h (by rw [hgenerated]; rintro cause ⟨⟩)
  rw [hgenerated] at hrun
  obtain ⟨parts, hparts, rfl⟩ := of_renderTargets_generated hrun
  rw [List.nil_append]
  exact names_of_renders_odin hloads hparts

end Names

/-! ## The files that a run changes -/

namespace Tool

section Placing

variable {tree written : FileTree} {p : Path} {directory : String} {files : List Output}
variable {address : Address} {content : Wire.Bytes}

/-- A file that is written is put at the normal form of its path. -/
theorem puts_of_place {text : String} (h : place tree p text = (written, none)) :
    Puts tree written p (Text.encode text) (p.address tree.current) := by
  obtain ⟨made, hmade, hwritten⟩ := place_eq_none_iff.1 h
  obtain ⟨address, hputs⟩ := exists_puts hmade hwritten
  have haddress : p.address tree.current = address := by
    rw [← hputs.keeps.current]
    exact FileTree.resolve_eq_address hputs.resolve
  exact haddress ▸ hputs

/-- One that is not leaves directories behind and nothing else. -/
theorem grows_of_place {text : String} {cause : PathError}
    (h : place tree p text = (written, some cause)) : tree.Grows written := by
  have hgrows := tree.grows_makeDirectories p.parent
  rw [place] at h
  rcases hmade : tree.makeDirectories p.parent with ⟨made, _ | failure⟩
  · rw [hmade] at hgrows
    cases hwrite : made.write p (Text.encode text) with
    | error failure =>
      simp only [hmade, hwrite] at h
      cases h
      exact hgrows
    | ok written =>
      simp only [hmade, hwrite] at h
      cases h
  · rw [hmade] at hgrows
    simp only [hmade] at h
    cases h
    exact hgrows

/-- **Files are changed at the normal forms of the paths alone**, also where
writing breaks off. -/
theorem get?_placeAll_of_ne
    (h : ∀ file ∈ files, (destination directory file).address tree.current ≠ address) :
    (placeAll tree directory files).1.get? address = some (.file content) ↔
      tree.get? address = some (.file content) := by
  induction files generalizing tree with
  | nil => rfl
  | cons file rest ih =>
    obtain ⟨hfile, hrest⟩ := List.forall_mem_cons.1 h
    rw [placeAll]
    rcases hplace : place tree (destination directory file) file.content with ⟨written, _ | cause⟩
    · have hputs := puts_of_place hplace
      rw [← hputs.keeps.current] at hrest
      exact (ih hrest).trans (hputs.other address hfile.symm).get?_eq_file_iff
    · exact ((grows_of_place hplace).entry address).get?_eq_file_iff

/-- Once files are written, there is a file at the normal form of each path. -/
theorem Writes.exists_file {after : FileTree} (h : Writes directory tree files after) :
    ∀ file ∈ files, ∃ content,
      after.get? ((destination directory file).address tree.current) = some (.file content) := by
  intro file hfile
  obtain ⟨address, hresolve⟩ := h.exists_resolve file hfile
  rw [← h.keeps.current, FileTree.resolve_eq_address hresolve]
  rcases h.get? address with ⟨last, -, hcontent⟩ | ⟨hnone, -⟩
  · exact ⟨_, hcontent⟩
  · exact absurd hresolve (hnone file hfile)

end Placing

/-- Where the code generated for a file of a set goes. -/
def placeOf (directory name : String) : Path :=
  (Path.read directory).join (Path.read (outputName name))

theorem map_destination_eq (directory : String) {outputs : List Output} {names : List String}
    (h : outputs.map (·.name) = names.map outputName) :
    outputs.map (destination directory) = names.map (placeOf directory) := by
  induction outputs generalizing names with
  | nil =>
    rw [List.map_eq_nil_iff.1 h.symm]
    rfl
  | cons file rest ih =>
    obtain ⟨name, names, rfl, hname, hrest⟩ := List.map_eq_cons_iff.1 h.symm
    rw [List.map_cons, List.map_cons, ih hrest.symm, destination, placeOf, hname]

section Run

variable {tree : FileTree} {environment : Option String} {words : List String}
variable {arguments : Arguments} {directory : String} {set : Wire.Bytes}
variable {files : List FileDescriptor} {request : Request} {outputs : List Output}
variable {answer : Answer}

/-- **Where the tool writes.** The code for each target goes to a path of its
own. Such a path is below the output directory if and only if the name of the
generated file goes up no further than it comes back, which is so for every
relative name without double dots. However the run ends, it changes files at
these paths alone; if it ends with paths printed, these are the paths, and there
is a file at each. -/
theorem written_below_iff (hwords : Arguments.read words = .ok arguments)
    (hdirectory : arguments.out = some directory)
    (hset : tree.read (Path.read arguments.descriptorSet) = .ok set)
    (hfiles : FileDescriptor.readSet set = some files)
    (hrequest : Tool.request files arguments = .ok request)
    (hanswer : request.generate environment = .ok answer)
    (hresponse : answer.outcome.response = { error := none, files := outputs }) :
    ∃ names : List String, request.namedTargets = names.map .text ∧
      (∀ name ∈ names,
        Below ((Path.read directory).address tree.current)
            ((placeOf directory name).address tree.current) ↔
          (Path.read (outputName name)).ComesBelow ((Path.read directory).address tree.current)) ∧
      (∀ name ∈ names, (Path.read name).root = .relative → ".." ∉ (Path.read name).segments →
        Below ((Path.read directory).address tree.current)
          ((placeOf directory name).address tree.current)) ∧
      (∀ address, (∀ name ∈ names, (placeOf directory name).address tree.current ≠ address) →
        ∀ content, (run tree environment words).1.get? address = some (.file content) ↔
          tree.get? address = some (.file content)) ∧
      ∀ paths, (run tree environment words).2 = .written paths →
        paths = names.map (placeOf directory) ∧
        ∀ name ∈ names, ∃ content, (run tree environment words).1.get?
          ((placeOf directory name).address tree.current) = some (.file content) := by
  obtain ⟨names, htargets, hnames⟩ := request.names_of_generate hanswer hresponse
  have hpaths := map_destination_eq directory hnames
  have hplaces : ∀ P : Path → Prop,
      (∀ name ∈ names, P (placeOf directory name)) ↔
        ∀ file ∈ outputs, P (destination directory file) := by
    intro P
    rw [← List.forall_mem_map, ← hpaths, List.forall_mem_map]
  have hsame : ∀ address,
      (∀ name ∈ names, (placeOf directory name).address tree.current ≠ address) → ∀ content,
        (placeAll tree directory outputs).1.get? address = some (.file content) ↔
          tree.get? address = some (.file content) := by
    intro address hother content
    exact get?_placeAll_of_ne ((hplaces fun path => path.address tree.current ≠ address).1 hother)
  have hgenerate := generate_of_response hfiles hrequest hanswer hresponse
  refine ⟨names, htargets, fun _ _ => below_address_join_iff, ?_, ?_⟩
  · intro name _ hroot hdots
    exact below_address_join_iff.2 (comesBelow_outputName hroot hdots)
  · rcases hplaced : placeAll tree directory outputs with ⟨after, _ | cause⟩
    · have hwrites := placeAll_eq_none_iff.1 hplaced
      rw [hplaced] at hsame
      rw [run_of_writes hwords hdirectory hset hgenerate hwrites]
      refine ⟨hsame, ?_⟩
      rintro paths ⟨⟩
      exact ⟨hpaths, (hplaces fun path => ∃ content,
        after.get? (path.address tree.current) = some (.file content)).2 hwrites.exists_file⟩
    · rw [hplaced] at hsame
      rw [run_of_placeAll_error hwords hdirectory hset hgenerate hplaced]
      refine ⟨hsame, ?_⟩
      intro paths hwritten
      cases cause <;> cases hwritten

end Run

/-- A name that climbs out of the output directory and comes back stays inside
of it, as a plain one does. -/
theorem written_below_iff_comes_back :
    let files : List FileDescriptor := [{ name := "a/b.proto" }, { name := "../o/c.proto" }]
    let tree : FileTree := ({} : FileTree).put ["set"] (.file (FileDescriptor.writeSet files))
    (∀ name ∈ ["a/b.proto", "../o/c.proto"],
      Below ["o"] ((placeOf "o" name).address tree.current)) ∧
    ∀ address, (∀ name ∈ ["a/b.proto", "../o/c.proto"],
      (placeOf "o" name).address tree.current ≠ address) →
        ∀ content, (run tree none ["set", "--out", "o"]).1.get? address = some (.file content) ↔
          tree.get? address = some (.file content) := by
  intro files tree
  let arguments : Arguments := { descriptorSet := "set", out := some "o" }
  let request : Request := { files, targets := files.map (·.name) }
  let text := joinLines (header {} ++ ["", "package proto"])
  let outputs : List Output := [⟨"a/b.pb.odin", text⟩, ⟨"../o/c.pb.odin", text⟩]
  have hwords : Arguments.read ["set", "--out", "o"] = .ok arguments := by with_unfolding_all rfl
  have hset : tree.read (Path.read arguments.descriptorSet) =
      .ok (FileDescriptor.writeSet files) :=
    FileTree.read_eq_ok_iff.2 ⟨["set"], by decide +kernel, FileTree.get?_put (by decide)⟩
  have hfiles : FileDescriptor.readSet (FileDescriptor.writeSet files) = some files := by
    with_unfolding_all rfl
  have hrequest : Tool.request files arguments = .ok request := rfl
  have hanswer : request.generate none = .ok ⟨.generated outputs, []⟩ := by rfl
  obtain ⟨names, htargets, hbelow, hplain, hsame, -⟩ :=
    written_below_iff hwords rfl hset hfiles hrequest hanswer rfl
  have hnamed : request.namedTargets = ["a/b.proto", "../o/c.proto"].map .text := rfl
  obtain rfl : ["a/b.proto", "../o/c.proto"] = names :=
    List.map_injective_iff.2 (fun _ _ => Verbatim.text.inj) (hnamed.symm.trans htargets)
  have hbase : (Path.read "o").address tree.current = ["o"] := by decide +kernel
  rw [hbase] at hbelow hplain
  refine ⟨List.forall_mem_cons.2 ⟨?_, List.forall_mem_singleton.2 ?_⟩, hsame⟩
  · exact hplain _ List.mem_cons_self (by decide +kernel) (by decide +kernel)
  · exact (hbelow _ (by simp)).2 ⟨"c.pb.odin", [], by decide +kernel⟩

/-- **The tool writes outside of its output directory** if the name of a file
starts with double dots. -/
theorem run_writes_outside :
    let tree : FileTree := ({} : FileTree).put ["set"]
      (.file (FileDescriptor.writeSet [{ name := "../x.proto" }]))
    let result := run tree none ["set", "--out", "o"]
    let path := placeOf "o" "../x.proto"
    result.2 = .written [path] ∧ path.text = "o/../x.pb.odin" ∧
      (result.1.get? (path.address tree.current)).isSome = true ∧
      ¬ Below ((Path.read "o").address tree.current) (path.address tree.current) := by
  intro tree result path
  have hpath : path.address tree.current = ["x.pb.odin"] := by decide +kernel
  have hbase : (Path.read "o").address tree.current = ["o"] := by decide +kernel
  refine ⟨by decide +kernel, by decide +kernel, by decide +kernel, ?_⟩
  rw [hpath, hbase]
  rintro ⟨name, rest, heq⟩
  exact absurd (List.cons.inj heq).1 (by decide)

end Tool

end OdinSchema
