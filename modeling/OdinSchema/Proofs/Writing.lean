import OdinSchema.Descriptor.Writing
import OdinSchema.Proofs.FileTree
import OdinSchema.Tool

/-!
# What a run of the tool writes

A run writes its files one after the other, and nothing before the generator
has given all of them. One file changes what is at its own address and adds
directories (`Puts`). As directories stay, the paths of earlier files lead
where they led when these were written, so after a run (`Writes.get?`) there
is at every address the last file whose path leads there, or else what was
there before. Paths that are spelled differently may lead to one address.
-/

namespace OdinSchema.Tool

/-! ## Writing files in turn -/

section Writes

variable {tree made written after : FileTree} {p : Path} {content : Wire.Bytes}
variable {directory : String} {file : Output} {files : List Output} {address : Address}

/-- A file is put at an address: the path leads there, and elsewhere
directories may be made where there was nothing. -/
structure Puts (tree written : FileTree) (p : Path) (content : Wire.Bytes) (address : Address) :
    Prop where
  keeps : tree.Keeps written
  resolve : written.resolve p = .ok address
  content : written.get? address = some (.file content)
  other : ∀ other, other ≠ address → tree.GrowsAt written other

theorem exists_puts (hmade : tree.makeDirectories p.parent = (made, none))
    (hwritten : made.write p content = .ok written) :
    ∃ address, Puts tree written p content address := by
  have hgrows : tree.Grows made := by
    have := tree.grows_makeDirectories p.parent
    rwa [hmade] at this
  obtain ⟨address, hresolve, hfree, rfl⟩ := FileTree.write_eq_ok_iff.1 hwritten
  have hroot := FileTree.ne_root_of_get? hfree
  have hkeeps : made.Keeps (made.put address (.file content)) := FileTree.keeps_put hfree
  refine ⟨address, hgrows.keeps.trans hkeeps, hkeeps.resolve hresolve, ?_, fun other hother => ?_⟩
  · rw [FileTree.get?_put hroot, if_pos rfl]
  · rw [FileTree.GrowsAt, FileTree.get?_put hroot, if_neg hother]
    exact hgrows.entry other

/-- Files are written below a directory in turn, each after the directories
above it are made, and no operation on a path fails. -/
inductive Writes (directory : String) : FileTree → List Output → FileTree → Prop
  | nil {tree : FileTree} : Writes directory tree [] tree
  | cons {tree made written after : FileTree} {file : Output} {rest : List Output} :
      tree.makeDirectories (destination directory file).parent = (made, none) →
      made.write (destination directory file) (Text.encode file.content) = .ok written →
      Writes directory written rest after → Writes directory tree (file :: rest) after

theorem place_eq_none_iff {text : String} :
    place tree p text = (written, none) ↔
      ∃ made, tree.makeDirectories p.parent = (made, none) ∧
        made.write p (Text.encode text) = .ok written := by
  rw [place]
  rcases tree.makeDirectories p.parent with ⟨made, _ | cause⟩
  · cases hwrite : made.write p (Text.encode text) <;> simp [hwrite]
  · simp

theorem placeAll_eq_none_iff :
    placeAll tree directory files = (after, none) ↔ Writes directory tree files after := by
  induction files generalizing tree with
  | nil =>
    constructor
    · rintro ⟨⟩
      exact .nil
    · rintro ⟨⟩
      rfl
  | cons file rest ih =>
    rw [placeAll]
    constructor
    · intro h
      rcases hplace : place tree (destination directory file) file.content with ⟨written, _ | cause⟩
      · rw [hplace] at h
        obtain ⟨made, hmade, hwritten⟩ := place_eq_none_iff.1 hplace
        exact .cons hmade hwritten (ih.1 h)
      · rw [hplace] at h
        cases h
    · rintro (_ | ⟨hmade, hwritten, hrest⟩)
      rw [place_eq_none_iff.2 ⟨_, hmade, hwritten⟩]
      exact ih.2 hrest

theorem Writes.keeps (h : Writes directory tree files after) : tree.Keeps after := by
  induction h with
  | nil => exact .refl _
  | cons hmade hwritten _ ih =>
    obtain ⟨address, hputs⟩ := exists_puts hmade hwritten
    exact hputs.keeps.trans ih

/-- Every path leads somewhere once its file is written. -/
theorem Writes.exists_resolve (h : Writes directory tree files after) :
    ∀ file ∈ files, ∃ address, after.resolve (destination directory file) = .ok address := by
  induction h with
  | nil => exact List.forall_mem_nil _
  | cons hmade hwritten hrest ih =>
    obtain ⟨address, hputs⟩ := exists_puts hmade hwritten
    exact List.forall_mem_cons.2 ⟨⟨address, hrest.keeps.resolve hputs.resolve⟩, ih⟩

/-- The last of some files whose path leads to an address. -/
def LastAt (after : FileTree) (directory : String) (files : List Output) (address : Address)
    (last : Output) : Prop :=
  ∃ before later, files = before ++ last :: later ∧
    after.resolve (destination directory last) = .ok address ∧
    ∀ file ∈ later, after.resolve (destination directory file) ≠ .ok address

/-- **What is at an address after files are written**: the last of the files
whose path leads there, or, if there is none, what was there before. -/
theorem Writes.get? (h : Writes directory tree files after) (address : Address) :
    (∃ last, LastAt after directory files address last ∧
      after.get? address = some (.file (Text.encode last.content))) ∨
    (∀ file ∈ files, after.resolve (destination directory file) ≠ .ok address) ∧
      tree.GrowsAt after address := by
  induction h with
  | nil => exact .inr ⟨List.forall_mem_nil _, .inl rfl⟩
  | @cons tree made written after file rest hmade hwritten hrest ih =>
    obtain ⟨place, hputs⟩ := exists_puts hmade hwritten
    have hleads := hrest.keeps.resolve hputs.resolve
    rcases ih with ⟨last, ⟨before, later, hlist, hlast⟩, hcontent⟩ | ⟨hnone, hgrows⟩
    · exact .inl ⟨last, ⟨file :: before, later, by rw [hlist, List.cons_append], hlast⟩, hcontent⟩
    · by_cases hplace : address = place
      · -- this file is the last one here, so what it wrote is still there
        subst hplace
        exact .inl ⟨file, ⟨[], rest, rfl, hleads, hnone⟩,
          hgrows.get?_eq_file_iff.2 hputs.content⟩
      · refine .inr ⟨List.forall_mem_cons.2 ⟨?_, hnone⟩, (hputs.other address hplace).trans hgrows⟩
        rw [hleads]
        exact fun heq => hplace (Except.ok.inj heq).symm

end Writes

/-! ## A run of the tool -/

section Run

variable {tree after : FileTree} {environment : Option String} {words : List String}
variable {arguments : Arguments} {directory : String} {set : Wire.Bytes}
variable {files : List FileDescriptor} {request : Request} {outputs : List Output}

section Generate

variable (hfiles : FileDescriptor.readSet set = some files)
variable (hrequest : Tool.request files arguments = .ok request)
include hfiles hrequest

theorem generate_of_failure {cause : OdinSchema.Failure}
    (h : request.generate environment = .error cause) :
    generate arguments environment set = .error (.ofFailure cause) := by
  simp only [generate, hfiles, hrequest, h]

theorem generate_of_response_error {answer : Answer} {error : String}
    (h : request.generate environment = .ok answer)
    (herror : answer.outcome.response.error = some error) :
    generate arguments environment set = .error (.complaint (.reported error)) := by
  rcases hresponse : answer.outcome.response with ⟨reported, outputs⟩
  rw [hresponse] at herror
  cases herror
  simp only [generate, hfiles, hrequest, h, hresponse]

theorem generate_of_response {answer : Answer} (h : request.generate environment = .ok answer)
    (hresponse : answer.outcome.response = { error := none, files := outputs }) :
    generate arguments environment set = .ok outputs := by
  simp only [generate, hfiles, hrequest, h, hresponse]

end Generate

variable (hwords : Arguments.read words = .ok arguments)
variable (hdirectory : arguments.out = some directory)
variable (hset : tree.read (Path.read arguments.descriptorSet) = .ok set)
include hwords hdirectory hset

theorem run_of_generate_error {ending : Ending}
    (h : generate arguments environment set = .error ending) :
    run tree environment words = (tree, ending) := by
  simp only [run, hwords, hdirectory, runBelow, hset, h]

theorem run_of_writes (h : generate arguments environment set = .ok outputs)
    (hwrites : Writes directory tree outputs after) :
    run tree environment words = (after, .written (outputs.map (destination directory))) := by
  simp only [run, hwords, hdirectory, runBelow, hset, h, placeAll_eq_none_iff.2 hwrites]

theorem run_of_placeAll_error {cause : PathError}
    (h : generate arguments environment set = .ok outputs)
    (hplaced : placeAll tree directory outputs = (after, some cause)) :
    run tree environment words = (after, .ofPathError cause) := by
  simp only [run, hwords, hdirectory, runBelow, hset, h, hplaced]

/-- **The tool writes nothing or everything.** If the generator reports an
error, or fails because of a defect, the tree is left as it was and the run
ends with a complaint and the code 1; any other failure is the failure of the
run and leaves the tree as it was too. If the generator gives files and no
operation on a path fails, the run ends with the code 0 and prints the paths
of all files, in order. Each path then leads to what was written last to the
place it leads to, and every file that none of the paths leads to is what it
was. -/
theorem run_writes_nothing_or_everything
    (hfiles : FileDescriptor.readSet set = some files)
    (hrequest : Tool.request files arguments = .ok request) :
    (∀ answer error, request.generate environment = .ok answer →
      answer.outcome.response.error = some error →
      run tree environment words = (tree, .complaint (.reported error)) ∧
        (run tree environment words).2.code = 1) ∧
    (∀ defect, request.generate environment = .error (.defect defect) →
      run tree environment words = (tree, .complaint (.defect defect)) ∧
        (run tree environment words).2.code = 1) ∧
    (∀ cause, request.generate environment = .error cause → (∀ defect, cause ≠ .defect defect) →
      run tree environment words = (tree, .failure (.unanswered cause))) ∧
    ∀ answer outputs after, request.generate environment = .ok answer →
      answer.outcome.response = { error := none, files := outputs } →
      Writes directory tree outputs after →
      (run tree environment words).1 = after ∧ (run tree environment words).2.code = 0 ∧
      (run tree environment words).2.output =
        joinLines (outputs.map fun file => (destination directory file).text) ∧
      (∀ file ∈ outputs, ∃ address last,
        after.resolve (destination directory file) = .ok address ∧
        LastAt after directory outputs address last ∧
        after.read (destination directory file) = .ok (Text.encode last.content)) ∧
      ∀ address, (∀ file ∈ outputs, after.resolve (destination directory file) ≠ .ok address) →
        ∀ content, after.get? address = some (.file content) ↔
          tree.get? address = some (.file content) := by
  refine ⟨?_, ?_, ?_, ?_⟩
  · intro answer error hanswer herror
    have hrun := run_of_generate_error hwords hdirectory hset
      (generate_of_response_error hfiles hrequest hanswer herror)
    exact ⟨hrun, by rw [hrun]; rfl⟩
  · intro defect hfailure
    have hrun := run_of_generate_error hwords hdirectory hset
      (generate_of_failure hfiles hrequest hfailure)
    exact ⟨hrun, by rw [hrun]; rfl⟩
  · intro cause hfailure hdefect
    rw [run_of_generate_error hwords hdirectory hset
      (generate_of_failure hfiles hrequest hfailure)]
    cases cause with
    | defect defect => exact absurd rfl (hdefect defect)
    | load cause => rfl
    | unknownFile name => rfl
    | illegible cause => rfl
  · intro answer outputs after hanswer hresponse hwrites
    have hrun := run_of_writes hwords hdirectory hset
      (generate_of_response hfiles hrequest hanswer hresponse) hwrites
    refine ⟨by rw [hrun], by rw [hrun]; rfl, ?_, ?_, ?_⟩
    · rw [hrun, Ending.output, List.map_map]
      rfl
    · intro file hfile
      obtain ⟨address, hresolve⟩ := hwrites.exists_resolve file hfile
      rcases hwrites.get? address with ⟨last, hlast, hcontent⟩ | ⟨hnone, -⟩
      · exact ⟨address, last, hresolve, hlast,
          FileTree.read_eq_ok_iff.2 ⟨address, hresolve, hcontent⟩⟩
      · exact absurd hresolve (hnone file hfile)
    · intro address hnone content
      rcases hwrites.get? address with ⟨last, ⟨before, later, hlist, hresolve, -⟩, -⟩ | ⟨-, hgrows⟩
      · exact absurd hresolve (hnone last (hlist ▸ List.mem_append_right _ List.mem_cons_self))
      · exact hgrows.get?_eq_file_iff

end Run

/-- Two files go to one place by different paths, the second through a
directory that is made for it. Both paths are printed, and both lead to the
text of the second file. -/
theorem run_writes_nothing_or_everything_one_place :
    let files : List FileDescriptor :=
      [{ name := "a.proto" }, { name := "x/../a.protodevel", package := "p" }]
    let tree : FileTree := ({} : FileTree).put ["set"] (.file (FileDescriptor.writeSet files))
    let result := run tree none ["set", "--out", "o"]
    result.2.output = "o/a.pb.odin\no/x/../a.pb.odin\n" ∧
    result.1.read (Path.read "o/a.pb.odin") =
      .ok (Text.encode (joinLines (header {} ++ ["", "package proto_p"]))) := by
  intro files tree result
  let arguments : Arguments := { descriptorSet := "set", out := some "o" }
  let request : Request := { files, targets := files.map (·.name) }
  let first : Output := ⟨"a.pb.odin", joinLines (header {} ++ ["", "package proto"])⟩
  let second : Output := ⟨"x/../a.pb.odin", joinLines (header {} ++ ["", "package proto_p"])⟩
  have hwords : Arguments.read ["set", "--out", "o"] = .ok arguments := by with_unfolding_all rfl
  have hset : tree.read (Path.read arguments.descriptorSet) =
      .ok (FileDescriptor.writeSet files) :=
    FileTree.read_eq_ok_iff.2 ⟨["set"], by decide +kernel, FileTree.get?_put (by decide)⟩
  have hfiles : FileDescriptor.readSet (FileDescriptor.writeSet files) = some files := by
    with_unfolding_all rfl
  have hrequest : Tool.request files arguments = .ok request := rfl
  have hanswer : request.generate none = .ok ⟨.generated [first, second], []⟩ := by rfl
  let after := (placeAll tree "o" [first, second]).1
  have hwrites : Writes "o" tree [first, second] after :=
    placeAll_eq_none_iff.1 (Prod.ext rfl (by decide +kernel))
  have hplaces : ∀ file ∈ [first, second],
      after.resolve (destination "o" file) = .ok ["o", "a.pb.odin"] := by
    decide +kernel
  obtain ⟨hafter, -, houtput, hpaths, -⟩ := (run_writes_nothing_or_everything hwords rfl hset
    hfiles hrequest).2.2.2 _ _ after hanswer rfl hwrites
  refine ⟨houtput.trans (by decide +kernel), ?_⟩
  obtain ⟨address, last, haddress, ⟨before, later, hlist, hlast, hlater⟩, hread⟩ :=
    hpaths first List.mem_cons_self
  have hsame : Except.ok ["o", "a.pb.odin"] = Except.ok address :=
    (hplaces first List.mem_cons_self).symm.trans haddress
  have hsecond : last = second := by
    rcases before with _ | ⟨x, _ | ⟨y, rest⟩⟩
    · obtain ⟨-, rfl⟩ := List.cons.inj hlist
      exact absurd ((hplaces second (by simp)).trans hsame) (hlater second List.mem_cons_self)
    · exact (List.cons.inj (List.cons.inj hlist).2).1.symm
    · simpa using congrArg List.length hlist
  have hpath : Path.read "o/a.pb.odin" = destination "o" first := by decide +kernel
  rw [hafter, hpath, hread, hsecond]

end OdinSchema.Tool
