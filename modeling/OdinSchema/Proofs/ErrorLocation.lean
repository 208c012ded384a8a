import OdinSchema.Proofs.AllOrNothing
import OdinSchema.Proofs.Checks
import OdinSchema.Proofs.LoadedMessages

/-!
# Errors point at the declaration they are about

An error names a file and a line. The file is the first target that is not
rendered, and the line is that of one field of its descriptor, found by the
path under which the source text places it. Between the descriptor and the
error, the path is made up on the way down to the field, the place found for
it is kept in the loaded field, the field is listed by its oneof, and one of
three checks finds it at fault. `FileDescriptor.Blames` says what this leaves:
the field at fault stands at the address whose path was looked up, and no
check in front of it fails.
-/

namespace OdinSchema

variable {c c' : Catalog} {d : FileDescriptor} {f : File}

/-! ## Faults -/

/-- A fault of a field: it names the field, or, if an alias was bound to
another type, the alias of the field. -/
def Fault.Concerns (field : FieldHead) : Fault → Prop
  | emptyExternal name => name = field.name
  | emptyTypedef name => name = field.name
  | repeatedVariant _ name => name = field.name
  | aliasConflict name _ _ => field.ownAlias? = some name
  | stated _ => False

theorem FieldHead.concerns_of_overrideFault? {field : FieldHead} {fault : Fault}
    (h : field.overrideFault? = some fault) : fault.Concerns field := by
  obtain ⟨override, -, hfault⟩ := Option.bind_eq_some_iff.1 h
  unfold Override.fault? at hfault
  split at hfault
  · cases hfault
    rfl
  · split at hfault
    · cases hfault
      rfl
    · cases hfault

/-- **What a check finds wrong concerns the member that is checked.** -/
theorem Check.concerns_of_fault? {scope : Scope} {passed : List Check} {check : Check}
    {fault : Fault} (h : check.fault? scope passed = some fault) :
    fault.Concerns check.member.field.head := by
  cases check with
  | shape earlier member =>
    rw [fault?] at h
    cases hfault : member.field.head.overrideFault? with
    | some found =>
      simp only [hfault, Option.some.injEq] at h
      exact FieldHead.concerns_of_overrideFault? (h ▸ hfault)
    | none =>
      simp only [hfault] at h
      split at h
      · cases h
        rfl
      · cases h
  | binding member =>
    rw [fault?, Field.aliasUse?] at h
    cases hname : member.field.head.ownAlias? with
    | none =>
      rw [hname] at h
      cases h
    | some name =>
      simp only [hname, Option.map_some] at h
      split at h
      · split at h
        · cases h
        · cases h
          exact hname
      · cases h

/-! ## Places -/

/-- The line of a place is that of the first span given for its path, those
with less than two entries left out. -/
theorem find?_of_locate {placements : List Placement} {path : List Int} {location : Location}
    (h : locate placements path = some location) :
    ∃ placement, placements.find? (fun q => q.path = path ∧ 2 ≤ q.span.length) = some placement ∧
      placement.span.head? = some location.line := by
  rw [locate_eq] at h
  obtain ⟨placement, hplacement, hstart⟩ := Option.bind_eq_some_iff.1 h
  refine ⟨placement, hplacement, ?_⟩
  rw [Placement.start?] at hstart
  split at hstart
  · rename_i line column more hspan
    cases hstart
    rw [hspan, List.head?_cons]
  · cases hstart

/-- A refusal with a diagnostic is one at a known place, for the fault it
reports. -/
theorem FieldHead.refuse_eq_diagnostic_iff {field : FieldHead} {fault : Fault}
    {diagnostic : Diagnostic} : field.refuse fault = .diagnostic diagnostic ↔
      ∃ location, field.location = some location ∧ diagnostic = ⟨location.line + 1, fault⟩ := by
  unfold refuse
  cases field.location with
  | none => simp
  | some location => simp [eq_comm]

/-- And one with a defect is one at no known place. -/
theorem FieldHead.refuse_eq_defect_iff {field : FieldHead} {fault : Fault} {defect : Defect} :
    field.refuse fault = .defect defect ↔
      field.location = none ∧ defect = .unlocated field.name := by
  unfold refuse
  cases field.location with
  | none => simp [eq_comm]
  | some location => simp

/-! ## The messages that are checked -/

theorem member_mem_of_mem_shapeChecks {earlier members : List PlacedField} {check : Check}
    (h : check ∈ shapeChecks earlier members) : check.member ∈ members := by
  induction members generalizing earlier with
  | nil => cases h
  | cons member rest ih =>
    rw [shapeChecks, List.mem_cons] at h
    rcases h with rfl | h
    · exact List.mem_cons_self
    · split at h
      · cases h
      · exact List.mem_cons_of_mem _ (ih h)

/-- The checks of a oneof are made of its members. -/
theorem member_mem_of_mem_oneofChecks {members : List PlacedField} {check : Check}
    (h : check ∈ oneofChecks members) : check.member ∈ members := by
  rw [oneofChecks, List.mem_append] at h
  rcases h with h | h
  · exact member_mem_of_mem_shapeChecks h
  · split at h
    · obtain ⟨member, hmember, rfl⟩ := List.mem_map.1 h
      exact hmember
    · cases h

/-- A check of a message is one of a field of the message, in its place, that
belongs to a oneof. -/
theorem MessageHead.of_mem_checks {m : MessageHead} {a : MessageAddress} {check : Check}
    (h : check ∈ m.checks a) : check.member.address = a ∧
      m.fields[check.member.position]? = some check.member.field ∧
      check.member.field.head.oneofIndex ≠ none := by
  obtain ⟨x, -, hcheck⟩ := List.mem_flatMap.1 h
  obtain ⟨y, hy, hplaced⟩ := List.mem_map.1 (member_mem_of_mem_oneofChecks hcheck)
  obtain ⟨hmem, hposition⟩ := List.mem_filter.1 hy
  rw [← hplaced]
  refine ⟨rfl, List.mem_zipIdx_iff_getElem?.1 hmem, fun hindex => ?_⟩
  simp [Field.oneofPosition?, hindex] at hposition

/-- A message of a file that is no map entry, with its address. -/
def File.Finds (f : File) (x : MessageAddress × MessageHead) : Prop :=
  ∃ m, f.message? x.1 = some m ∧ m.head = x.2 ∧ x.2.isMapEntry = false

mutual

/-- What is written with a message is found in its file. -/
theorem finds_of_mem_writtenAt : ∀ (m : Message) (a : MessageAddress), f.message? a = some m →
    m.head.isMapEntry = false → ∀ x ∈ m.writtenAt a, f.Finds x
  | .mk head nested, a, hfound, hentry, x, hx => by
    rw [Message.writtenAt, List.mem_cons] at hx
    rcases hx with rfl | hx
    · exact ⟨_, hfound, rfl, hentry⟩
    · refine finds_of_mem_writtenWithin nested a.child 0 (fun i => ?_) x hx
      rw [File.message?_child, hfound, Option.bind_some, Nat.zero_add]
      rfl

theorem finds_of_mem_writtenWithin : ∀ (ms : List Message) (place : Nat → MessageAddress)
    (start : Nat), (∀ i, f.message? (place (start + i)) = ms[i]?) →
    ∀ x ∈ Message.writtenWithin place start ms, f.Finds x
  | [], _, _, _, x, hx => absurd hx List.not_mem_nil
  | m :: rest, place, start, hplace, x, hx => by
    rw [Message.writtenWithin, List.mem_append] at hx
    rcases hx with hx | hx
    · split at hx
      · cases hx
      · rename_i hentry
        have hfirst := hplace 0
        exact finds_of_mem_writtenAt m (place start) hfirst (Bool.eq_false_iff.2 hentry) x hx
    · refine finds_of_mem_writtenWithin rest place (start + 1) (fun i => ?_) x hx
      have hnext := hplace (i + 1)
      rw [← Nat.add_assoc, Nat.add_right_comm] at hnext
      exact hnext

end

/-- **A message that is checked is found at its address**, and is no map
entry. -/
theorem File.finds_of_mem_written {x : MessageAddress × MessageHead} (hx : x ∈ f.written) :
    f.Finds x := by
  refine finds_of_mem_writtenWithin f.messages _ 0 (fun i => ?_) x hx
  rw [Nat.zero_add, message?]
  exact Option.bind_fun_some _

/-- And it is put together from the message of the descriptor there. -/
theorem FileDescriptor.loadsTo_of_mem_written (h : d.load.Gives c f c')
    {x : MessageAddress × MessageHead} (hx : x ∈ f.written) :
    ∃ described, d.message? x.1 = some described ∧ described.head.isMapEntry = false ∧
      described.head.LoadsTo d.context x.1.path x.2 := by
  obtain ⟨m, hfound, hhead, hentry⟩ := File.finds_of_mem_written hx
  have hrel := loads_message h x.1
  rw [hfound] at hrel
  generalize hdescribed : d.message? x.1 = described at hrel
  cases hrel with
  | @some described _ hloads =>
    rw [hhead] at hloads
    exact ⟨described, rfl, hloads.isMapEntry.symm.trans hentry, hloads⟩

theorem MessageDescriptorHead.LoadsTo.divided {context : FileContext} {path : List Int}
    {d : MessageDescriptorHead} {m : MessageHead} (h : d.LoadsTo context path m) : m.Divided := by
  intro i o ho
  rw [h.getElem?_oneofs, Option.map_eq_some_iff] at ho
  obtain ⟨name, -, rfl⟩ := ho
  rfl

/-- The oneofs of a loaded message that is checked list the fields at their
positions. -/
theorem FileDescriptor.divided_of_gives_load (h : d.load.Gives c f c') :
    ∀ x ∈ f.written, x.2.Divided := by
  intro x hx
  obtain ⟨described, -, -, hloads⟩ := loadsTo_of_mem_written h hx
  exact hloads.divided

/-! ## What a diagnostic points at -/

/-- A field of a descriptor that a diagnostic is about. -/
structure FileDescriptor.Blames (d : FileDescriptor) (f : File) (diagnostic : Diagnostic)
    (check : Check) (x : FieldDescriptor) : Prop where
  /-- Of the checks of the file the first that fails finds the fault. -/
  first : firstFault? f.scope [] f.checks = some (check, diagnostic.fault)
  /-- The field stands where the check says, in a message that is no map
  entry. -/
  found : ∃ described, d.message? check.member.address = some described ∧
    described.head.isMapEntry = false ∧
    described.head.fields[check.member.position]? = some x ∧
    ∃ location, x.Places described.head.oneofs location check.member.field
  /-- It belongs to a oneof. -/
  member : x.oneofIndex ≠ none
  /-- It is the field that the fault names, or has the alias that the fault
  names. -/
  concerned : diagnostic.fault.Concerns check.member.field.head
  /-- The first placement of the field that has a line and a column is on the
  reported line; placements count lines from zero. -/
  placed : ∃ placement, d.placements.find?
      (fun q => q.path = check.member.path ∧ 2 ≤ q.span.length) = some placement ∧
    placement.span.head? = some (diagnostic.line - 1)

/-- **The diagnostic of a draft points at the first field at fault.** -/
theorem FileDescriptor.blames_of_draft (h : d.load.Gives c f c') {base : String}
    {version : Version} {diagnostic : Diagnostic}
    (hdraft : (f.draft base version).2 = some (.diagnostic diagnostic)) :
    ∃ check x, d.Blames f diagnostic check x := by
  obtain ⟨check, hfirst, location, hlocation, hline⟩ : ∃ check,
      firstFault? f.scope [] f.checks = some (check, diagnostic.fault) ∧
      ∃ location, check.member.field.head.location = some location ∧
        diagnostic.line = location.line + 1 := by
    -- a package that is no text and a map entry are not refused with a diagnostic
    rcases File.refusal_of_draft (divided_of_gives_load h) hdraft with
      ⟨-, hrefusal⟩ | ⟨check, fault, hfirst, hrefusal⟩ | ⟨m, -, -, hrefusal⟩
    · cases hrefusal
    · obtain ⟨location, hlocation, rfl⟩ := FieldHead.refuse_eq_diagnostic_iff.1 hrefusal.symm
      exact ⟨check, hfirst, location, hlocation, rfl⟩
    · cases hrefusal
  obtain ⟨hmem, before, hfault⟩ := mem_of_firstFault? hfirst
  obtain ⟨y, hy, hcheck⟩ := List.mem_flatMap.1 hmem
  obtain ⟨haddress, hfield, hindex⟩ := MessageHead.of_mem_checks hcheck
  obtain ⟨described, hdescribed, hentry, hloads⟩ := loadsTo_of_mem_written h hy
  have hrel := hloads.places check.member.position
  rw [hfield] at hrel
  generalize hx : described.head.fields[check.member.position]? = found at hrel
  cases hrel with
  | @some x _ hplaces =>
    refine ⟨check, x, hfirst, ⟨described, ?_, hentry, hx, _, hplaces⟩, ?_,
      Check.concerns_of_fault? hfault, ?_⟩
    · rw [haddress, hdescribed]
    · rw [← hplaces.oneofIndex]
      exact hindex
    · have hlocate : locate d.placements check.member.path = some location := by
        rw [PlacedField.path, haddress, ← hlocation]
        exact hplaces.location.symm
      obtain ⟨placement, hplacement, hspan⟩ := find?_of_locate hlocate
      exact ⟨placement, hplacement, by rw [hspan, hline, Int.add_sub_cancel]⟩

/-! ## The answer to a request -/

section Answer

variable {loaded : Dictionary Verbatim File} {renderer : Renderer} {t : Verbatim}

/-- A run that is refused got through the targets in front of the one it
blames. -/
theorem of_renderTargets_refused {files : List Output} {events events' : List Event}
    {targets : List Verbatim} {diagnostic : Diagnostic}
    (h : renderTargets loaded renderer files events targets =
      .ok ⟨.refused t diagnostic, events'⟩) :
    ∃ before after file, targets = before ++ t :: after ∧
      (∀ s ∈ before, ∃ files, Renders loaded renderer s files) ∧ loaded.get? t = some file ∧
      (renderer file).refusal = some (.diagnostic diagnostic) := by
  induction targets generalizing files events with
  | nil => cases h
  | cons s rest ih =>
    rw [renderTargets] at h
    cases hfile : loaded.get? s with
    | none =>
      rw [hfile] at h
      cases h
    | some file =>
      simp only [hfile] at h
      cases hrefusal : (renderer file).refusal with
      | none =>
        rw [hrefusal] at h
        obtain ⟨before, after, file', rfl, hbefore, hget, hdiagnostic⟩ := ih h
        refine ⟨s :: before, after, file', rfl, ?_, hget, hdiagnostic⟩
        exact List.forall_mem_cons.2 ⟨⟨_, file, hfile, hrefusal, rfl⟩, hbefore⟩
      | some refusal =>
        rw [hrefusal] at h
        cases refusal with
        | diagnostic found =>
          cases h
          exact ⟨[], rest, file, rfl, by simp, hfile, hrefusal⟩
        | defect cause => cases h
        | illegible cause => cases h

/-- A renderer of Odin sources refuses what its draft does, and a file whose
name is no text. -/
theorem odin_refusal_cases {settings : Settings} {version : Version} {refusal : Refusal}
    (h : (Renderer.odin settings version f).refusal = some refusal) :
    (f.draft settings.basePackage version).2 = some refusal ∨
      refusal = .illegible .ending ∧ ∃ bytes, f.name = .bytes bytes := by
  unfold Renderer.odin at h
  rcases hdraft : f.draft settings.basePackage version with ⟨draft, _ | found⟩
  · simp only [hdraft] at h
    cases hname : f.name with
    | text name =>
      simp only [hname] at h
      cases h
    | bytes bytes =>
      simp only [hname] at h
      exact .inr ⟨(Option.some.inj h).symm, bytes, rfl⟩
  · rw [hdraft] at h
    exact .inl h

/-- And so a diagnostic is that of its draft. -/
theorem draft_of_odin_refusal {settings : Settings} {version : Version} {diagnostic : Diagnostic}
    (h : (Renderer.odin settings version f).refusal = some (.diagnostic diagnostic)) :
    (f.draft settings.basePackage version).2 = some (.diagnostic diagnostic) := by
  rcases odin_refusal_cases h with hdraft | ⟨hillegible, -⟩
  · exact hdraft
  · cases hillegible

/-- An answer other than that the settings are not accepted comes from a run
over the targets of files that load. -/
theorem Request.of_answer {request : Request} {environment : Option String}
    {answering : Settings → Renderer} {answer : Answer}
    (h : request.answer environment answering = .ok answer)
    (haccepted : ∀ cause, answer.outcome ≠ .rejected cause) :
    ∃ parameter settings loaded, request.parameter = .text parameter ∧
      Settings.read parameter environment = .ok settings ∧ Loads request.files loaded ∧
      ∃ run, renderTargets loaded (answering settings) [] [.loaded loaded.entries.length]
        request.namedTargets = .ok run ∧ run.outcome = answer.outcome := by
  cases hparameter : request.parameter with
  | bytes bytes =>
    rw [Request.answer, hparameter] at h
    cases h
  | text parameter =>
    cases hsettings : Settings.read parameter environment with
    | error cause =>
      simp only [Request.answer, hparameter, hsettings] at h
      cases h
      exact absurd rfl (haccepted cause)
    | ok settings =>
      cases hload : (({} : Catalog).load request.files).1 with
      | error cause =>
        simp only [Request.answer, hparameter, hsettings, generateWith] at h
        rw [← Prod.eta (({} : Catalog).load request.files), hload] at h
        cases h
      | ok loaded =>
        rw [request.answer_eq answering hparameter hsettings hload] at h
        cases hrun : renderTargets loaded (answering settings) []
            [.loaded loaded.entries.length] request.namedTargets with
        | error failure =>
          rw [hrun] at h
          cases h
        | ok run =>
          rw [hrun] at h
          cases h
          exact ⟨parameter, settings, loaded, rfl, hsettings, hload, run, hrun, rfl⟩

/-- A request for two files. In the second, a message and one nested in it
use an alias for different types. The place of the nested field is given
three times, first without a column. -/
def conflictRequest : Request where
  targets := ["a.proto", "b.proto"]
  files := [
    { name := "a.proto" },
    { name := "b.proto"
      messages := [.mk
        { name := "Outer"
          oneofs := ["value"]
          fields := [
            { name := "id", number := 1, code := 5, oneofIndex := some 0,
              odin := [Override.payload [(.typedef, "Id")]] }] }
        [.mk
          { name := "Inner"
            oneofs := ["value"]
            fields := [
              { name := "note", number := 1, code := 9 },
              { name := "key", number := 2, code := 9, oneofIndex := some 0,
                odin := [Override.payload [(.typedef, "Id")]] }] }
          []]]
      placements := [
        ⟨[4, 0, 2, 0], [2, 4, 30]⟩,
        ⟨[4, 0, 3, 0, 2, 1], [5]⟩,
        ⟨[4, 0, 3, 0, 2, 1], [7, 6, 34]⟩,
        ⟨[4, 0, 3, 0, 2, 1], [9, 6, 34]⟩] }]

end Answer

end OdinSchema
