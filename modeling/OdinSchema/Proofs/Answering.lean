import OdinSchema.Proofs.ErrorLocation

/-!
# Which requests are answered

A fault of a schema can be answered with an error only at a known line, and
the place of a field is looked up when its file is loaded, long before a
fault is found. Then the fault may come from any of the checks that writing a
file makes. Every check is one of a member of a oneof in a message that is
written (`File.refusal_of_draft`), such a member is read off a field of the
descriptor with a position among the oneofs, in a message reached through
messages that are no map entries (`FileDescriptor.describedBy_of_gives_load`),
and so its place is known if the descriptor gives one for it
(`FileDescriptor.exists_location_of_mem_checks`). What is left to fail are
names that are no text. A field without a place and a map entry at the top of
a file are defects, and a failure for a defect names the declaration
(`text_of_defect`).
-/

namespace OdinSchema

/-! ## Places in a descriptor -/

mutual

/-- A message at an address and, map entries left out, all that is nested in
it, each with its address. -/
def MessageDescriptor.writtenAt (a : MessageAddress) :
    MessageDescriptor → List (MessageAddress × MessageDescriptorHead)
  | .mk head nested => (a, head) :: MessageDescriptor.writtenWithin a.child 0 nested

/-- The messages of a list that are no map entries, with all that is nested
in them. The first is in the place numbered `start`. -/
def MessageDescriptor.writtenWithin (place : Nat → MessageAddress) (start : Nat) :
    List MessageDescriptor → List (MessageAddress × MessageDescriptorHead)
  | [] => []
  | message :: rest =>
    (if message.head.isMapEntry then [] else message.writtenAt (place start)) ++
      MessageDescriptor.writtenWithin place (start + 1) rest

end

namespace FileDescriptor

/-- The messages of a file that are reached through messages that are no map
entries, and are none. -/
def written (d : FileDescriptor) : List (MessageAddress × MessageDescriptorHead) :=
  MessageDescriptor.writtenWithin (fun i => { top := i }) 0 d.messages

/-- A file that gives a line and a column for the fields of oneofs in the
messages it writes. -/
def Located (d : FileDescriptor) : Prop :=
  ∀ x ∈ d.written, ∀ y ∈ x.2.fields.zipIdx, y.1.oneofIndex ≠ none →
    ∃ placement ∈ d.placements, placement.path = x.1.path ++ [2, (y.2 : Int)] ∧
      2 ≤ placement.span.length

instance (d : FileDescriptor) : Decidable d.Located :=
  inferInstanceAs (Decidable (∀ x ∈ d.written, ∀ y ∈ x.2.fields.zipIdx, y.1.oneofIndex ≠ none →
    ∃ placement ∈ d.placements, placement.path = x.1.path ++ [2, (y.2 : Int)] ∧
      2 ≤ placement.span.length))

end FileDescriptor

/-- A placement with a line and a column is found. -/
theorem exists_locate {placements : List Placement} {path : List Int} {placement : Placement}
    (hmem : placement ∈ placements) (hpath : placement.path = path)
    (hspan : 2 ≤ placement.span.length) : ∃ location, locate placements path = some location := by
  rw [← Option.isSome_iff_exists, locate, List.findSome?_isSome_iff]
  refine ⟨placement, hmem, ?_⟩
  rw [if_pos hpath]
  cases hline : placement.span with
  | nil => simp [hline] at hspan
  | cons line rest =>
    cases rest with
    | nil => simp [hline] at hspan
    | cons column rest => rfl

/-! ## What is written is described -/

theorem MessageAddress.path_child (a : MessageAddress) (position : Nat) :
    (a.child position).path = a.path ++ [3, (position : Int)] := by
  simp [path, child, wayPath]

variable {c c' : Catalog}

/-- A message that is loaded from one described at the same address. -/
def DescribedBy (context : FileContext) (described : List (MessageAddress × MessageDescriptorHead))
    (x : MessageAddress × MessageHead) : Prop :=
  ∃ head, (x.1, head) ∈ described ∧ head.LoadsTo context x.1.path x.2

theorem DescribedBy.mono {context : FileContext}
    {described described' : List (MessageAddress × MessageDescriptorHead)}
    {x : MessageAddress × MessageHead} (h : DescribedBy context described x)
    (hsubset : described ⊆ described') : DescribedBy context described' x := by
  obtain ⟨head, hmem, hloads⟩ := h
  exact ⟨head, hsubset hmem, hloads⟩

/-- What is written of a list of messages is described if what is written of
the first and of the rest is. Both sides leave out the same map entries. -/
theorem describedBy_writtenWithin_cons {context : FileContext} {path : List Int}
    {place : Nat → MessageAddress} {start : Nat} {d : MessageDescriptor} {m : Message}
    {ds : List MessageDescriptor} {ms : List Message} (hloads : d.head.LoadsTo context path m.head)
    (hfirst : ∀ x ∈ m.writtenAt (place start),
      DescribedBy context (d.writtenAt (place start)) x)
    (hrest : ∀ x ∈ Message.writtenWithin place (start + 1) ms,
      DescribedBy context (MessageDescriptor.writtenWithin place (start + 1) ds) x) :
    ∀ x ∈ Message.writtenWithin place start (m :: ms),
      DescribedBy context (MessageDescriptor.writtenWithin place start (d :: ds)) x := by
  intro x hx
  rw [Message.writtenWithin, hloads.isMapEntry, List.mem_append] at hx
  rw [MessageDescriptor.writtenWithin]
  rcases hx with hx | hx
  · split at hx
    · exact absurd hx List.not_mem_nil
    · rename_i hentry
      rw [if_neg hentry]
      exact (hfirst x hx).mono (List.subset_append_left _ _)
  · exact (hrest x hx).mono (List.subset_append_right _ _)

/-- What is written of a message is described with its descriptor. -/
theorem MessageDescriptor.describedBy_of_gives_load {context : FileContext}
    {segments : List Verbatim} {path : List Int} {d : MessageDescriptor} {m : Message}
    (h : (d.load context segments path).Gives c m c') :
    d.head.LoadsTo context path m.head ∧ ∀ a : MessageAddress, a.path = path →
      ∀ x ∈ m.writtenAt a, DescribedBy context (d.writtenAt a) x := by
  -- a load knows paths and no addresses, so the induction is for the address with its path
  refine (gives_induction (P := fun _ path d _ m _ => d.head.LoadsTo context path m.head ∧
      ∀ a : MessageAddress, a.path = path →
        ∀ x ∈ m.writtenAt a, DescribedBy context (d.writtenAt a) x)
    (Q := fun _ path start ds _ ms _ => ∀ a : MessageAddress, a.path = path →
      ∀ x ∈ Message.writtenWithin a.child start ms,
        DescribedBy context (writtenWithin a.child start ds) x) ⟨?_, ?_, ?_⟩).1 h
  · intro segments path head nested c ms c₁ m c' hnested hcloses
    have hhead := congrArg Message.head hcloses.message_eq
    have hloads : head.LoadsTo context path m.head :=
      ⟨segments ++ [head.name], c₁.entries, hcloses.reads, hhead⟩
    refine ⟨hloads, fun a ha x hx => ?_⟩
    rw [hcloses.message_eq, Message.writtenAt, List.mem_cons] at hx
    rw [writtenAt]
    rcases hx with rfl | hx
    · refine ⟨head, List.mem_cons_self, ?_⟩
      rw [ha]
      exact hhead ▸ hloads
    · exact (hnested a ha x hx).mono (List.subset_cons_self _ _)
  · intro segments path start c a ha x hx
    exact absurd hx List.not_mem_nil
  · intro segments path start d rest c m c₁ ms c' hd hrest a ha
    refine describedBy_writtenWithin_cons hd.1 (hd.2 (a.child start) ?_) (hrest a ha)
    rw [MessageAddress.path_child, ha]

theorem describedBy_of_gives_loadMessages {context : FileContext} {segments : List Verbatim}
    {start : Nat} {ds : List MessageDescriptor} {ms : List Message}
    (h : (loadMessages context segments start ds).Gives c ms c') :
    ∀ x ∈ Message.writtenWithin (fun i => { top := i }) start ms,
      DescribedBy context (MessageDescriptor.writtenWithin (fun i => { top := i }) start ds) x := by
  induction ds generalizing c start ms with
  | nil =>
    obtain ⟨rfl, -⟩ := gives_loadMessages_nil.1 h
    exact fun x hx => absurd hx List.not_mem_nil
  | cons d rest ih =>
    obtain ⟨m, c₁, ms', hm, hrest, rfl⟩ := gives_loadMessages_cons.1 h
    obtain ⟨hhead, hwritten⟩ := MessageDescriptor.describedBy_of_gives_load hm
    exact describedBy_writtenWithin_cons hhead (hwritten { top := start } rfl) (ih hrest)

namespace FileDescriptor

variable {d : FileDescriptor} {f : File}

/-- **What is written of a file is described in its descriptor**, at the same
address. -/
theorem describedBy_of_gives_load (h : d.load.Gives c f c') :
    ∀ x ∈ f.written, DescribedBy d.context d.written x := by
  obtain ⟨-, ms, hms, rfl⟩ := gives_load.1 h
  exact describedBy_of_gives_loadMessages hms

/-- And so the place of a field that is checked is known. -/
theorem exists_location_of_mem_checks (h : d.load.Gives c f c') (hlocated : d.Located)
    {check : Check} (hcheck : check ∈ f.checks) :
    ∃ location, check.member.field.head.location = some location := by
  obtain ⟨x, hx, hcheck⟩ := List.mem_flatMap.1 hcheck
  obtain ⟨-, hfield, hindex⟩ := MessageHead.of_mem_checks hcheck
  obtain ⟨head, hhead, hloads⟩ := describedBy_of_gives_load h x hx
  have hrel := hloads.places check.member.position
  rw [hfield] at hrel
  generalize hy : head.fields[check.member.position]? = found at hrel
  cases hrel with
  | @some y _ hplaces =>
    rw [hplaces.oneofIndex] at hindex
    obtain ⟨placement, hplacement, hpath, hspan⟩ := hlocated _ hhead
      (y, check.member.position) (List.mem_zipIdx_iff_getElem?.2 hy) hindex
    rw [hplaces.location]
    exact exists_locate hplacement hpath hspan

end FileDescriptor

/-! ## Refusals -/

/-- **A file is refused with a defect** for a field of a oneof whose place is
not known, or for a map entry at its top. -/
theorem File.defect_of_draft {f : File} {base : String} {version : Version} {defect : Defect}
    (hdivided : ∀ x ∈ f.written, x.2.Divided)
    (h : (f.draft base version).2 = some (.defect defect)) :
    (∃ x ∈ f.written, ∃ field ∈ x.2.fields, field.head.oneofIndex ≠ none ∧
      field.head.location = none ∧ defect = .unlocated field.head.name) ∨
    ∃ m ∈ f.messages, m.head.isMapEntry = true ∧ defect = .mapEntry m.head.fullName := by
  rcases refusal_of_draft hdivided h with
    ⟨-, hstart⟩ | ⟨check, fault, hfirst, hrefuse⟩ | ⟨m, hm, hentry, hmap⟩
  · cases hstart
  · obtain ⟨hlocation, hdefect⟩ := FieldHead.refuse_eq_defect_iff.1 hrefuse.symm
    obtain ⟨x, hx, hcheck⟩ := List.mem_flatMap.1 (mem_of_firstFault? hfirst).1
    obtain ⟨-, hfield, hindex⟩ := MessageHead.of_mem_checks hcheck
    exact .inl ⟨x, hx, _, List.mem_of_getElem? hfield, hindex, hlocation, hdefect⟩
  · exact .inr ⟨m, hm, hentry, Refusal.defect.inj hmap⟩

namespace FileDescriptor

variable {d : FileDescriptor} {f : File}

/-- A message at the top of a file is a map entry if its descriptor says
so. -/
theorem isMapEntry_of_gives_load (h : d.load.Gives c f c')
    (htop : ∀ m ∈ d.messages, m.head.isMapEntry = false) :
    ∀ m ∈ f.messages, m.head.isMapEntry = false := by
  intro m hm
  obtain ⟨i, hi⟩ := List.mem_iff_getElem?.1 hm
  have hrel := loads_message h { top := i }
  rw [message?, File.message?, hi] at hrel
  generalize hx : d.messages[i]?.bind _ = found at hrel
  cases hrel with
  | @some x _ hloads =>
    obtain ⟨described, hdescribed, hwithin⟩ := Option.bind_eq_some_iff.1 hx
    rw [hloads.isMapEntry, ← Option.some.inj hwithin]
    exact htop described (List.mem_of_getElem? hdescribed)

/-- **A file that gives all places is refused with a diagnostic**, or because
its package is no text. -/
theorem refusal_of_draft (h : d.load.Gives c f c')
    (htop : ∀ m ∈ d.messages, m.head.isMapEntry = false) (hlocated : d.Located) {base : String}
    {version : Version} {refusal : Refusal} (hdraft : (f.draft base version).2 = some refusal) :
    (∃ diagnostic, refusal = .diagnostic diagnostic) ∨
      refusal = .illegible .start ∧ ∃ bytes, d.package = .bytes bytes := by
  rcases File.refusal_of_draft (divided_of_gives_load h) hdraft with
    ⟨⟨bytes, hbytes⟩, hrefusal⟩ | ⟨check, fault, hfirst, hrefusal⟩ | ⟨m, hm, hentry, -⟩
  · obtain ⟨-, ms, -, rfl⟩ := gives_load.1 h
    refine .inr ⟨hrefusal, bytes, ?_⟩
    rw [assemble, Verbatim.given?, Option.ite_none_left_eq_some] at hbytes
    exact Option.some.inj hbytes.2
  · obtain ⟨location, hlocation⟩ :=
      exists_location_of_mem_checks h hlocated (mem_of_firstFault? hfirst).1
    exact .inl ⟨_, hrefusal.trans (FieldHead.refuse_eq_diagnostic_iff.2 ⟨location, hlocation, rfl⟩)⟩
  · rw [isMapEntry_of_gives_load h htop m hm] at hentry
    cases hentry

/-- And so the renderer of Odin sources refuses it with a diagnostic, or
because its package or its name is no text. -/
theorem odin_refusal (h : d.load.Gives c f c')
    (htop : ∀ m ∈ d.messages, m.head.isMapEntry = false) (hlocated : d.Located)
    {settings : Settings} {version : Version} {refusal : Refusal}
    (hrefusal : (Renderer.odin settings version f).refusal = some refusal) :
    (∃ diagnostic, refusal = .diagnostic diagnostic) ∨ ∃ cause, refusal = .illegible cause ∧
      ((∃ bytes, d.name = .bytes bytes) ∨ ∃ bytes, d.package = .bytes bytes) := by
  rcases odin_refusal_cases hrefusal with hdraft | ⟨hending, bytes, hname⟩
  · rcases refusal_of_draft h htop hlocated hdraft with hdiagnostic | ⟨hstart, hpackage⟩
    · exact .inl hdiagnostic
    · exact .inr ⟨.start, hstart, .inr hpackage⟩
  · obtain ⟨-, ms, -, rfl⟩ := gives_load.1 h
    exact .inr ⟨.ending, hending, .inl ⟨bytes, hname⟩⟩

end FileDescriptor

/-! ## Failures -/

variable {loaded : Dictionary Verbatim File} {renderer : Renderer}

/-- A run fails at a target that is unknown, or that is refused without a
diagnostic. -/
theorem of_renderTargets_error {files : List Output} {events : List Event}
    {targets : List Verbatim} {failure : Failure}
    (h : renderTargets loaded renderer files events targets = .error failure) :
    ∃ t ∈ targets, (loaded.get? t = none ∧ failure = .unknownFile t) ∨
      ∃ file refusal, loaded.get? t = some file ∧ (renderer file).refusal = some refusal ∧
        ((∃ defect, refusal = .defect defect ∧ failure = .defect defect) ∨
          ∃ cause, refusal = .illegible cause ∧ failure = .illegible cause) := by
  induction targets generalizing files events with
  | nil => cases h
  | cons t rest ih =>
    rw [renderTargets] at h
    cases hfile : loaded.get? t with
    | none =>
      rw [hfile] at h
      cases h
      exact ⟨t, List.mem_cons_self, .inl ⟨hfile, rfl⟩⟩
    | some file =>
      simp only [hfile] at h
      cases hrefusal : (renderer file).refusal with
      | none =>
        rw [hrefusal] at h
        obtain ⟨s, hs, hcases⟩ := ih h
        exact ⟨s, List.mem_cons_of_mem t hs, hcases⟩
      | some refusal =>
        refine ⟨t, List.mem_cons_self, .inr ⟨file, refusal, hfile, hrefusal, ?_⟩⟩
        rw [hrefusal] at h
        cases refusal with
        | diagnostic diagnostic => cases h
        | defect defect =>
          cases h
          exact .inl ⟨defect, rfl, rfl⟩
        | illegible cause =>
          cases h
          exact .inr ⟨cause, rfl, rfl⟩

namespace Request

variable {request : Request}

/-- The file of a request that a name stands for: the last that has it. -/
def file? (request : Request) (name : Verbatim) : Option FileDescriptor :=
  request.files.reverse.find? fun d => d.name = name

/-- The files that a request asks to generate code for. -/
def targetFiles (request : Request) : List FileDescriptor :=
  request.namedTargets.filterMap request.file?

/-- What a target is loaded to is loaded from a file that is asked for. -/
theorem exists_targetFile (hloads : Loads request.files loaded) {t : Verbatim} {f : File}
    (ht : t ∈ request.namedTargets) (hget : loaded.get? t = some f) :
    ∃ d ∈ request.targetFiles, ∃ c c', d.load.Gives c f c' := by
  obtain ⟨before, d, after, c, c', hfiles, hname, hlast, -, hload⟩ := hloads.exists_turn hget
  refine ⟨d, List.mem_filterMap.2 ⟨t, ht, ?_⟩, c, c', hload⟩
  have hafter : after.reverse.find? (fun e => e.name = t) = none := by
    rw [List.find?_eq_none]
    intro e he hmatch
    exact hlast (of_decide_eq_true hmatch ▸ List.mem_map_of_mem (List.mem_reverse.1 he))
  rw [file?, hfiles, List.reverse_append, List.reverse_cons, List.append_assoc, List.find?_append,
    hafter, Option.none_or, List.singleton_append]
  exact List.find?_cons_of_pos (decide_eq_true hname)

/-- A target that is asked for is the name of a file. -/
theorem mem_names_of_mem_namedTargets
    (htargets : ∀ t ∈ request.targets, t ∈ request.files.map (·.name)) {t : Verbatim}
    (ht : t ∈ request.namedTargets) : t ∈ request.files.map (·.name) := by
  rw [namedTargets] at ht
  split at ht
  · exact List.mem_eraseDups.1 ht
  · exact htargets t ht

/-- A request that loads fails because its parameter is no text, or in the run
over its targets. -/
theorem of_answer_error {environment : Option String} {answering : Settings → Renderer}
    {failure : Failure} (hloads : Loads request.files loaded)
    (h : request.answer environment answering = .error failure) :
    (∃ bytes cause, request.parameter = .bytes bytes ∧ failure = .illegible cause) ∨
      ∃ settings, renderTargets loaded (answering settings) [] [.loaded loaded.entries.length]
        request.namedTargets = .error failure := by
  cases hparameter : request.parameter with
  | bytes bytes =>
    rw [answer, hparameter] at h
    cases h
    exact .inl ⟨bytes, .entries, rfl, rfl⟩
  | text parameter =>
    cases hsettings : Settings.read parameter environment with
    | error cause =>
      simp only [answer, hparameter, hsettings] at h
      cases h
    | ok settings =>
      refine .inr ⟨settings, ?_⟩
      rw [request.answer_eq answering hparameter hsettings hloads] at h
      cases hrun : renderTargets loaded (answering settings) [] [.loaded loaded.entries.length]
          request.namedTargets with
      | error found =>
        rw [hrun] at h
        cases h
        rfl
      | ok run =>
        rw [hrun] at h
        cases h

end Request

/-- **A failure for a defect names the declaration at fault**: of a target, a
field of a oneof in a message that is written, whose place is not known, or a
map entry at the top. -/
theorem text_of_defect {request : Request} {environment : Option String} {defect : Defect}
    (hloads : Loads request.files loaded)
    (h : request.generate environment = .error (.defect defect)) :
    ∃ t ∈ request.namedTargets, ∃ f, loaded.get? t = some f ∧
      ((∃ x ∈ f.written, ∃ field ∈ x.2.fields, field.head.oneofIndex ≠ none ∧
          field.head.location = none ∧
          (Failure.defect defect).text = "Field '" ++ field.head.name.shown ++
            "' has no source location (synthetic field passed)") ∨
        ∃ m ∈ f.messages, m.head.isMapEntry = true ∧
          (Failure.defect defect).text =
            "Map entry message '" ++ m.head.fullName ++ "' cannot be emitted") := by
  rcases Request.of_answer_error hloads h with ⟨-, cause, -, hcause⟩ | ⟨settings, hrun⟩
  · cases hcause
  obtain ⟨t, ht, ⟨-, hunknown⟩ | ⟨f, refusal, hget, hrefusal, hfailed⟩⟩ :=
    of_renderTargets_error hrun
  · cases hunknown
  obtain ⟨found, rfl, hfailure⟩ | ⟨cause, -, hfailure⟩ := hfailed
  · cases hfailure
    refine ⟨t, ht, f, hget, ?_⟩
    obtain ⟨d, -, c, c', hload⟩ := Request.exists_targetFile hloads ht hget
    have hdivided := FileDescriptor.divided_of_gives_load hload
    rcases odin_refusal_cases hrefusal with hdraft | ⟨hending, -⟩
    · rcases File.defect_of_draft hdivided hdraft with
        ⟨x, hx, field, hfield, hindex, hlocation, rfl⟩ | ⟨m, hm, hentry, rfl⟩
      · exact .inl ⟨x, hx, field, hfield, hindex, hlocation, rfl⟩
      · exact .inr ⟨m, hm, hentry, rfl⟩
    · cases hending
  · cases hfailure

/-- **A request that gives all places is answered.** Let its files load, its
targets be among them, no message at the top of a target be a map entry, and
let each target give a line and a column for the fields of oneofs in the
messages it writes. Whatever the settings, if the request is not answered
then because its parameter, or the name or the package of a target, is no
text; a request in which these are texts is answered. -/
theorem located_request_answered {request : Request} {loaded : Dictionary Verbatim File}
    (hloads : Loads request.files loaded)
    (htargets : ∀ t ∈ request.targets, t ∈ request.files.map (·.name))
    (htop : ∀ d ∈ request.targetFiles, ∀ m ∈ d.messages, m.head.isMapEntry = false)
    (hlocated : ∀ d ∈ request.targetFiles, d.Located) (environment : Option String) :
    (∀ failure, request.generate environment = .error failure →
      ∃ cause, failure = .illegible cause) ∧
    ((∃ text, request.parameter = .text text) →
      (∀ d ∈ request.targetFiles, (∃ text, d.name = .text text) ∧ ∃ text, d.package = .text text) →
      ∃ answer, request.generate environment = .ok answer) := by
  have hfailure : ∀ failure, request.generate environment = .error failure →
      (∃ cause, failure = .illegible cause) ∧ ((∃ bytes, request.parameter = .bytes bytes) ∨
        ∃ d ∈ request.targetFiles, (∃ bytes, d.name = .bytes bytes) ∨
          ∃ bytes, d.package = .bytes bytes) := by
    intro failure hgenerate
    rcases Request.of_answer_error hloads hgenerate with
      ⟨bytes, cause, hparameter, hcause⟩ | ⟨settings, hrun⟩
    · exact ⟨⟨cause, hcause⟩, .inl ⟨bytes, hparameter⟩⟩
    obtain ⟨t, ht, ⟨hunknown, -⟩ | ⟨file, refusal, hget, hrefusal, hfailed⟩⟩ :=
      of_renderTargets_error hrun
    · exact absurd (Request.mem_names_of_mem_namedTargets htargets ht)
        ((get?_eq_none_of_loads hloads).1 hunknown)
    obtain ⟨d, hd, c, c', hload⟩ := Request.exists_targetFile hloads ht hget
    rcases FileDescriptor.odin_refusal hload (htop d hd) (hlocated d hd) hrefusal with
      ⟨diagnostic, rfl⟩ | ⟨cause, rfl, hbytes⟩
    · rcases hfailed with ⟨_, hdefect, -⟩ | ⟨_, hillegible, -⟩
      · cases hdefect
      · cases hillegible
    · rcases hfailed with ⟨_, hdefect, -⟩ | ⟨found, -, hcause⟩
      · cases hdefect
      · exact ⟨⟨found, hcause⟩, .inr ⟨d, hd, hbytes⟩⟩
  refine ⟨fun failure hgenerate => (hfailure failure hgenerate).1, ?_⟩
  rintro ⟨text, hparameter⟩ htexts
  cases hgenerate : request.generate environment with
  | ok answer => exact ⟨answer, rfl⟩
  | error failure =>
    rcases (hfailure failure hgenerate).2 with ⟨bytes, hbytes⟩ | ⟨d, hd, hbytes⟩
    · rw [hparameter] at hbytes
      cases hbytes
    · obtain ⟨⟨name, hname⟩, package, hpackage⟩ := htexts d hd
      rw [hname, hpackage] at hbytes
      rcases hbytes with ⟨bytes, hbytes⟩ | ⟨bytes, hbytes⟩
      · cases hbytes
      · cases hbytes

/-- A request with two files of one name, of which only the second gives
places. A field of its message is at fault; a field of a map entry nested in
it has no place, though it belongs to a oneof. -/
def placedRequest : Request where
  targets := ["b.proto"]
  files := [
    { name := "b.proto"
      messages := [.mk
        { name := "Replaced"
          oneofs := ["value"]
          fields := [
            { name := "id", number := 1, code := 5, oneofIndex := some 0,
              odin := [Override.payload [(.external, "")]] }] }
        []] },
    { name := "b.proto"
      messages := [.mk
        { name := "Outer"
          oneofs := ["value"]
          fields := [
            { name := "id", number := 1, code := 5, oneofIndex := some 0,
              odin := [Override.payload [(.external, "")]] },
            { name := "notes", number := 2, code := 11, label := .repeated,
              typeName := ".Outer.NotesEntry" }] }
        [.mk
          { name := "NotesEntry"
            mapEntry := some true
            oneofs := ["content"]
            fields := [
              { name := "key", number := 1, code := 9 },
              { name := "value", number := 2, code := 9, oneofIndex := some 0 }] }
          []]]
      placements := [⟨[4, 0, 2, 0], [2]⟩, ⟨[4, 0, 2, 0], [2, 4, 30]⟩] }]

/-- The fault is answered with an error. -/
theorem located_request_answered_faulty : ∃ answer, placedRequest.generate none = .ok answer ∧
    answer.outcome.response.error =
      some "b.proto: line 3: (odin).external must not be empty (field id)" := by
  obtain ⟨loaded, -, hloads, -⟩ : ∃ loaded f, Loads placedRequest.files loaded ∧
      loaded.get? "b.proto" = some f ∧ True :=
    exists_loaded_of_any (by decide +kernel)
  have htargets : ∀ t ∈ placedRequest.targets, t ∈ placedRequest.files.map (·.name) := by
    decide +kernel
  have htop : ∀ d ∈ placedRequest.targetFiles, ∀ m ∈ d.messages, m.head.isMapEntry = false := by
    decide +kernel
  have hlocated : ∀ d ∈ placedRequest.targetFiles, d.Located := by decide +kernel
  have htexts : ∀ d ∈ placedRequest.targetFiles,
      (∃ text, d.name = .text text) ∧ ∃ text, d.package = .text text := by
    intro d hd
    obtain ⟨t, ht, hfile⟩ := List.mem_filterMap.1 hd
    obtain rfl := List.mem_singleton.1 ht
    cases hfile
    exact ⟨⟨_, rfl⟩, _, rfl⟩
  obtain ⟨answer, hanswer⟩ :=
    (located_request_answered hloads htargets htop hlocated none).2 ⟨_, rfl⟩ htexts
  refine ⟨answer, hanswer, ?_⟩
  have herror : (placedRequest.generate none).map (·.outcome.response.error) =
      .ok (some "b.proto: line 3: (odin).external must not be empty (field id)") := by
    decide +kernel
  rw [hanswer] at herror
  exact Except.ok.inj herror

/-- **A file whose name is no text is not answered**, though it loads and has
no field that would need a place. -/
theorem illegible_name_not_answered :
    let request : Request := { files := [{ name := .bytes [0xff] }] }
    (∃ loaded, Loads request.files loaded) ∧
    (∀ t ∈ request.targets, t ∈ request.files.map (·.name)) ∧
    (∀ d ∈ request.targetFiles, ∀ m ∈ d.messages, m.head.isMapEntry = false) ∧
    (∀ d ∈ request.targetFiles, d.Located) ∧
    ∀ answer, request.generate none ≠ .ok answer := by
  intro request
  refine ⟨⟨_, rfl⟩, by decide, by decide +kernel, by decide +kernel, ?_⟩
  have hfails : (request.generate none).map (·.outcome) = .error (.illegible .ending) := by
    decide +kernel
  intro answer hanswer
  rw [hanswer] at hfails
  cases hfails

end OdinSchema
