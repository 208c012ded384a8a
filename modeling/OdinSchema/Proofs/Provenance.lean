import OdinSchema.Proofs.Loading

/-!
# Where loaded declarations come from

Every message of a loaded file, at whatever depth, is put together from a
descriptor: its fields are read off the descriptor's, and its oneofs divide
them. `Loads.assembled` says so for all messages of all files at once. What
a field keeps of its descriptor is `FieldDescriptor.Describes`, and which
fields a oneof gets is `getElem?_foldl_assignMember`.
-/

namespace OdinSchema

/-! ## Fields -/

/-- What a field keeps of the descriptor it is read off. Only a repeated
field is a map. -/
structure FieldDescriptor.Describes (d : FieldDescriptor) (f : Field) : Prop where
  code : f.head.code = d.code
  cardinality : f.head.cardinality = d.label
  typeName : f.head.typeName = d.fullTypeName?
  kind : f.entry? = none → f.head.kind = d.kind
  label : f.entry? ≠ none → d.label = .repeated

/-- No type code stands for a map. -/
theorem FieldDescriptor.kind_ne_map (d : FieldDescriptor) : d.kind ≠ .map := by
  unfold kind
  split_ifs <;> decide

/-- A descriptor gives a field an entry only if it is repeated. -/
theorem FieldDescriptor.label_of_entryFields {entries : Dictionary String Message}
    {d : FieldDescriptor} {entry : Field × Field} (h : d.entryFields? entries = .ok (some entry)) :
    d.label = .repeated := by
  by_contra hlabel
  have hnone : d.entryMessage? entries = none := by simp [entryMessage?, hlabel]
  rw [entryFields?, hnone] at h
  cases h

/-- The field a descriptor stands for, given its entry if it is a map, its
oneof and its override. -/
def FieldDescriptor.assemble (dialect : Verbatim) (location : Option Location)
    (entry : Option (Field × Field)) (oneof : Option Verbatim) (override : Option Override)
    (d : FieldDescriptor) : Field :=
  let head := { d.head dialect location with oneof, oneofIndex := d.oneofIndex, override }
  match entry with
  | some (key, value) => .map { head with kind := .map } key value
  | none => .single head

section

variable {dialect : Verbatim} {location : Option Location} {oneofs : List Verbatim}
variable {entries : Dictionary String Message} {d : FieldDescriptor} {f : Field}

/-- A field is read off its descriptor if the four faults it may have are
absent. -/
theorem FieldDescriptor.toField_eq_ok_iff : d.toField dialect location oneofs entries = .ok f ↔
    d.hasIllegibleType = false ∧ ∃ entry oneof override, d.entryFields? entries = .ok entry ∧
      d.oneof? oneofs = .ok oneof ∧ Override.ofPayloads d.odin = some override ∧
      f = d.assemble dialect location entry oneof override := by
  rw [toField]
  constructor
  · intro h
    cases hillegible : d.hasIllegibleType with
    | true => rw [hillegible] at h; cases h
    | false =>
      cases hentry : d.entryFields? entries with
      | error e => rw [hillegible, hentry] at h; cases h
      | ok entry =>
        cases honeof : d.oneof? oneofs with
        | error e => rw [hillegible, hentry, honeof] at h; cases h
        | ok oneof =>
          cases hodin : Override.ofPayloads d.odin with
          | none => rw [hillegible, hentry, honeof, hodin] at h; cases h
          | some override =>
            rw [hillegible, hentry, honeof, hodin] at h
            refine ⟨rfl, entry, oneof, override, rfl, rfl, rfl, ?_⟩
            cases entry <;> cases h <;> rfl
  · rintro ⟨hillegible, entry, oneof, override, hentry, honeof, hodin, rfl⟩
    rw [hillegible, hentry, honeof, hodin]
    cases entry <;> rfl

theorem FieldDescriptor.entryMessage?_eq_some_iff {m : Message} : d.entryMessage? entries = some m ↔
    (d.kind = .message ∧ d.label = .repeated) ∧
      ∃ name, d.fullTypeName? = some name ∧ entries.get? name = some m := by
  rw [entryMessage?]
  split
  · rename_i hkind
    rw [Option.bind_eq_some_iff]
    exact (and_iff_right hkind).symm
  · rename_i hkind
    constructor
    · intro h
      cases h
    · exact fun h => absurd h.1 hkind

/-- A field whose type is a known entry with a key and a value is a map of
these; any other is of the kind its type code stands for. -/
theorem FieldDescriptor.toField_cases (h : d.toField dialect location oneofs entries = .ok f) :
    (d.entryMessage? entries = none ∧ f.entry? = none ∧ f.head.kind = d.kind) ∨
      ∃ entry key value rest, d.entryMessage? entries = some entry ∧
        entry.head.fields = key :: value :: rest ∧ f.entry? = some (key, value) ∧
        f.head.kind = .map := by
  obtain ⟨-, entry, oneof, override, hentry, -, -, rfl⟩ := toField_eq_ok_iff.1 h
  cases hmessage : d.entryMessage? entries with
  | none =>
    simp only [entryFields?, hmessage, Except.ok.injEq] at hentry
    cases hentry
    exact .inl ⟨rfl, rfl, rfl⟩
  | some message =>
    simp only [entryFields?, hmessage] at hentry
    split at hentry
    · rename_i key value rest hfields
      cases hentry
      exact .inr ⟨message, key, value, rest, rfl, hfields, rfl, rfl⟩
    · cases hentry

theorem FieldDescriptor.describes_of_toField
    (h : d.toField dialect location oneofs entries = .ok f) : d.Describes f := by
  obtain ⟨-, entry, oneof, override, hentry, -, -, rfl⟩ := toField_eq_ok_iff.1 h
  cases entry with
  | none => exact ⟨rfl, rfl, rfl, fun _ => rfl, fun hne => absurd rfl hne⟩
  | some entry => exact ⟨rfl, rfl, rfl, nofun, fun _ => label_of_entryFields hentry⟩

end

/-- What stands in the second of two lists stands beside something in the
first. -/
theorem exists_of_forall₂ {α β : Type} {R : α → β → Prop} {xs : List α} {ys : List β}
    (h : List.Forall₂ R xs ys) {y : β} (hy : y ∈ ys) : ∃ x ∈ xs, R x y := by
  induction h with
  | nil => cases hy
  | cons hxy _ ih =>
    rcases List.mem_cons.1 hy with rfl | hy
    · exact ⟨_, List.mem_cons_self, hxy⟩
    · obtain ⟨x, hx, hxy⟩ := ih hy
      exact ⟨x, List.mem_cons_of_mem _ hx, hxy⟩

/-- Fields are read off their descriptors in order. -/
theorem ReadsFields.forall₂ {context : FileContext} {path : List Int} {oneofs : List Verbatim}
    {entries : Dictionary String Message} {start : Nat} {ds : List FieldDescriptor}
    {fs : List Field} (h : ReadsFields context path oneofs entries start ds fs) :
    List.Forall₂ (fun d f => ∃ location,
      d.toField context.dialect location oneofs entries = .ok f) ds fs := by
  have hfst : (ds.zipIdx start).map Prod.fst = ds := List.zipIdx_map_fst start ds
  rw [← hfst, List.forall₂_map_left_iff]
  exact h.imp fun d f hfield => ⟨_, hfield⟩

/-- Each field is read off a descriptor. -/
theorem ReadsFields.exists_toField {context : FileContext} {path : List Int}
    {oneofs : List Verbatim} {entries : Dictionary String Message} {start : Nat}
    {ds : List FieldDescriptor} {fs : List Field}
    (h : ReadsFields context path oneofs entries start ds fs) :
    ∀ f ∈ fs, ∃ d ∈ ds, ∃ location,
      d.toField context.dialect location oneofs entries = .ok f :=
  fun _ hf => exists_of_forall₂ h.forall₂ hf

theorem ReadsFields.describes {context : FileContext} {path : List Int} {oneofs : List Verbatim}
    {entries : Dictionary String Message} {start : Nat} {ds : List FieldDescriptor}
    {fs : List Field} (h : ReadsFields context path oneofs entries start ds fs) :
    ∀ f ∈ fs, ∃ d ∈ ds, d.Describes f := by
  intro f hf
  obtain ⟨d, hd, location, hread⟩ := h.exists_toField f hf
  exact ⟨d, hd, FieldDescriptor.describes_of_toField hread⟩

/-! ## Oneofs -/

/-- The position of the oneof a field belongs to, among so many. -/
def Field.oneofPosition? (count : Nat) (f : Field) : Option Nat :=
  f.head.oneofIndex.bind (position? count)

theorem length_assignMember (oneofs : List Oneof) (f : Field) :
    (assignMember oneofs f).length = oneofs.length := by
  rw [assignMember]
  split <;> simp

/-- One field is added to the oneof at its position, and to no other. -/
theorem getElem?_assignMember (oneofs : List Oneof) (f : Field) (i : Nat) :
    (assignMember oneofs f)[i]? = oneofs[i]?.map fun o =>
      if f.oneofPosition? oneofs.length = some i then o.addMember f else o := by
  rw [assignMember, Field.oneofPosition?]
  cases f.head.oneofIndex.bind (position? oneofs.length) with
  | none => simp
  | some position => simp [List.getElem?_modify, Option.some.injEq]

/-- **A oneof gets the fields at its position**, in their order. -/
theorem getElem?_foldl_assignMember (fields : List Field) (oneofs : List Oneof) (i : Nat) :
    (fields.foldl assignMember oneofs)[i]? = oneofs[i]?.map fun o =>
      { o with members := o.members ++
          fields.filter fun f => f.oneofPosition? oneofs.length = some i } := by
  induction fields generalizing oneofs with
  | nil => simp
  | cons f rest ih =>
    rw [List.foldl_cons, ih, length_assignMember, getElem?_assignMember, Option.map_map]
    congr 1
    funext o
    by_cases h : f.oneofPosition? oneofs.length = some i
    · simp [h, Oneof.addMember]
    · simp [h]

/-! ## Messages -/

mutual

/-- A message and all that is nested in it, map entries included. -/
def Message.heads : Message → List MessageHead
  | .mk head nested => head :: Message.headsOf nested

/-- Messages and all that is nested in them. -/
def Message.headsOf : List Message → List MessageHead
  | [] => []
  | message :: rest => message.heads ++ Message.headsOf rest

end

/-- The messages of a file at every depth. -/
def File.heads (f : File) : List MessageHead :=
  Message.headsOf f.messages

/-- A message that is put together from a descriptor and the fields read off
it. -/
def MessageHead.Assembled (m : MessageHead) : Prop :=
  ∃ (d : MessageDescriptorHead) (segments : List Verbatim) (context : FileContext)
    (path : List Int) (entries : Dictionary String Message),
    ReadsFields context path d.oneofs entries 0 d.fields m.fields ∧
      m = d.assemble segments m.fields

variable {c c' : Catalog}

theorem MessageDescriptor.assembled_of_gives_load {context : FileContext}
    {segments : List Verbatim} {path : List Int} {d : MessageDescriptor} {m : Message}
    (h : (d.load context segments path).Gives c m c') : ∀ head ∈ m.heads, head.Assembled := by
  refine (gives_induction (P := fun _ _ _ _ m _ => ∀ head ∈ m.heads, head.Assembled)
    (Q := fun _ _ _ _ _ ms _ => ∀ head ∈ Message.headsOf ms, head.Assembled) ⟨?_, ?_, ?_⟩).1 h
  · intro segments path head nested c ms c₁ m c' hnested hcloses
    -- `Closes` gives the message in terms of its own fields
    obtain ⟨own, inner⟩ := m
    obtain ⟨-, -, hreads, hmessage, -⟩ := hcloses
    obtain ⟨hown, rfl⟩ := Message.mk.inj hmessage
    rw [Message.heads, List.forall_mem_cons]
    exact ⟨⟨head, _, context, path, c₁.entries, hreads, hown⟩, hnested⟩
  · intro segments path start c
    simp [Message.headsOf]
  · intro segments path start d rest c m c₁ ms c' hm hrest
    rw [Message.headsOf, List.forall_mem_append]
    exact ⟨hm, hrest⟩

theorem assembled_of_gives_loadMessages {context : FileContext} {segments : List Verbatim}
    {start : Nat} {ds : List MessageDescriptor} {ms : List Message}
    (h : (loadMessages context segments start ds).Gives c ms c') :
    ∀ head ∈ Message.headsOf ms, head.Assembled := by
  induction ds generalizing c start ms with
  | nil =>
    obtain ⟨rfl, -⟩ := gives_loadMessages_nil.1 h
    simp [Message.headsOf]
  | cons d rest ih =>
    obtain ⟨m, c₁, ms', hm, hrest, rfl⟩ := gives_loadMessages_cons.1 h
    rw [Message.headsOf, List.forall_mem_append]
    exact ⟨MessageDescriptor.assembled_of_gives_load hm, ih hrest⟩

/-- A file is kept by a load of files only if it was kept before, or is
loaded then. -/
theorem assembled_of_gives_loadFiles {files : List FileDescriptor} {u : Unit}
    (h : (loadFiles files).Gives c u c')
    (hkept : ∀ name f, c.files.get? name = some f → ∀ head ∈ f.heads, head.Assembled) :
    ∀ name f, c'.files.get? name = some f → ∀ head ∈ f.heads, head.Assembled := by
  induction files generalizing c with
  | nil =>
    rw [gives_loadFiles_nil.1 h]
    exact hkept
  | cons d rest ih =>
    obtain ⟨f, c₁, hf, hrest⟩ := gives_loadFiles_cons.1 h
    refine ih hrest fun name g hg => ?_
    rw [Dictionary.get?_set, FileDescriptor.files_eq_of_gives_load hf] at hg
    split at hg
    · obtain ⟨-, ms, hms, rfl⟩ := FileDescriptor.gives_load.1 hf
      cases hg
      exact assembled_of_gives_loadMessages hms
    · exact hkept name g hg

/-- **Every message of every loaded file is put together from a
descriptor.** -/
theorem Loads.assembled {files : List FileDescriptor} {loaded : Dictionary Verbatim File}
    (h : Loads files loaded) {name : Verbatim} {f : File} (hf : loaded.get? name = some f) :
    ∀ head ∈ f.heads, head.Assembled := by
  obtain ⟨c, hfiles, -, rfl⟩ := loads_iff.1 h
  exact assembled_of_gives_loadFiles hfiles (by simp) name f hf

/-- The members of a oneof are read off descriptors. -/
theorem MessageHead.Assembled.describes {m : MessageHead} (h : m.Assembled) {o : Oneof}
    (ho : o ∈ m.oneofs) : ∀ x ∈ o.members, ∃ d : FieldDescriptor, d.Describes x := by
  obtain ⟨d, segments, context, path, entries, hreads, hm⟩ := h
  rw [hm, MessageDescriptorHead.assemble] at ho
  obtain ⟨i, hi⟩ := List.mem_iff_getElem?.1 ho
  rw [getElem?_foldl_assignMember, Option.map_eq_some_iff] at hi
  obtain ⟨empty, hempty, rfl⟩ := hi
  -- the oneof is empty before the fields are divided
  obtain ⟨oneof, -, rfl⟩ := List.mem_map.1 (List.mem_of_getElem? hempty)
  intro x hx
  rw [List.nil_append] at hx
  obtain ⟨field, -, hdescribes⟩ := hreads.describes x (List.mem_of_mem_filter hx)
  exact ⟨field, hdescribes⟩

/-- The oneofs of a file, in the messages at every depth, once the files of a
request are loaded. There are none if they do not load. -/
def loadedOneofs (files : List FileDescriptor) (name : Verbatim) : List Oneof :=
  match (({} : Catalog).load files).1 with
  | .ok loaded => ((loaded.get? name).elim [] File.heads).flatMap (·.oneofs)
  | .error _ => []

theorem mem_loadedOneofs {files : List FileDescriptor} {name : Verbatim} {o : Oneof} :
    o ∈ loadedOneofs files name ↔ ∃ loaded f, Loads files loaded ∧ loaded.get? name = some f ∧
      ∃ m ∈ f.heads, o ∈ m.oneofs := by
  simp only [loadedOneofs, Loads]
  cases (({} : Catalog).load files).1 with
  | error e => simp
  | ok loaded => cases hfile : loaded.get? name <;> simp [hfile]

/-- **Every member of every loaded oneof is read off a descriptor.** -/
theorem describes_of_mem_loadedOneofs {files : List FileDescriptor} {name : Verbatim} {o : Oneof}
    (h : o ∈ loadedOneofs files name) : ∀ x ∈ o.members, ∃ d : FieldDescriptor, d.Describes x := by
  obtain ⟨loaded, f, hloads, hf, m, hm, ho⟩ := mem_loadedOneofs.1 h
  exact (hloads.assembled hf m hm).describes ho

end OdinSchema
