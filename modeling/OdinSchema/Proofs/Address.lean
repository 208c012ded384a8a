import OdinSchema.Proofs.Independence
import OdinSchema.Proofs.Provenance

/-!
# Addresses of declarations

A message is found in its file by an address: its position at the top of the
file, or that of the message it stands in followed by positions on the way
down. Descriptors and loaded files are trees of one shape, so an address
finds a message in both or in neither, and the message it finds in the loaded
file is put together from the one it finds in the descriptor
(`FileDescriptor.loads_message`). The path by which the source text places a
declaration is read off its address.
-/

namespace OdinSchema

variable {c c' : Catalog}

/-- The place of a message in its file: the position of a message at the
top, and positions among nested messages on the way down from it. -/
structure MessageAddress where
  top : Nat
  way : List Nat := []
  deriving DecidableEq, Repr

/-- The path of a way down through nested messages. -/
def wayPath (way : List Nat) : List Int :=
  way.flatMap fun (j : Nat) => [3, (j : Int)]

namespace MessageAddress

/-- The path by which the source text places the message. -/
def path (a : MessageAddress) : List Int :=
  [4, (a.top : Int)] ++ wayPath a.way

/-- The address of a message nested in the message. -/
def child (a : MessageAddress) (position : Nat) : MessageAddress :=
  { a with way := a.way ++ [position] }

end MessageAddress

/-! ## Finding messages -/

/-- The messages nested directly in a message. -/
def MessageDescriptor.nested : MessageDescriptor → List MessageDescriptor
  | mk _ nested => nested

/-- The message at the end of a way down. -/
def MessageDescriptor.within? : List Nat → MessageDescriptor → Option MessageDescriptor
  | [], d => some d
  | position :: way, d => d.nested[position]?.bind (within? way)

/-- The message at the end of a way down. -/
def Message.within? : List Nat → Message → Option Message
  | [], m => some m
  | position :: way, m => m.nested[position]?.bind (within? way)

/-- The message of a file at an address. -/
def FileDescriptor.message? (d : FileDescriptor) (a : MessageAddress) : Option MessageDescriptor :=
  d.messages[a.top]?.bind (·.within? a.way)

/-- The message of a file at an address. -/
def File.message? (f : File) (a : MessageAddress) : Option Message :=
  f.messages[a.top]?.bind (·.within? a.way)

/-- A way down can be extended by one step. -/
theorem Message.within?_append (way : List Nat) (position : Nat) (m : Message) :
    m.within? (way ++ [position]) = (m.within? way).bind fun n => n.nested[position]? := by
  induction way generalizing m with
  | nil =>
    rw [List.nil_append, within?, within?, Option.bind_some]
    cases m.nested[position]? with
    | none => rfl
    | some n => rfl
  | cons step way ih =>
    rw [List.cons_append, within?, within?, Option.bind_assoc]
    congr 1
    funext n
    exact ih n

/-- A message nested in the message at an address is found at the child
address. -/
theorem File.message?_child (f : File) (a : MessageAddress) (position : Nat) :
    f.message? (a.child position) = (f.message? a).bind fun m => m.nested[position]? := by
  rw [message?, message?, Option.bind_assoc]
  congr 1
  funext m
  exact m.within?_append a.way position

namespace Message

mutual

/-- A message that is nested in another is at the end of a way down. -/
theorem exists_within?_of_mem_heads : ∀ m : Message, ∀ head ∈ m.heads,
    ∃ way n, m.within? way = some n ∧ n.head = head
  | mk own nested, head, hhead => by
    rw [heads, List.mem_cons] at hhead
    rcases hhead with rfl | hhead
    · exact ⟨[], _, rfl, rfl⟩
    · obtain ⟨position, way, n, hn, hhead⟩ := exists_within?_of_mem_headsOf nested head hhead
      exact ⟨position :: way, n, hn, hhead⟩

theorem exists_within?_of_mem_headsOf : ∀ ms : List Message, ∀ head ∈ headsOf ms,
    ∃ (position : Nat) (way : List Nat) (n : Message),
      ms[position]?.bind (within? way) = some n ∧ n.head = head
  | [], head, hhead => absurd hhead List.not_mem_nil
  | m :: rest, head, hhead => by
    rw [headsOf, List.mem_append] at hhead
    rcases hhead with hhead | hhead
    · obtain ⟨way, n, hn⟩ := exists_within?_of_mem_heads m head hhead
      exact ⟨0, way, n, hn⟩
    · obtain ⟨position, way, n, hn⟩ := exists_within?_of_mem_headsOf rest head hhead
      exact ⟨position + 1, way, n, hn⟩

end

end Message

/-- Every message of a file has an address. -/
theorem File.exists_message?_of_mem_heads {f : File} {head : MessageHead} (h : head ∈ f.heads) :
    ∃ a m, f.message? a = some m ∧ m.head = head := by
  obtain ⟨top, way, m, hm⟩ := Message.exists_within?_of_mem_headsOf f.messages head h
  exact ⟨⟨top, way⟩, m, hm⟩

/-! ## Loading keeps addresses -/

/-- A message put together from a descriptor, its fields read at the path of
the message. -/
def MessageDescriptorHead.LoadsTo (context : FileContext) (path : List Int)
    (d : MessageDescriptorHead) (m : MessageHead) : Prop :=
  ∃ segments entries, ReadsFields context path d.oneofs entries 0 d.fields m.fields ∧
    m = d.assemble segments m.fields

/-- **A way down leads to the same place** in a message and in its
descriptor. -/
theorem MessageDescriptor.loads_within {context : FileContext} {segments : List Verbatim}
    {path : List Int} {d : MessageDescriptor} {m : Message}
    (h : (d.load context segments path).Gives c m c') (way : List Nat) :
    Option.Rel (fun d m => d.head.LoadsTo context (path ++ wayPath way) m.head)
      (d.within? way) (m.within? way) := by
  revert way
  refine (gives_induction (P := fun _ path d _ m _ => ∀ way : List Nat,
      Option.Rel (fun d m => d.head.LoadsTo context (path ++ wayPath way) m.head)
        (d.within? way) (m.within? way))
    (Q := fun _ path start ds _ ms _ => ∀ (position : Nat) (way : List Nat),
      Option.Rel (fun d m => d.head.LoadsTo context
          (path ++ [3, ((start + position : Nat) : Int)] ++ wayPath way) m.head)
        (ds[position]?.bind (within? way)) (ms[position]?.bind (Message.within? way)))
    ⟨?_, ?_, ?_⟩).1 h
  · intro segments path head nested c ms c₁ m c' hnested hcloses way
    cases way with
    | nil =>
      refine .some ⟨segments ++ [head.name], c₁.entries, ?_, ?_⟩
      · rw [wayPath, List.flatMap_nil, List.append_nil]
        exact hcloses.reads
      · exact congrArg Message.head hcloses.message_eq
    | cons position way =>
      have hinner : m.nested = ms := congrArg Message.nested hcloses.message_eq
      have hstep := hnested position way
      rw [Nat.zero_add, List.append_assoc] at hstep
      rw [within?, Message.within?, hinner]
      exact hstep
  · intro segments path start c position way
    exact .none
  · intro segments path start d rest c m c₁ ms c' hd hrest position way
    cases position with
    | zero => exact hd way
    | succ position =>
      have hstep := hrest position way
      rw [Nat.add_right_comm, Nat.add_assoc] at hstep
      exact hstep

/-- The same for the messages at the top of a file. -/
theorem loadMessages_within {context : FileContext} {segments : List Verbatim} {start : Nat}
    {ds : List MessageDescriptor} {ms : List Message}
    (h : (loadMessages context segments start ds).Gives c ms c') (position : Nat)
    (way : List Nat) :
    Option.Rel (fun d m => d.head.LoadsTo context
        ([4, ((start + position : Nat) : Int)] ++ wayPath way) m.head)
      (ds[position]?.bind (·.within? way)) (ms[position]?.bind (·.within? way)) := by
  induction ds generalizing c start ms position with
  | nil =>
    obtain ⟨rfl, -⟩ := gives_loadMessages_nil.1 h
    exact .none
  | cons d rest ih =>
    obtain ⟨m, c₁, ms', hm, hrest, rfl⟩ := gives_loadMessages_cons.1 h
    cases position with
    | zero => exact MessageDescriptor.loads_within hm way
    | succ position =>
      have hstep := ih hrest position
      rw [Nat.add_right_comm, Nat.add_assoc] at hstep
      exact hstep

/-- **An address finds a message in a file and in its descriptor, or in
neither**, and the one is put together from the other at the path of the
address. -/
theorem FileDescriptor.loads_message {d : FileDescriptor} {f : File} (h : d.load.Gives c f c')
    (a : MessageAddress) :
    Option.Rel (fun d' m => d'.head.LoadsTo d.context a.path m.head)
      (d.message? a) (f.message? a) := by
  obtain ⟨-, ms, hms, rfl⟩ := gives_load.1 h
  have hstep := loadMessages_within hms a.top a.way
  rw [Nat.zero_add] at hstep
  exact hstep

/-! ## Places -/

/-- Where a placement starts, if its span has both a line and a column. -/
def Placement.start? (q : Placement) : Option Location :=
  match q.span with
  | line :: column :: _ => some ⟨line, column⟩
  | _ => none

/-- **The place found for a path is the start of the first placement** that
has the path and both a line and a column. -/
theorem locate_eq (placements : List Placement) (path : List Int) :
    locate placements path =
      (placements.find? fun q => q.path = path ∧ 2 ≤ q.span.length).bind Placement.start? := by
  rw [locate]
  induction placements with
  | nil => rfl
  | cons q rest ih =>
    rw [List.findSome?_cons, List.find?_cons, ih]
    by_cases hpath : q.path = path
    · rcases hspan : q.span with _ | ⟨line, _ | ⟨column, more⟩⟩
      · simp [hpath]
      · simp [hpath]
      · simp [hpath, Placement.start?, hspan]
    · simp [hpath]

/-! ## Fields -/

/-- What a field keeps of the descriptor it is read off besides its type:
its name and number, the oneof it belongs to, its override and the place it
was given. -/
structure FieldDescriptor.Places (d : FieldDescriptor) (oneofs : List Verbatim)
    (location : Option Location) (f : Field) : Prop where
  name : f.head.name = d.name
  number : f.head.number = d.number
  oneofIndex : f.head.oneofIndex = d.oneofIndex
  oneof : d.oneof? oneofs = .ok f.head.oneof
  override : Override.ofPayloads d.odin = some f.head.override
  location : f.head.location = location

theorem FieldDescriptor.places_of_toField {dialect : Verbatim} {location : Option Location}
    {oneofs : List Verbatim} {entries : Dictionary String Message} {d : FieldDescriptor}
    {f : Field} (h : d.toField dialect location oneofs entries = .ok f) :
    d.Places oneofs location f := by
  obtain ⟨-, entry, oneof, override, -, honeof, hodin, rfl⟩ := toField_eq_ok_iff.1 h
  cases entry <;> exact ⟨rfl, rfl, rfl, honeof, hodin, rfl⟩

/-- Fields are read off their descriptors position by position, each at its
own path. -/
theorem ReadsFields.getElem? {context : FileContext} {path : List Int} {oneofs : List Verbatim}
    {entries : Dictionary String Message} {start : Nat} {ds : List FieldDescriptor}
    {fs : List Field} (h : ReadsFields context path oneofs entries start ds fs) (position : Nat) :
    Option.Rel (fun d f => d.toField context.dialect
        (locate context.placements (path ++ [2, ((start + position : Nat) : Int)])) oneofs
        entries = .ok f)
      ds[position]? fs[position]? := by
  rw [ReadsFields] at h
  induction ds generalizing start fs position with
  | nil =>
    rw [List.zipIdx_nil, List.forall₂_nil_left_iff] at h
    rw [h]
    exact .none
  | cons d ds ih =>
    rw [List.zipIdx_cons, List.forall₂_cons_left_iff] at h
    obtain ⟨f, fs, hf, hfs, rfl⟩ := h
    cases position with
    | zero => exact .some hf
    | succ position =>
      have hstep := ih hfs position
      rw [Nat.add_right_comm, Nat.add_assoc] at hstep
      exact hstep

/-- The place of a field in its file: that of its message, and its position
among the fields there. -/
structure FieldAddress where
  message : MessageAddress
  position : Nat
  deriving DecidableEq, Repr

/-- The path by which the source text places the field. -/
def FieldAddress.path (a : FieldAddress) : List Int :=
  a.message.path ++ [2, (a.position : Int)]

/-- The field of a file at an address. -/
def FileDescriptor.field? (d : FileDescriptor) (a : FieldAddress) : Option FieldDescriptor :=
  (d.message? a.message).bind fun m => m.head.fields[a.position]?

/-- The field of a file at an address. -/
def File.field? (f : File) (a : FieldAddress) : Option Field :=
  (f.message? a.message).bind fun m => m.head.fields[a.position]?

/-- And so has every field. -/
theorem File.exists_field?_of_mem {f : File} {head : MessageHead} (hhead : head ∈ f.heads)
    {y : Field} (hy : y ∈ head.fields) : ∃ a, f.field? a = some y := by
  obtain ⟨message, m, hm, rfl⟩ := exists_message?_of_mem_heads hhead
  obtain ⟨position, hposition⟩ := List.mem_iff_getElem?.1 hy
  exact ⟨⟨message, position⟩, by rw [field?, hm, Option.bind_some, hposition]⟩

/-- **An address finds a field in a file and in its descriptor, or in
neither**, and the one is read off the other at the path of the address. -/
theorem FileDescriptor.loads_field {d : FileDescriptor} {f : File} (h : d.load.Gives c f c')
    (a : FieldAddress) :
    Option.Rel (fun x y => ∃ oneofs entries,
        x.toField d.givenDialect (locate d.placements a.path) oneofs entries = .ok y)
      (d.field? a) (f.field? a) := by
  have hmessage := loads_message h a.message
  rw [field?, File.field?]
  generalize d.message? a.message = described, f.message? a.message = found at hmessage ⊢
  cases hmessage with
  | none => exact .none
  | @some described m hloads =>
    obtain ⟨segments, entries, hreads, -⟩ := hloads
    have hfield := hreads.getElem? a.position
    rw [Nat.zero_add] at hfield
    rw [Option.bind_some, Option.bind_some]
    generalize described.head.fields[a.position]? = x, m.head.fields[a.position]? = y at hfield ⊢
    cases hfield with
    | none => exact .none
    | some hread => exact .some ⟨_, entries, hread⟩

end OdinSchema
