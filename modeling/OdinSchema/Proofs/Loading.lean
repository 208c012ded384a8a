import Mathlib.Data.List.Forall2
import OdinSchema.Catalog.File
import OdinSchema.Proofs.Dictionary

/-!
# What a load does

A load that ends well is a step from one catalog to another that gives a
result (`Load.Gives`). The laws of the first section open such a step along
the way it is composed, and those of `Load.Ends` do so for loads that may
fail. After them each loader has one equivalence that says all it does if it
ends well: which result it gives and how it changes the catalog. The
descent into nested messages is packaged once, as an induction over loads
of messages (`MessageDescriptor.gives_induction`), so that what a load keeps
is proved from one message and one list of them.
-/

namespace OdinSchema

variable {α β : Type} {c c' c'' : Catalog}

namespace Load

/-- A load that ends well: started on one catalog, it gives a result and
leaves another. -/
def Gives (load : Load α) (c : Catalog) (a : α) (c' : Catalog) : Prop :=
  load.run.run c = (.ok a, c')

theorem gives_pure {a b : α} : Gives (pure a) c b c' ↔ b = a ∧ c' = c := by
  constructor
  · intro h
    cases h
    exact ⟨rfl, rfl⟩
  · rintro ⟨rfl, rfl⟩
    rfl

theorem run_bind (load : Load α) (next : α → Load β) (c : Catalog) :
    (load >>= next).run.run c =
      match load.run.run c with
      | (.ok a, c') => (next a).run.run c'
      | (.error e, c') => (.error e, c') := by
  rw [ExceptT.run_bind, StateT.run_bind]
  rcases load.run.run c with ⟨_ | a, c'⟩ <;> rfl

/-- A composed load ends well if its two halves do, one after the other. -/
theorem gives_bind {load : Load α} {next : α → Load β} {b : β} :
    Gives (load >>= next) c b c'' ↔ ∃ a c', load.Gives c a c' ∧ (next a).Gives c' b c'' := by
  rw [Gives, run_bind]
  constructor
  · intro h
    rcases hload : load.run.run c with ⟨e | a, c'⟩
    · rw [hload] at h
      cases h
    · rw [hload] at h
      exact ⟨a, c', hload, h⟩
  · rintro ⟨a, c', hload, hnext⟩
    rw [Gives] at hload
    rw [hload]
    exact hnext

theorem gives_modify {f : Catalog → Catalog} {u : Unit} :
    Gives (modify f) c u c' ↔ c' = f c := by
  constructor
  · intro h
    cases h
    rfl
  · rintro rfl
    rfl

theorem gives_get {a : Catalog} : Gives get c a c' ↔ a = c ∧ c' = c := by
  constructor
  · intro h
    cases h
    exact ⟨rfl, rfl⟩
  · rintro ⟨rfl, rfl⟩
    rfl

theorem gives_ofExcept {result : Except LoadError α} {a : α} :
    Gives (ofExcept result) c a c' ↔ result = .ok a ∧ c' = c := by
  constructor
  · intro h
    cases h
    exact ⟨rfl, rfl⟩
  · rintro ⟨rfl, rfl⟩
    rfl

/-- How a load ends: with a result, or with an error, and in either case with
a catalog. -/
def Ends (load : Load α) (c : Catalog) (done : α → Catalog → Prop)
    (failed : LoadError → Catalog → Prop) : Prop :=
  match load.run.run c with
  | (.ok a, c') => done a c'
  | (.error e, c') => failed e c'

variable {done : α → Catalog → Prop} {failed : LoadError → Catalog → Prop}

theorem ends_pure {a : α} : Ends (pure a) c done failed ↔ done a c :=
  .rfl

theorem ends_modify {f : Catalog → Catalog} {done : Unit → Catalog → Prop} :
    Ends (modify f) c done failed ↔ done () (f c) :=
  .rfl

theorem ends_get {done : Catalog → Catalog → Prop} : Ends get c done failed ↔ done c c :=
  .rfl

theorem ends_ofExcept {result : Except LoadError α} : Ends (ofExcept result) c done failed ↔
    match result with
    | .ok a => done a c
    | .error e => failed e c := by
  cases result <;> exact .rfl

/-- A composed load ends as its second half does, unless the first fails. -/
theorem ends_bind {load : Load α} {next : α → Load β} {done : β → Catalog → Prop} :
    Ends (load >>= next) c done failed ↔
      load.Ends c (fun a c' => (next a).Ends c' done failed) failed := by
  rw [Ends, run_bind, Ends]
  rcases load.run.run c with ⟨_ | a, c'⟩ <;> exact .rfl

theorem Ends.imp {load : Load α} {done' : α → Catalog → Prop}
    {failed' : LoadError → Catalog → Prop} (h : load.Ends c done failed)
    (hdone : ∀ a c', done a c' → done' a c') (hfailed : ∀ e c', failed e c' → failed' e c') :
    load.Ends c done' failed' := by
  revert h
  rw [Ends, Ends]
  rcases load.run.run c with ⟨e | a, c'⟩
  · exact hfailed e c'
  · exact hdone a c'

end Load

open Load

/-! ## Names -/

/-- The full name of what is declared within segments, each of them as it
looks among other text. -/
def qualified (segments : List Verbatim) : String :=
  ".".intercalate ((segments.filter (· ≠ .text "")).map Verbatim.shown)

/-- Segments that are text, all of them. -/
def Legible (segments : List Verbatim) : Prop :=
  ∀ segment ∈ segments, segment.text?.isSome

/-- Segments give a full name if they are legible. -/
theorem qualify_eq_ok_iff {segments : List Verbatim} {name : String} :
    qualify segments = .ok name ↔ Legible segments ∧ name = qualified segments := by
  have hnone : (segments.filter (· ≠ .text "")).findIdx? (·.text?.isNone) = none ↔
      ∀ segment ∈ segments, segment.text?.isSome := by
    rw [List.findIdx?_eq_none_iff]
    constructor
    · intro h segment hmem
      by_cases hempty : segment = .text ""
      · rw [hempty]
        rfl
      · have := h segment (List.mem_filter.2 ⟨hmem, by simpa using hempty⟩)
        cases htext : segment.text? with
        | none => simp [htext] at this
        | some _ => rfl
    · intro h segment hmem
      simpa using h segment (List.mem_of_mem_filter hmem)
  rw [Legible, ← hnone, qualify]
  cases (segments.filter (· ≠ .text "")).findIdx? (·.text?.isNone) with
  | none => simp [qualified, eq_comm]
  | some position => simp

/-! ## Enums and fields -/

/-- The enum a descriptor stands for within segments. -/
def EnumDescriptor.toEnum (segments : List Verbatim) (d : EnumDescriptor) : EnumType :=
  ⟨d.name, qualified (segments ++ [d.name]), d.values⟩

theorem gives_declare {name : String} {u : Unit} :
    (declare name).Gives c u c' ↔ c' = { c with types := c.types ++ [name] } :=
  gives_modify

/-- Loading an enum declares it and does nothing else. -/
theorem EnumDescriptor.gives_load {segments : List Verbatim} {d : EnumDescriptor} {e : EnumType} :
    (d.load segments).Gives c e c' ↔ Legible (segments ++ [d.name]) ∧ e = d.toEnum segments ∧
      c' = { c with types := c.types ++ [e.fullName] } := by
  simp only [EnumDescriptor.load, gives_bind, gives_ofExcept, gives_declare, gives_pure,
    qualify_eq_ok_iff]
  constructor
  · rintro ⟨name, _, ⟨⟨hlegible, rfl⟩, rfl⟩, _, _, rfl, rfl, rfl⟩
    exact ⟨hlegible, rfl, rfl⟩
  · rintro ⟨hlegible, rfl, rfl⟩
    exact ⟨_, _, ⟨⟨hlegible, rfl⟩, rfl⟩, (), _, rfl, rfl, rfl⟩

/-- Loading enums declares them in turn. -/
theorem gives_loadEnums {segments : List Verbatim} {ds : List EnumDescriptor}
    {es : List EnumType} :
    (loadEnums segments ds).Gives c es c' ↔ (∀ d ∈ ds, Legible (segments ++ [d.name])) ∧
      es = ds.map (·.toEnum segments) ∧
      c' = { c with types := c.types ++ ds.map (fun d => qualified (segments ++ [d.name])) } := by
  induction ds generalizing c c' es with
  | nil =>
    rw [loadEnums, gives_pure]
    constructor
    · rintro ⟨rfl, rfl⟩
      simp
    · rintro ⟨-, rfl, rfl⟩
      simp
  | cons d ds ih =>
    simp only [loadEnums, gives_bind, EnumDescriptor.gives_load, ih, gives_pure]
    constructor
    · rintro ⟨_, _, ⟨hlegible, rfl, rfl⟩, _, _, ⟨hrest, rfl, rfl⟩, rfl, rfl⟩
      exact ⟨List.forall_mem_cons.2 ⟨hlegible, hrest⟩, rfl, by simp [EnumDescriptor.toEnum]⟩
    · rintro ⟨hlegible, rfl, rfl⟩
      obtain ⟨hlegible, hrest⟩ := List.forall_mem_cons.1 hlegible
      exact ⟨_, _, ⟨hlegible, rfl, rfl⟩, _, _, ⟨hrest, rfl, rfl⟩, rfl,
        by simp [EnumDescriptor.toEnum]⟩

/-- Loading a field reads it off the map entries known so far, and notes
its reference. -/
theorem FieldDescriptor.gives_load {context : FileContext} {path : List Int}
    {oneofs : List Verbatim} {d : FieldDescriptor} {f : Field} :
    (d.load context path oneofs).Gives c f c' ↔
      d.toField context.dialect (locate context.placements path) oneofs c.entries = .ok f ∧
      c' = { c with references := c.references ++ (d.reference? c.entries).toList } := by
  simp only [FieldDescriptor.load, gives_bind, gives_get, gives_modify, gives_ofExcept]
  constructor
  · rintro ⟨_, _, ⟨rfl, rfl⟩, _, _, rfl, hfield, rfl⟩
    exact ⟨hfield, rfl⟩
  · rintro ⟨hfield, rfl⟩
    exact ⟨_, _, ⟨rfl, rfl⟩, (), _, rfl, hfield, rfl⟩

/-- Fields as they are read off their descriptors, the first of which is at
position `start`, while the given map entries are known. -/
def ReadsFields (context : FileContext) (path : List Int) (oneofs : List Verbatim)
    (entries : Dictionary String Message) (start : Nat) (ds : List FieldDescriptor)
    (fs : List Field) : Prop :=
  List.Forall₂ (fun d f => d.1.toField context.dialect
    (locate context.placements (path ++ [2, (d.2 : Int)])) oneofs entries = .ok f)
    (ds.zipIdx start) fs

/-- Loading fields reads them one by one. None of them makes a map entry
known, so all are read off the same ones. -/
theorem gives_loadFields {context : FileContext} {path : List Int} {oneofs : List Verbatim}
    {start : Nat} {ds : List FieldDescriptor} {fs : List Field} :
    (loadFields context path oneofs start ds).Gives c fs c' ↔
      ReadsFields context path oneofs c.entries start ds fs ∧
      c' = { c with
        references := c.references ++ ds.flatMap (fun d => (d.reference? c.entries).toList) } := by
  rw [ReadsFields]
  induction ds generalizing c c' fs start with
  | nil => simp [loadFields, gives_pure]
  | cons d ds ih =>
    simp only [loadFields, gives_bind, FieldDescriptor.gives_load, ih, gives_pure,
      List.zipIdx_cons, List.forall₂_cons_left_iff]
    constructor
    · rintro ⟨f, _, ⟨hfield, rfl⟩, fs, _, ⟨hfields, rfl⟩, rfl, rfl⟩
      exact ⟨⟨f, fs, hfield, hfields, rfl⟩, by simp⟩
    · rintro ⟨⟨f, fs, hfield, hfields, rfl⟩, rfl⟩
      exact ⟨f, _, ⟨hfield, rfl⟩, fs, _, ⟨hfields, rfl⟩, rfl, by simp⟩

/-! ## Messages -/

/-- The message a descriptor stands for, given its fields. The segments end
with its own name. -/
def MessageDescriptorHead.assemble (segments : List Verbatim) (fields : List Field)
    (head : MessageDescriptorHead) : MessageHead where
  name := head.name
  fullName := qualified segments
  fields := fields
  oneofs := fields.foldl assignMember
    (head.oneofs.map fun name => { name, fullName := qualified segments ++ "." ++ name.shown })
  enums := head.enums.map (·.toEnum segments)
  isMapEntry := head.mapEntry.getD false

/-- The last part of loading a message, from the catalog in which the
messages nested in it are loaded. -/
structure MessageDescriptorHead.Closes (context : FileContext) (segments : List Verbatim)
    (path : List Int) (head : MessageDescriptorHead) (nested : List Message) (c : Catalog)
    (m : Message) (c' : Catalog) : Prop where
  legible : Legible segments
  legible_enums : ∀ d ∈ head.enums, Legible (segments ++ [d.name])
  reads : ReadsFields context path head.oneofs c.entries 0 head.fields m.head.fields
  message_eq : m = .mk (head.assemble segments m.head.fields) nested
  catalog_eq : c' = { c with
    types := c.types ++ head.enums.map (fun d => qualified (segments ++ [d.name]))
    references := c.references ++ head.fields.flatMap (fun d => (d.reference? c.entries).toList) }

/-- A map entry becomes known; other messages do not change the catalog. -/
def Catalog.register (c : Catalog) (m : Message) : Catalog :=
  if m.head.isMapEntry then { c with entries := c.entries.set m.head.fullName m } else c

namespace MessageDescriptor

variable {context : FileContext} {segments : List Verbatim} {path : List Int} {start : Nat}

/-- Loading a message declares it, loads what is nested in it and closes
it. -/
theorem gives_load {head : MessageDescriptorHead} {nested : List MessageDescriptor}
    {m : Message} :
    ((mk head nested).load context segments path).Gives c m c' ↔
      ∃ ms c₁, (loadNested context (segments ++ [head.name]) path 0 nested).Gives
          { c with types := c.types ++ [qualified (segments ++ [head.name])] } ms c₁ ∧
        head.Closes context (segments ++ [head.name]) path ms c₁ m c' := by
  simp only [load, gives_bind, gives_ofExcept, gives_declare, gives_loadEnums, gives_loadFields,
    gives_pure, qualify_eq_ok_iff]
  constructor
  · rintro ⟨_, _, ⟨⟨hlegible, rfl⟩, rfl⟩, _, _, rfl, ms, c₁, hnested, _, _, ⟨henums, rfl, rfl⟩,
      fields, _, ⟨hreads, rfl⟩, rfl, rfl⟩
    exact ⟨ms, c₁, hnested, hlegible, henums, hreads, rfl, rfl⟩
  · rintro ⟨ms, c₁, hnested, hlegible, henums, hreads, hm, rfl⟩
    refine ⟨_, _, ⟨⟨hlegible, rfl⟩, rfl⟩, (), _, rfl, ms, c₁, hnested, _, _, ⟨henums, rfl, rfl⟩,
      m.head.fields, _, ⟨hreads, rfl⟩, hm, rfl⟩

theorem gives_loadNested_nil {ms : List Message} :
    (loadNested context segments path start []).Gives c ms c' ↔ ms = [] ∧ c' = c := by
  rw [loadNested, gives_pure]

/-- Loading nested messages loads the first, registers it and goes on. -/
theorem gives_loadNested_cons {d : MessageDescriptor} {rest : List MessageDescriptor}
    {ms : List Message} :
    (loadNested context segments path start (d :: rest)).Gives c ms c' ↔
      ∃ m c₁ ms', (d.load context segments (path ++ [3, (start : Int)])).Gives c m c₁ ∧
        (loadNested context segments path (start + 1) rest).Gives (c₁.register m) ms' c' ∧
        ms = m :: ms' := by
  -- the rest of the loop stands in both branches of the test for a map entry
  have hregister : ∀ (m : Message) (c₁ : Catalog) (next : Load (List Message)),
      Gives (if m.head.isMapEntry then do
        modify fun c => { c with entries := c.entries.set m.head.fullName m }
        next else next) c₁ ms c' ↔ next.Gives (c₁.register m) ms c' := by
    intro m c₁ next
    by_cases h : m.head.isMapEntry
    · simp [Catalog.register, h, gives_bind, gives_modify]
    · simp [Catalog.register, h]
  rw [loadNested, gives_bind]
  simp only [hregister, gives_bind, gives_pure]
  constructor
  · rintro ⟨m, c₁, hm, ms', _, hrest, rfl, rfl⟩
    exact ⟨m, c₁, ms', hm, hrest, rfl⟩
  · rintro ⟨m, c₁, ms', hm, hrest, rfl⟩
    exact ⟨m, c₁, hm, ms', _, hrest, rfl, rfl⟩

/-- The cases of an induction over loads of messages that end well: a message
is closed once the messages nested in it are loaded, and a list of messages is
empty, or its first is loaded and registered in front of the rest. -/
structure GivesCases (context : FileContext)
    (P : List Verbatim → List Int → MessageDescriptor → Catalog → Message → Catalog → Prop)
    (Q : List Verbatim → List Int → Nat → List MessageDescriptor → Catalog → List Message →
      Catalog → Prop) : Prop where
  message : ∀ segments path head nested c ms c₁ m c',
    Q (segments ++ [head.name]) path 0 nested
      { c with types := c.types ++ [qualified (segments ++ [head.name])] } ms c₁ →
    head.Closes context (segments ++ [head.name]) path ms c₁ m c' →
    P segments path (mk head nested) c m c'
  nil : ∀ segments path start c, Q segments path start [] c [] c
  cons : ∀ segments path (start : Nat) d rest c m c₁ ms c',
    P segments (path ++ [3, (start : Int)]) d c m c₁ →
    Q segments path (start + 1) rest (c₁.register m) ms c' →
    Q segments path start (d :: rest) c (m :: ms) c'

section Induction

variable {P : List Verbatim → List Int → MessageDescriptor → Catalog → Message → Catalog → Prop}
variable {Q : List Verbatim → List Int → Nat → List MessageDescriptor → Catalog → List Message →
  Catalog → Prop}

mutual

private theorem GivesCases.of_load (cases : GivesCases context P Q) : ∀ d segments path c m c',
    (load context segments path d).Gives c m c' → P segments path d c m c'
  | .mk head nested, segments, path, c, m, c', h => by
    obtain ⟨ms, c₁, hnested, hcloses⟩ := gives_load.1 h
    exact cases.message _ _ _ _ _ _ _ _ _ (cases.of_loadNested nested _ _ _ _ _ _ hnested) hcloses

private theorem GivesCases.of_loadNested (cases : GivesCases context P Q) :
    ∀ ds segments path start c ms c',
      (loadNested context segments path start ds).Gives c ms c' → Q segments path start ds c ms c'
  | [], segments, path, start, c, ms, c', h => by
    obtain ⟨rfl, rfl⟩ := gives_loadNested_nil.1 h
    exact cases.nil _ _ _ _
  | d :: rest, segments, path, start, c, ms, c', h => by
    obtain ⟨m, c₁, ms', hm, hrest, rfl⟩ := gives_loadNested_cons.1 h
    exact cases.cons _ _ _ _ _ _ _ _ _ _ (cases.of_load d _ _ _ _ _ hm)
      (cases.of_loadNested rest _ _ _ _ _ _ hrest)

end

/-- **Induction over loads of messages.** What holds of a message once it
holds of the messages nested in it, and of a list of messages once it holds
of the first and of the rest, holds of every load that ends well. -/
theorem gives_induction (cases : GivesCases context P Q) :
    (∀ {d segments path c m c'}, (load context segments path d).Gives c m c' →
      P segments path d c m c') ∧
    (∀ {ds segments path start c ms c'},
      (loadNested context segments path start ds).Gives c ms c' →
      Q segments path start ds c ms c') :=
  ⟨fun h => cases.of_load _ _ _ _ _ _ h, fun h => cases.of_loadNested _ _ _ _ _ _ _ h⟩

end Induction

/-- Loading messages leaves the loaded files alone. -/
theorem files_eq_of_gives_load {d : MessageDescriptor} {m : Message}
    (h : (d.load context segments path).Gives c m c') : c'.files = c.files := by
  refine (gives_induction (P := fun _ _ _ c _ c' => c'.files = c.files)
    (Q := fun _ _ _ _ c _ c' => c'.files = c.files) ⟨?_, ?_, ?_⟩).1 h
  · intro segments path head nested c ms c₁ m c' hnested hcloses
    rw [hcloses.catalog_eq, hnested]
  · intro segments path start c
    rfl
  · intro segments path start d rest c m c₁ ms c' hm hrest
    rw [hrest, ← hm, Catalog.register]
    split <;> rfl

end MessageDescriptor

/-! ## Files -/

theorem gives_loadMessages_nil {context : FileContext} {segments : List Verbatim} {start : Nat}
    {ms : List Message} :
    (loadMessages context segments start []).Gives c ms c' ↔ ms = [] ∧ c' = c := by
  rw [loadMessages, gives_pure]

/-- Loading the messages of a file loads the first and goes on; a message of
the file itself is not registered. -/
theorem gives_loadMessages_cons {context : FileContext} {segments : List Verbatim} {start : Nat}
    {d : MessageDescriptor} {rest : List MessageDescriptor} {ms : List Message} :
    (loadMessages context segments start (d :: rest)).Gives c ms c' ↔
      ∃ m c₁ ms', (d.load context segments [4, (start : Int)]).Gives c m c₁ ∧
        (loadMessages context segments (start + 1) rest).Gives c₁ ms' c' ∧ ms = m :: ms' := by
  simp only [loadMessages, gives_bind, gives_pure]
  constructor
  · rintro ⟨m, c₁, hm, ms', _, hrest, rfl, rfl⟩
    exact ⟨m, c₁, ms', hm, hrest, rfl⟩
  · rintro ⟨m, c₁, ms', hm, hrest, rfl⟩
    exact ⟨m, c₁, hm, ms', _, hrest, rfl, rfl⟩

theorem files_eq_of_gives_loadMessages {context : FileContext} {segments : List Verbatim}
    {start : Nat} {ds : List MessageDescriptor} {ms : List Message}
    (h : (loadMessages context segments start ds).Gives c ms c') : c'.files = c.files := by
  induction ds generalizing c start ms with
  | nil => rw [(gives_loadMessages_nil.1 h).2]
  | cons d rest ih =>
    obtain ⟨m, c₁, ms', hm, hrest, rfl⟩ := gives_loadMessages_cons.1 h
    rw [ih hrest, MessageDescriptor.files_eq_of_gives_load hm]

namespace FileDescriptor

/-- What the messages of a file have in common. -/
def context (d : FileDescriptor) : FileContext :=
  ⟨d.givenDialect, d.placements⟩

/-- The file a descriptor stands for, given its messages. -/
def assemble (messages : List Message) (d : FileDescriptor) : File where
  name := d.name
  package := d.package.given?
  dialect := d.givenDialect
  dependencies := d.dependencies
  messages := messages
  enums := d.enums.map (·.toEnum [d.package])

/-- Loading a file declares its enums and loads its messages. -/
theorem gives_load {d : FileDescriptor} {f : File} :
    d.load.Gives c f c' ↔ (∀ e ∈ d.enums, Legible [d.package, e.name]) ∧
      ∃ ms, (loadMessages d.context [d.package] 0 d.messages).Gives
          { c with types := c.types ++ d.enums.map (fun e => qualified [d.package, e.name]) }
          ms c' ∧
        f = d.assemble ms := by
  simp only [load, gives_bind, gives_loadEnums, gives_pure]
  constructor
  · rintro ⟨_, _, ⟨henums, rfl, rfl⟩, ms, _, hms, rfl, rfl⟩
    exact ⟨henums, ms, hms, rfl⟩
  · rintro ⟨henums, ms, hms, rfl⟩
    exact ⟨_, _, ⟨henums, rfl, rfl⟩, ms, _, hms, rfl, rfl⟩

theorem files_eq_of_gives_load {d : FileDescriptor} {f : File} (h : d.load.Gives c f c') :
    c'.files = c.files := by
  obtain ⟨-, ms, hms, -⟩ := gives_load.1 h
  rw [files_eq_of_gives_loadMessages hms]

end FileDescriptor

theorem gives_loadFiles_nil {u : Unit} : (loadFiles []).Gives c u c' ↔ c' = c := by
  simp [loadFiles, gives_pure]

/-- Loading files loads the first, keeps it under its name and goes on. -/
theorem gives_loadFiles_cons {d : FileDescriptor} {rest : List FileDescriptor} {u : Unit} :
    (loadFiles (d :: rest)).Gives c u c' ↔
      ∃ f c₁, d.load.Gives c f c₁ ∧
        (loadFiles rest).Gives { c₁ with files := c₁.files.set d.name f } u c' := by
  simp only [loadFiles, gives_bind, gives_modify]
  constructor
  · rintro ⟨f, c₁, hf, _, _, rfl, hrest⟩
    exact ⟨f, c₁, hf, hrest⟩
  · rintro ⟨f, c₁, hf, hrest⟩
    exact ⟨f, c₁, hf, (), _, rfl, hrest⟩

/-- Loading one list of files after another loads both. -/
theorem gives_loadFiles_append {before after : List FileDescriptor} {u : Unit} :
    (loadFiles (before ++ after)).Gives c u c'' ↔
      ∃ c', (loadFiles before).Gives c () c' ∧ (loadFiles after).Gives c' u c'' := by
  induction before generalizing c with
  | nil => simp [gives_loadFiles_nil]
  | cons d rest ih =>
    simp only [List.cons_append, gives_loadFiles_cons, ih]
    constructor
    · rintro ⟨f, c₁, hf, c', hrest, hafter⟩
      exact ⟨c', ⟨f, c₁, hf, hrest⟩, hafter⟩
    · rintro ⟨c', ⟨f, c₁, hf, hrest⟩, hafter⟩
      exact ⟨f, c₁, hf, c', hrest, hafter⟩

/-- The check of references ends well if every type referred to is
declared. -/
theorem gives_checkReferences {u : Unit} :
    checkReferences.Gives c u c' ↔ (∀ r ∈ c.references, r.typeName ∈ c.types) ∧ c' = c := by
  have hfind : c.references.find? (fun r => r.typeName ∉ c.types) = none ↔
      ∀ r ∈ c.references, r.typeName ∈ c.types := by
    simp [List.find?_eq_none]
  rw [← hfind, checkReferences, gives_bind]
  constructor
  · rintro ⟨_, _, hget, hcheck⟩
    obtain ⟨rfl, rfl⟩ := gives_get.1 hget
    revert hcheck
    split
    · intro hcheck
      cases hcheck
    · rename_i hnone
      intro hcheck
      exact ⟨hnone, (gives_pure.1 hcheck).2⟩
  · rintro ⟨hnone, rfl⟩
    refine ⟨c', c', gives_get.2 ⟨rfl, rfl⟩, ?_⟩
    rw [hnone]
    exact gives_pure.2 ⟨rfl, rfl⟩

/-- Files that load, from nothing known, and what they are loaded to. -/
def Loads (files : List FileDescriptor) (loaded : Dictionary Verbatim File) : Prop :=
  (({} : Catalog).load files).1 = .ok loaded

/-- Files load if each of them does in turn and all references are found
declared in the end. -/
theorem loads_iff {files : List FileDescriptor} {loaded : Dictionary Verbatim File} :
    Loads files loaded ↔ ∃ c, (loadFiles files).Gives {} () c ∧
      (∀ r ∈ c.references, r.typeName ∈ c.types) ∧ loaded = c.files := by
  have hall : ∀ c', (loadAll files).Gives {} () c' ↔ ∃ c, (loadFiles files).Gives {} () c ∧
      (∀ r ∈ c.references, r.typeName ∈ c.types) ∧ c' = { c with complete := true } := by
    intro c'
    simp only [loadAll, gives_bind, gives_checkReferences, gives_modify]
    constructor
    · rintro ⟨_, c, hfiles, _, _, ⟨hreferences, rfl⟩, rfl⟩
      exact ⟨_, hfiles, hreferences, rfl⟩
    · rintro ⟨c, hfiles, hreferences, rfl⟩
      exact ⟨(), c, hfiles, (), c, ⟨hreferences, rfl⟩, rfl⟩
  have hload : Loads files loaded ↔ ∃ c', (loadAll files).Gives {} () c' ∧ loaded = c'.files := by
    rw [Loads, Catalog.load, if_neg (by simp)]
    simp only [Gives]
    rcases (loadAll files).run.run {} with ⟨_ | u, c⟩
    · constructor
      · intro h
        cases h
      · rintro ⟨_, h, -⟩
        cases h
    · constructor
      · intro h
        cases h
        exact ⟨c, rfl, rfl⟩
      · rintro ⟨_, h, rfl⟩
        cases h
        rfl
  rw [hload]
  constructor
  · rintro ⟨c', hgives, rfl⟩
    obtain ⟨c, hfiles, hreferences, rfl⟩ := (hall c').1 hgives
    exact ⟨c, hfiles, hreferences, rfl⟩
  · rintro ⟨c, hfiles, hreferences, rfl⟩
    exact ⟨_, (hall _).2 ⟨c, hfiles, hreferences, rfl⟩, rfl⟩

/-- The file of a name once the files of a request are loaded, if they load
and there is one. -/
def loadedFile? (files : List FileDescriptor) (name : Verbatim) : Option File :=
  (({} : Catalog).load files).1.toOption.bind (·.get? name)

/-- To load a file and look at it shows what it is loaded to. -/
theorem exists_loaded_of_any {files : List FileDescriptor} {name : Verbatim} {P : File → Prop}
    [DecidablePred P] (h : (loadedFile? files name).any (fun f => P f)) :
    ∃ loaded f, Loads files loaded ∧ loaded.get? name = some f ∧ P f := by
  obtain ⟨f, hf, hP⟩ := (Option.any_eq_true _ _).1 h
  obtain ⟨loaded, hloaded, hget⟩ := Option.bind_eq_some_iff.1 hf
  refine ⟨loaded, f, ?_, hget, of_decide_eq_true hP⟩
  rw [Loads]
  cases hload : (({} : Catalog).load files).1 with
  | error cause =>
    rw [hload] at hloaded
    cases hloaded
  | ok files =>
    rw [hload] at hloaded
    rw [Option.some.inj hloaded]

end OdinSchema
