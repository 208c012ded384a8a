import OdinSchema.Proofs.LoadFaults

/-!
# Which files load

The faults of files stand at their messages, at every depth, and can be said
message by message: names that are no text, fields of a oneof that is not
there, map entries without a key or a value, malformed options. So files load
exactly if no message has such a fault and every type that is referred to is
declared, before or after the reference and in whatever file
(`load_accepts_iff`).
-/

namespace OdinSchema

/-! ## Conditions on files -/

/-- Every field that gives a oneof gives one of its message, by its position
or counted from the end. -/
def OneofsInRange (files : List FileDescriptor) : Prop :=
  ∀ s ∈ files.flatMap (·.sites), ∀ field ∈ s.head.fields, field.InRange s.head.oneofs.length

/-- Every map entry that a field names has a key and a value. -/
def EntriesComplete (files : List FileDescriptor) : Prop :=
  ∀ s ∈ files.flatMap (·.sites), ∀ field ∈ s.head.fields, ∀ t ∈ files.flatMap (·.sites),
    t.head.isMapEntry = true → field.fullTypeName? = some t.fullName → 2 ≤ t.head.fields.length

/-- Every type that a field names is declared in one of the files. -/
def TypesResolved (files : List FileDescriptor) : Prop :=
  ∀ s ∈ files.flatMap (·.sites), ∀ field ∈ s.head.fields, ∀ name ∈ field.fullTypeName?,
    name ≠ "" → name ∈ files.flatMap (·.typeNames)

/-- Every name of a type is text, where it is declared and where it is
referred to. -/
structure NamesLegible (files : List FileDescriptor) : Prop where
  enums : ∀ d ∈ files, ∀ e ∈ d.enums, Legible [d.package, e.name]
  messages : ∀ s ∈ files.flatMap (·.sites), Legible s.segments
  nestedEnums : ∀ s ∈ files.flatMap (·.sites), ∀ e ∈ s.head.enums, Legible (s.segments ++ [e.name])
  references : ∀ s ∈ files.flatMap (·.sites), ∀ field ∈ s.head.fields,
    field.hasIllegibleType = false

/-- Every option that overrides a type is well formed. -/
def OptionsWellFormed (files : List FileDescriptor) : Prop :=
  ∀ s ∈ files.flatMap (·.sites), ∀ field ∈ s.head.fields,
    (Override.ofPayloads field.odin).isSome = true

instance (segments : List Verbatim) : Decidable (Legible segments) :=
  inferInstanceAs (Decidable (∀ segment ∈ segments, segment.text?.isSome))

section

variable (files : List FileDescriptor)

instance : Decidable (OneofsInRange files) :=
  inferInstanceAs (Decidable (∀ s ∈ files.flatMap (·.sites), ∀ field ∈ s.head.fields,
    field.InRange s.head.oneofs.length))

instance : Decidable (EntriesComplete files) :=
  inferInstanceAs (Decidable (∀ s ∈ files.flatMap (·.sites), ∀ field ∈ s.head.fields,
    ∀ t ∈ files.flatMap (·.sites), t.head.isMapEntry = true →
      field.fullTypeName? = some t.fullName → 2 ≤ t.head.fields.length))

instance : Decidable (TypesResolved files) :=
  inferInstanceAs (Decidable (∀ s ∈ files.flatMap (·.sites), ∀ field ∈ s.head.fields,
    ∀ name ∈ field.fullTypeName?, name ≠ "" → name ∈ files.flatMap (·.typeNames)))

instance : Decidable (NamesLegible files) :=
  decidable_of_iff ((∀ d ∈ files, ∀ e ∈ d.enums, Legible [d.package, e.name]) ∧
    (∀ s ∈ files.flatMap (·.sites), Legible s.segments) ∧
    (∀ s ∈ files.flatMap (·.sites), ∀ e ∈ s.head.enums, Legible (s.segments ++ [e.name])) ∧
    ∀ s ∈ files.flatMap (·.sites), ∀ field ∈ s.head.fields, field.hasIllegibleType = false)
  ⟨fun ⟨henums, hmessages, hnested, hreferences⟩ => ⟨henums, hmessages, hnested, hreferences⟩,
    fun ⟨henums, hmessages, hnested, hreferences⟩ => ⟨henums, hmessages, hnested, hreferences⟩⟩

instance : Decidable (OptionsWellFormed files) :=
  inferInstanceAs (Decidable (∀ s ∈ files.flatMap (·.sites), ∀ field ∈ s.head.fields,
    (Override.ofPayloads field.odin).isSome = true))

end

/-! ## Faults message by message -/

variable {sites : List Site} {e : LoadError}

/-- The faults of a message, what is nested in it left out. -/
def Site.faults (sites : List Site) (s : Site) : List LoadError :=
  nameFaults s.segments ++
    (s.head.enums.flatMap (fun e => nameFaults (s.segments ++ [e.name])) ++
      s.head.fields.flatMap (·.faults sites s.head.oneofs.length))

namespace MessageDescriptor

mutual

/-- The faults of a tree are those of its messages. -/
theorem mem_faults_iff : ∀ (d : MessageDescriptor) (outer : List Verbatim),
    e ∈ d.faults sites outer ↔ ∃ s ∈ d.sites outer, e ∈ s.faults sites
  | mk head nested, outer => by
    rw [faults, MessageDescriptor.sites, List.exists_mem_cons_iff, ← mem_faultsOf_iff nested]
    simp only [Site.faults, List.mem_append]
    tauto

theorem mem_faultsOf_iff : ∀ (ds : List MessageDescriptor) (outer : List Verbatim),
    e ∈ faultsOf sites outer ds ↔ ∃ s ∈ sitesOf outer ds, e ∈ s.faults sites
  | [], outer => by simp [faultsOf, sitesOf]
  | d :: rest, outer => by
    rw [faultsOf, sitesOf, List.mem_append, mem_faults_iff d, mem_faultsOf_iff rest]
    simp only [List.mem_append, or_and_right, exists_or]

end

mutual

/-- The references of a tree are those of the fields of its messages. -/
theorem mem_references_iff {r : Reference} : ∀ (d : MessageDescriptor) (outer : List Verbatim),
    r ∈ d.references ↔ ∃ s ∈ d.sites outer, ∃ field ∈ s.head.fields,
      field.namedReference? = some r
  | mk head nested, outer => by
    rw [references, MessageDescriptor.sites, List.exists_mem_cons_iff, List.mem_append,
      List.mem_filterMap, mem_referencesOf_iff nested (outer ++ [head.name]), or_comm]

theorem mem_referencesOf_iff {r : Reference} : ∀ (ds : List MessageDescriptor)
    (outer : List Verbatim), r ∈ referencesOf ds ↔ ∃ s ∈ sitesOf outer ds,
      ∃ field ∈ s.head.fields, field.namedReference? = some r
  | [], outer => by simp [referencesOf, sitesOf]
  | d :: rest, outer => by
    rw [referencesOf, sitesOf, List.mem_append, mem_references_iff d outer,
      mem_referencesOf_iff rest outer]
    simp only [List.mem_append, or_and_right, exists_or]

end

end MessageDescriptor

variable {files : List FileDescriptor}

theorem mem_loadFaults_iff : e ∈ loadFaults files ↔
    (∃ d ∈ files, ∃ x ∈ d.enums, e ∈ nameFaults [d.package, x.name]) ∨
      ∃ s ∈ files.flatMap (·.sites), e ∈ s.faults (files.flatMap (·.sites)) := by
  simp only [loadFaults, FileDescriptor.faults, FileDescriptor.sites, List.mem_flatMap,
    List.mem_append, MessageDescriptor.mem_faultsOf_iff, and_or_left, exists_or]
  refine or_congr_right ⟨?_, ?_⟩
  · rintro ⟨d, hd, s, hs, he⟩
    exact ⟨s, ⟨d, hd, hs⟩, he⟩
  · rintro ⟨s, ⟨d, hd, hs⟩, he⟩
    exact ⟨d, hd, s, hs, he⟩

theorem nameFaults_eq_nil_iff {segments : List Verbatim} :
    nameFaults segments = [] ↔ Legible segments := by
  rw [nameFaults]
  cases hqualify : qualify segments with
  | ok name => exact iff_of_true rfl (qualify_eq_ok_iff.1 hqualify).1
  | error e =>
    refine iff_of_false (List.cons_ne_nil _ _) fun hlegible => ?_
    cases (qualify_eq_ok_iff.2 ⟨hlegible, rfl⟩).symm.trans hqualify

theorem FieldDescriptor.faults_eq_nil_iff {d : FieldDescriptor} {oneofs : Nat} :
    d.faults sites oneofs = [] ↔ d.hasIllegibleType = false ∧ ¬ d.NamesShortEntry sites ∧
      d.InRange oneofs ∧ (Override.ofPayloads d.odin).isSome = true := by
  simp [faults, Option.isSome_iff_ne_none]

theorem Site.faults_eq_nil_iff {s : Site} : s.faults sites = [] ↔ Legible s.segments ∧
    (∀ x ∈ s.head.enums, Legible (s.segments ++ [x.name])) ∧
      ∀ field ∈ s.head.fields, field.faults sites s.head.oneofs.length = [] := by
  simp only [faults, List.append_eq_nil_iff, List.flatMap_eq_nil_iff, nameFaults_eq_nil_iff]

/-- **Files are without fault** if their names are text, their fields fit the
oneofs and the map entries, and their options are well formed. -/
theorem loadFaults_eq_nil_iff : loadFaults files = [] ↔ OneofsInRange files ∧
    EntriesComplete files ∧ NamesLegible files ∧ OptionsWellFormed files := by
  have hparts : loadFaults files = [] ↔
      (∀ d ∈ files, ∀ x ∈ d.enums, Legible [d.package, x.name]) ∧
        ∀ s ∈ files.flatMap (·.sites), s.faults (files.flatMap (·.sites)) = [] := by
    simp only [List.eq_nil_iff_forall_not_mem, mem_loadFaults_iff, ← nameFaults_eq_nil_iff]
    constructor
    · intro hnone
      exact ⟨fun d hd x hx e he => hnone e (.inl ⟨d, hd, x, hx, he⟩),
        fun s hs e he => hnone e (.inr ⟨s, hs, he⟩)⟩
    · rintro ⟨henums, hsites⟩ e (⟨d, hd, x, hx, he⟩ | ⟨s, hs, he⟩)
      · exact henums d hd x hx e he
      · exact hsites s hs e he
  rw [hparts]
  simp only [Site.faults_eq_nil_iff, FieldDescriptor.faults_eq_nil_iff]
  constructor
  · rintro ⟨henums, hsites⟩
    refine ⟨fun s hs field hfield => ((hsites s hs).2.2 field hfield).2.2.1, ?_,
      ⟨henums, fun s hs => (hsites s hs).1, fun s hs => (hsites s hs).2.1,
        fun s hs field hfield => ((hsites s hs).2.2 field hfield).1⟩,
      fun s hs field hfield => ((hsites s hs).2.2 field hfield).2.2.2⟩
    intro s hs field hfield t ht hentry hname
    have hcomplete := ((hsites s hs).2.2 field hfield).2.1
    exact Nat.le_of_not_lt fun hshort => hcomplete ⟨t, ht, hentry, hname, hshort⟩
  · rintro ⟨hrange, hcomplete, hlegible, hoptions⟩
    refine ⟨hlegible.enums, fun s hs => ⟨hlegible.messages s hs, hlegible.nestedEnums s hs,
      fun field hfield => ⟨hlegible.references s hs field hfield, ?_, hrange s hs field hfield,
        hoptions s hs field hfield⟩⟩⟩
    rintro ⟨t, ht, hentry, hname, hshort⟩
    have := hcomplete s hs field hfield t ht hentry hname
    omega

/-- If names are text and options well formed, only positions are at
fault. -/
theorem eq_outOfRange_of_mem_loadFaults (hlegible : NamesLegible files)
    (hoptions : OptionsWellFormed files) (h : e ∈ loadFaults files) : e = .outOfRange := by
  rw [mem_loadFaults_iff] at h
  rcases h with ⟨d, hd, x, hx, he⟩ | ⟨s, hs, he⟩
  · rw [nameFaults_eq_nil_iff.2 (hlegible.enums d hd x hx)] at he
    cases he
  · rw [Site.faults, nameFaults_eq_nil_iff.2 (hlegible.messages s hs), List.nil_append,
      List.mem_append, List.mem_flatMap, List.mem_flatMap] at he
    rcases he with ⟨x, hx, he⟩ | ⟨field, hfield, he⟩
    · rw [nameFaults_eq_nil_iff.2 (hlegible.nestedEnums s hs x hx)] at he
      cases he
    · rw [FieldDescriptor.faults, hlegible.references s hs field hfield,
        hoptions s hs field hfield] at he
      have hranges : field.NamesShortEntry (files.flatMap (·.sites)) ∧ e = .outOfRange ∨
          ¬ field.InRange s.head.oneofs.length ∧ e = .outOfRange := by
        simpa using he
      exact hranges.elim And.right And.right

/-- No reference dangles exactly if every type that is named is declared. -/
theorem danglingReferences_eq_nil_iff : danglingReferences files = [] ↔ TypesResolved files := by
  simp only [danglingReferences, undeclared, List.filter_eq_nil_iff, decide_eq_true_eq, not_not,
    List.forall_mem_flatMap, TypesResolved]
  constructor
  · intro hreferences d hd s hs field hfield name hname hne
    have hreference : field.namedReference? = some ⟨name, field.name⟩ := by
      rw [FieldDescriptor.namedReference?, hname, Option.filter_some_pos (by simpa using hne)]
      rfl
    exact hreferences d hd _ ((MessageDescriptor.mem_referencesOf_iff _ _).2
      ⟨s, hs, field, hfield, hreference⟩)
  · intro htypes d hd r hr
    obtain ⟨s, hs, field, hfield, hreference⟩ :=
      (MessageDescriptor.mem_referencesOf_iff _ [d.package]).1 hr
    obtain ⟨name, hname, rfl⟩ := Option.map_eq_some_iff.1 hreference
    rw [Option.filter_eq_some_iff] at hname
    exact htypes d hd s hs field hfield name hname.1 (by simpa using hname.2)

/-- **Files load exactly if** every field gives a oneof of its message, where
it gives one, every map entry that a field names has a key and a value, every
type that is named is declared, every name of a type is text and every option
is well formed. If names are text and options well formed, a load fails
because something is out of range, if that is so anywhere, and otherwise for
the first reference, in the order of loading, to a type that is not declared.
In general it fails for the first fault in the order of loading. -/
theorem load_accepts_iff (files : List FileDescriptor)
    (hnames : (files.flatMap (·.typeNames)).Nodup) (hrule : ObeysMapRule files) :
    ((∃ loaded, Loads files loaded) ↔ OneofsInRange files ∧ EntriesComplete files ∧
      TypesResolved files ∧ NamesLegible files ∧ OptionsWellFormed files) ∧
    (NamesLegible files → OptionsWellFormed files →
      (¬ (OneofsInRange files ∧ EntriesComplete files) →
        (({} : Catalog).load files).1 = .error .outOfRange) ∧
      (OneofsInRange files → EntriesComplete files → ¬ TypesResolved files →
        ∃ r, (files.flatMap (·.references)).find?
            (fun r => r.typeName ∉ files.flatMap (·.typeNames)) = some r ∧
          (({} : Catalog).load files).1 = .error (.unresolved r.typeName r.field))) ∧
    ∀ e, (loadFaults files).head? = some e → (({} : Catalog).load files).1 = .error e := by
  obtain ⟨hfault, hdangling, hloads⟩ := load_eq_first_fault hnames hrule
  refine ⟨⟨?_, ?_⟩, fun hlegible hoptions => ⟨fun hrange => ?_, fun hrange hcomplete htypes => ?_⟩,
    hfault⟩
  · rintro ⟨loaded, hloaded⟩
    have hfaultless : loadFaults files = [] := by
      rw [← List.head?_eq_none_iff, Option.eq_none_iff_forall_ne_some]
      intro e he
      cases (hfault e he).symm.trans hloaded
    have hsettled : danglingReferences files = [] := by
      rw [← List.head?_eq_none_iff, Option.eq_none_iff_forall_ne_some]
      intro r hr
      cases (hdangling hfaultless r hr).symm.trans hloaded
    obtain ⟨hrange, hcomplete, hlegible, hoptions⟩ := loadFaults_eq_nil_iff.1 hfaultless
    exact ⟨hrange, hcomplete, danglingReferences_eq_nil_iff.1 hsettled, hlegible, hoptions⟩
  · rintro ⟨hrange, hcomplete, htypes, hlegible, hoptions⟩
    exact hloads (loadFaults_eq_nil_iff.2 ⟨hrange, hcomplete, hlegible, hoptions⟩)
      (danglingReferences_eq_nil_iff.2 htypes)
  · have hfaulty : loadFaults files ≠ [] := by
      intro hnil
      obtain ⟨hinRange, hcomplete, -, -⟩ := loadFaults_eq_nil_iff.1 hnil
      exact hrange ⟨hinRange, hcomplete⟩
    have hfirst := List.head?_eq_some_head hfaulty
    have hkind := eq_outOfRange_of_mem_loadFaults hlegible hoptions (List.head_mem hfaulty)
    rw [hkind] at hfirst
    exact hfault _ hfirst
  · have hfaultless := loadFaults_eq_nil_iff.2 ⟨hrange, hcomplete, hlegible, hoptions⟩
    have hopen : danglingReferences files ≠ [] := fun hnil =>
      htypes (danglingReferences_eq_nil_iff.1 hnil)
    have hfirst := List.head?_eq_some_head hopen
    refine ⟨_, ?_, hdangling hfaultless _ hfirst⟩
    rw [← List.head?_filter]
    exact hfirst

/-- A file in which two types are not declared: one is named in a message, the
other in the message nested in it. The map of the outer message is made of the
entry nested there, and the type of `late` is declared after it. -/
def danglingFile : FileDescriptor where
  name := "dangling.proto"
  package := "p"
  messages := [
    .mk { name := "Outer", oneofs := ["choice"], fields := [
        { name := "own", code := 11, typeName := ".p.Absent" },
        { name := "map", label := .repeated, code := 11, typeName := ".p.Outer.MapEntry" },
        { name := "late", code := 11, typeName := "p.Late", oneofIndex := some (-1) }] } [
      .mk { name := "Inner", fields := [
        { name := "inner", code := 14, typeName := ".p.Gone" }] } [],
      .mk { name := "MapEntry", mapEntry := some true, fields := [
        { name := "key", code := 9 }, { name := "value", code := 5 }] } []],
    .mk { name := "Late" } []]

/-- The reference of the nested message counts, though it stands last in the
text. -/
theorem load_accepts_iff_nested_first :
    (([danglingFile].flatMap (·.typeNames)).Nodup ∧ ObeysMapRule [danglingFile]) ∧
      (({} : Catalog).load [danglingFile]).1 = .error (.unresolved "p.Gone" "inner") ∧
      (LoadError.unresolved "p.Gone" "inner").text =
        "Unable to resolve type reference 'p.Gone' for field 'inner'" := by
  have hnames : ([danglingFile].flatMap (·.typeNames)).Nodup := by decide +kernel
  have hrule : ObeysMapRule [danglingFile] := by decide +kernel
  obtain ⟨r, hfirst, herror⟩ := ((load_accepts_iff [danglingFile] hnames hrule).2.1
    (by decide +kernel) (by decide +kernel)).2 (by decide +kernel) (by decide +kernel)
    (by decide +kernel)
  have hgone : ([danglingFile].flatMap (·.references)).find?
      (fun r => r.typeName ∉ [danglingFile].flatMap (·.typeNames)) =
        some ⟨"p.Gone", "inner"⟩ := by
    decide +kernel
  cases hgone.symm.trans hfirst
  exact ⟨⟨hnames, hrule⟩, herror, by decide +kernel⟩

/-- A file whose one field carries an option that is cut off. -/
def truncatedOptionFile : FileDescriptor where
  name := "a.proto"
  messages := [.mk { name := "M", fields := [
    { name := "x", number := 1, code := 5, odin := [[0x0a]] }] } []]

/-- A file of one message whose package is no text. -/
def illegiblePackageFile : FileDescriptor where
  name := "a.proto"
  package := .bytes [0xff]
  messages := [.mk { name := "M" } []]

/-- An option that is cut off and a package that is no text keep files from
loading to which nothing else is wrong. -/
theorem resolved_types_not_accepted :
    (([truncatedOptionFile].flatMap (·.typeNames)).Nodup ∧ ObeysMapRule [truncatedOptionFile] ∧
      OneofsInRange [truncatedOptionFile] ∧ EntriesComplete [truncatedOptionFile] ∧
      TypesResolved [truncatedOptionFile] ∧
      (({} : Catalog).load [truncatedOptionFile]).1 = .error .malformedOption) ∧
    ([illegiblePackageFile].flatMap (·.typeNames)).Nodup ∧ ObeysMapRule [illegiblePackageFile] ∧
      OneofsInRange [illegiblePackageFile] ∧ EntriesComplete [illegiblePackageFile] ∧
      TypesResolved [illegiblePackageFile] ∧
      (({} : Catalog).load [illegiblePackageFile]).1 = .error (.illegible (.segment 0)) := by
  have hnames : ([truncatedOptionFile].flatMap (·.typeNames)).Nodup := by decide +kernel
  have hrule : ObeysMapRule [truncatedOptionFile] := by decide +kernel
  have hfirst : (loadFaults [truncatedOptionFile]).head? = some .malformedOption := by
    decide +kernel
  have hnames' : ([illegiblePackageFile].flatMap (·.typeNames)).Nodup := by decide +kernel
  have hrule' : ObeysMapRule [illegiblePackageFile] := by decide +kernel
  have hfirst' : (loadFaults [illegiblePackageFile]).head? =
      some (.illegible (.segment 0)) := by
    decide +kernel
  exact ⟨⟨hnames, hrule, by decide +kernel, by decide +kernel, by decide +kernel,
      (load_eq_first_fault hnames hrule).1 _ hfirst⟩,
    hnames', hrule', by decide +kernel, by decide +kernel, by decide +kernel,
    (load_eq_first_fault hnames' hrule').1 _ hfirst'⟩

end OdinSchema
