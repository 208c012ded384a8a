import OdinSchema.Proofs.Loading

/-!
# The declarations of a descriptor tree

A file describes a tree of messages. `sites` lists the messages of the
tree, each with the segments of its full name and the messages nested in
it, so that what holds of every message at every depth is said about the
members of one list. Names, fields and map entries of a file are read off
its sites.

`ObeysMapRule` is what a compiler promises about map entries: they stand
inside the message they are made for, and only the map fields of that
message refer to them.
-/

namespace OdinSchema

/-- What a message describes, the messages nested in it left out. -/
def MessageDescriptor.head : MessageDescriptor → MessageDescriptorHead
  | mk head _ => head

/-- Whether a message is the entry of a map. -/
def MessageDescriptorHead.isMapEntry (head : MessageDescriptorHead) : Bool :=
  head.mapEntry.getD false

/-- A message in its place: the segments of its full name, its own name
last, and the messages nested in it. -/
structure Site where
  segments : List Verbatim
  head : MessageDescriptorHead
  nested : List MessageDescriptor

mutual

/-- A message and all that is nested in it, inside the given segments. -/
def MessageDescriptor.sites (outer : List Verbatim) : MessageDescriptor → List Site
  | .mk head nested =>
    ⟨outer ++ [head.name], head, nested⟩ ::
      MessageDescriptor.sitesOf (outer ++ [head.name]) nested

/-- Messages and all that is nested in them, inside the given segments. -/
def MessageDescriptor.sitesOf (outer : List Verbatim) : List MessageDescriptor → List Site
  | [] => []
  | d :: rest => d.sites outer ++ MessageDescriptor.sitesOf outer rest

end

namespace Site

/-- The full name of the message. -/
def fullName (s : Site) : String :=
  qualified s.segments

/-- The full names the message declares by itself: its own, and those of
its enums. -/
def typeNames (s : Site) : List String :=
  s.fullName :: s.head.enums.map fun d => qualified (s.segments ++ [d.name])

/-- The full names of the map entries that are nested in the message, and
in no other message inside it. -/
def entryNames (s : Site) : List String :=
  (s.nested.filter (·.head.isMapEntry)).map fun d => qualified (s.segments ++ [d.head.name])

end Site

namespace FileDescriptor

/-- The messages of a file at every depth. -/
def sites (d : FileDescriptor) : List Site :=
  MessageDescriptor.sitesOf [d.package] d.messages

/-- The full names of the types a file declares. -/
def typeNames (d : FileDescriptor) : List String :=
  d.enums.map (fun e => qualified [d.package, e.name]) ++ d.sites.flatMap Site.typeNames

end FileDescriptor

/-- Files that are told apart by their names, as are the types they
declare. -/
structure DistinctNames (files : List FileDescriptor) : Prop where
  fileNames : (files.map (·.name)).Nodup
  typeNames : (files.flatMap (·.typeNames)).Nodup

/-- The full name of a map entry among some messages. -/
def IsEntryName (sites : List Site) (name : String) : Prop :=
  ∃ s ∈ sites, s.head.isMapEntry = true ∧ s.fullName = name

/-- The rule a compiler follows for maps: a map entry is nested in a
message, and the fields that refer to it are repeated message fields of
that message. -/
structure ObeysMapRule (files : List FileDescriptor) : Prop where
  nested : ∀ d ∈ files, ∀ m ∈ d.messages, m.head.isMapEntry = false
  referred : ∀ d ∈ files, ∀ s ∈ d.sites, ∀ field ∈ s.head.fields, ∀ name ∈ field.fullTypeName?,
    IsEntryName (files.flatMap (·.sites)) name →
      name ∈ s.entryNames ∧ field.label = .repeated ∧ field.code = TypeCode.message

instance (files : List FileDescriptor) : Decidable (DistinctNames files) :=
  decidable_of_iff ((files.map (·.name)).Nodup ∧ (files.flatMap (·.typeNames)).Nodup)
    ⟨fun h => ⟨h.1, h.2⟩, fun h => ⟨h.1, h.2⟩⟩

instance (sites : List Site) (name : String) : Decidable (IsEntryName sites name) :=
  inferInstanceAs (Decidable (∃ s ∈ sites, s.head.isMapEntry = true ∧ s.fullName = name))

instance (files : List FileDescriptor) : Decidable (ObeysMapRule files) :=
  decidable_of_iff
    ((∀ d ∈ files, ∀ m ∈ d.messages, m.head.isMapEntry = false) ∧
      ∀ d ∈ files, ∀ s ∈ d.sites, ∀ field ∈ s.head.fields, ∀ name ∈ field.fullTypeName?,
        IsEntryName (files.flatMap (·.sites)) name →
          name ∈ s.entryNames ∧ field.label = .repeated ∧ field.code = TypeCode.message)
    ⟨fun h => ⟨h.1, h.2⟩, fun h => ⟨h.1, h.2⟩⟩

/-! ## Finding a message in its tree -/

variable {outer : List Verbatim} {s : Site}

namespace MessageDescriptor

theorem mem_sitesOf {ds : List MessageDescriptor} :
    s ∈ sitesOf outer ds ↔ ∃ d ∈ ds, s ∈ d.sites outer := by
  induction ds with
  | nil => simp [sitesOf]
  | cons d rest ih => simp [sitesOf, ih]

/-- A message is the first of its own sites. -/
theorem self_mem_sites (outer : List Verbatim) (d : MessageDescriptor) :
    ∃ s ∈ d.sites outer, s.segments = outer ++ [d.head.name] ∧ s.head = d.head := by
  obtain ⟨head, nested⟩ := d
  exact ⟨_, by rw [sites]; exact List.mem_cons_self, rfl, rfl⟩

mutual

private theorem nested_mem_sites_of : ∀ (d : MessageDescriptor) (outer : List Verbatim),
    ∀ s ∈ d.sites outer, ∀ n ∈ s.nested, ∀ r ∈ n.sites s.segments, r ∈ d.sites outer
  | mk head nested, outer, s, hs, n, hn, r, hr => by
    rw [sites, List.mem_cons] at hs ⊢
    rcases hs with rfl | hs
    · exact Or.inr (mem_sitesOf.2 ⟨n, hn, hr⟩)
    · exact Or.inr (nested_mem_sitesOf_of nested _ s hs n hn r hr)

private theorem nested_mem_sitesOf_of : ∀ (ds : List MessageDescriptor) (outer : List Verbatim),
    ∀ s ∈ sitesOf outer ds, ∀ n ∈ s.nested, ∀ r ∈ n.sites s.segments, r ∈ sitesOf outer ds
  | [], outer, s, hs, n, hn, r, hr => by
    simp [sitesOf] at hs
  | d :: rest, outer, s, hs, n, hn, r, hr => by
    rw [sitesOf, List.mem_append] at hs ⊢
    rcases hs with hs | hs
    · exact Or.inl (nested_mem_sites_of d outer s hs n hn r hr)
    · exact Or.inr (nested_mem_sitesOf_of rest outer s hs n hn r hr)

end

/-- What is nested in a message of a tree is in the tree. -/
theorem nested_mem_sitesOf {ds : List MessageDescriptor} {n : MessageDescriptor} {r : Site}
    (hs : s ∈ sitesOf outer ds) (hn : n ∈ s.nested) (hr : r ∈ n.sites s.segments) :
    r ∈ sitesOf outer ds :=
  nested_mem_sitesOf_of ds outer s hs n hn r hr

end MessageDescriptor

namespace FileDescriptor

variable {d : FileDescriptor} {name : String}

theorem fullName_mem_typeNames (hs : s ∈ d.sites) : s.fullName ∈ d.typeNames :=
  List.mem_append_right _ (List.mem_flatMap.2 ⟨s, hs, List.mem_cons_self⟩)

/-- A map entry nested in a message of a file is one of the types of the
file. -/
theorem mem_typeNames_of_mem_entryNames (hs : s ∈ d.sites) (h : name ∈ s.entryNames) :
    name ∈ d.typeNames := by
  obtain ⟨n, hn, rfl⟩ := List.mem_map.1 h
  obtain ⟨r, hr, hsegments, -⟩ := MessageDescriptor.self_mem_sites s.segments n
  have hmem : r ∈ d.sites := MessageDescriptor.nested_mem_sitesOf hs (List.mem_of_mem_filter hn) hr
  have hname := fullName_mem_typeNames hmem
  rwa [Site.fullName, hsegments] at hname

end FileDescriptor

theorem IsEntryName.mono {sites sites' : List Site} {name : String} (h : IsEntryName sites name)
    (hsub : sites ⊆ sites') : IsEntryName sites' name := by
  obtain ⟨s, hs, hentry⟩ := h
  exact ⟨s, hsub hs, hentry⟩

/-- Of two files with distinct types, no type is declared in both. -/
theorem not_mem_typeNames_of_nodup {before after : List FileDescriptor} {d d' : FileDescriptor}
    {name : String} (h : ((before ++ d :: after).flatMap (·.typeNames)).Nodup)
    (hd' : d' ∈ before) (hname : name ∈ d'.typeNames) : name ∉ d.typeNames := by
  intro hmem
  rw [List.flatMap_append, List.flatMap_cons, List.nodup_append] at h
  exact h.2.2 name (List.mem_flatMap.2 ⟨d', hd', hname⟩) name (List.mem_append_left _ hmem) rfl

/-- No file after one of distinct files has its name. -/
theorem DistinctNames.name_not_mem_after {before after : List FileDescriptor}
    {d : FileDescriptor} (h : DistinctNames (before ++ d :: after)) :
    d.name ∉ after.map (·.name) := by
  have hnames := h.fileNames
  rw [List.map_append, List.map_cons, List.nodup_append] at hnames
  exact (List.nodup_cons.1 hnames.2.1).1

end OdinSchema
