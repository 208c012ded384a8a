import OdinSchema.Proofs.Independence
import OdinSchema.Proofs.Provenance

/-!
# What loaded fields refer to

A reference is noted when its field is loaded and looked up when all files
are. Between the two stands a case that is never noted: a field whose type is
a known map entry becomes a map, and refers to nothing but what the key and
the value of the entry refer to. So two facts about a catalog carry the
argument, and every load keeps them. What the fields of its entries refer to
was noted (`Catalog.Sound`), and what was noted or known stays so
(`Catalog.Extends`). That no reference is left to a map entry is due to the
order of loading: the entries nested in a message are known before its fields
are read, and by the rule for maps no other field refers to them.
-/

namespace OdinSchema

variable {c c' c'' : Catalog} {sites : List Site}

/-! ## Parts of fields -/

/-- A field and, if it is a map, the parts of its key and of its value. -/
def Field.parts : Field → List Field
  | .single head => [.single head]
  | .map head key value => .map head key value :: (key.parts ++ value.parts)

theorem Field.parts_eq (f : Field) :
    f.parts = f :: f.entry?.elim [] fun entry => entry.1.parts ++ entry.2.parts := by
  cases f <;> rfl

/-- A type that is referred to by a noted reference. -/
def Catalog.Notes (c : Catalog) (name : String) : Prop :=
  ∃ r ∈ c.references, r.typeName = name

/-- A field whose parts refer to types that were noted, and to no map
entry. -/
def Field.Grounded (sites : List Site) (c : Catalog) (f : Field) : Prop :=
  ∀ x ∈ f.parts, ∀ name ∈ x.head.reference?, c.Notes name ∧ ¬ IsEntryName sites name

/-! ## Catalogs -/

namespace Catalog

/-- A catalog that keeps what was noted and known in another. -/
structure Extends (c c' : Catalog) : Prop where
  references : c.references ⊆ c'.references
  entries : c.entries.keys ⊆ c'.entries.keys

/-- A catalog in which the fields of map entries refer to what was noted. -/
def Sound (sites : List Site) (c : Catalog) : Prop :=
  ∀ name entry, c.entries.get? name = some entry →
    ∀ f ∈ entry.head.fields, f.Grounded sites c

/-- What loading leaves: a sound catalog that keeps what was known, and
messages whose fields refer to what is noted in it. -/
structure Settles (sites : List Site) (c : Catalog) (heads : List MessageHead) (c' : Catalog) :
    Prop where
  sound : c'.Sound sites
  keeps : c.Extends c'
  grounded : ∀ head ∈ heads, ∀ f ∈ head.fields, f.Grounded sites c'

theorem Extends.trans (h : c.Extends c') (h' : c'.Extends c'') : c.Extends c'' :=
  ⟨fun _ hr => h'.references (h.references hr), fun _ hk => h'.entries (h.entries hk)⟩

theorem Sound.settles_nil (h : c.Sound sites) : c.Settles sites [] c :=
  ⟨h, ⟨List.Subset.refl _, List.Subset.refl _⟩, fun _ hhead => absurd hhead List.not_mem_nil⟩

end Catalog

theorem Field.Grounded.mono {f : Field} (h : f.Grounded sites c) (hkeeps : c.Extends c') :
    f.Grounded sites c' := by
  intro x hx name hname
  obtain ⟨⟨r, hr, hrname⟩, hentry⟩ := h x hx name hname
  exact ⟨⟨r, hkeeps.references hr, hrname⟩, hentry⟩

namespace Catalog

/-- Notes do not make a sound catalog unsound. -/
theorem Sound.mono (h : c.Sound sites) (hentries : c'.entries = c.entries)
    (hkeeps : c.Extends c') : c'.Sound sites := by
  intro name entry hentry f hf
  rw [hentries] at hentry
  exact (h name entry hentry f hf).mono hkeeps

/-- Loads leave together what they leave one after the other. -/
theorem Settles.append {xs ys : List MessageHead} (h : c.Settles sites xs c')
    (h' : c'.Settles sites ys c'') : c.Settles sites (xs ++ ys) c'' := by
  refine ⟨h'.sound, h.keeps.trans h'.keeps, List.forall_mem_append.2 ⟨?_, h'.grounded⟩⟩
  exact fun head hhead f hf => (h.grounded head hhead f hf).mono h'.keeps

/-- A message is registered under its full name if it is a map entry, and
the catalog stays sound. -/
theorem Settles.register {m : Message} (h : c.Settles sites m.heads c') :
    c.Settles sites m.heads (c'.register m) ∧
      (m.head.isMapEntry = true → m.head.fullName ∈ (c'.register m).entries.keys) := by
  unfold Catalog.register
  split
  · rename_i hmap
    have hkeeps : c'.Extends { c' with entries := c'.entries.set m.head.fullName m } := by
      exact ⟨List.Subset.refl _, fun name hname => Dictionary.mem_keys_set.2 (.inr hname)⟩
    have hown : ∀ f ∈ m.head.fields, f.Grounded sites c' := by
      refine h.grounded m.head ?_
      obtain ⟨head, nested⟩ := m
      exact List.mem_cons_self
    refine ⟨⟨?_, h.keeps.trans hkeeps, ?_⟩, fun _ => ?_⟩
    · intro name entry hentry f hf
      rw [Dictionary.get?_set] at hentry
      split at hentry
      · cases hentry
        exact (hown f hf).mono hkeeps
      · exact (h.sound name entry hentry f hf).mono hkeeps
    · exact fun head hhead f hf => (h.grounded head hhead f hf).mono hkeeps
    · exact Dictionary.mem_keys_set.2 (.inl rfl)
  · rename_i hmap
    exact ⟨h, fun hentry => absurd hentry hmap⟩

end Catalog

/-! ## Fields -/

namespace FieldDescriptor

variable {dialect : Verbatim} {location : Option Location} {oneofs : List Verbatim}
variable {d : FieldDescriptor} {f : Field}

/-- A field that has an entry to be made a map of is one, and its key and
value are fields of the entry; any other is none, and its reference is
noted. -/
theorem parts_of_toField {entries : Dictionary String Message}
    (h : d.toField dialect location oneofs entries = .ok f) :
    (∃ name entry key value, entries.get? name = some entry ∧ key ∈ entry.head.fields ∧
      value ∈ entry.head.fields ∧ f.parts = f :: (key.parts ++ value.parts) ∧
      f.head.reference? = none) ∨
    (d.entryMessage? entries = none ∧ f.parts = [f] ∧
      ∀ name ∈ f.head.reference?, d.fullTypeName? = some name ∧
        d.reference? entries = some ⟨name, d.name⟩) := by
  rcases toField_cases h with
    ⟨hmessage, hentry, -⟩ | ⟨entry, key, value, rest, hmessage, hfields, hentry, hkind⟩
  · refine .inr ⟨hmessage, by rw [f.parts_eq, hentry]; rfl, fun name hname => ?_⟩
    have hfilter : d.fullTypeName?.filter (· ≠ "") = some name := by
      rw [← (describes_of_toField h).typeName]
      have hname : f.head.reference? = some name := hname
      unfold FieldHead.reference? at hname
      split at hname
      · exact hname
      · exact hname
      · cases hname
      · cases hname
    refine ⟨(Option.filter_eq_some_iff.1 hfilter).1, ?_⟩
    rw [reference?, hmessage]
    simp only [reference?.check, hfilter, Option.map_some]
  · obtain ⟨-, name, -, hget⟩ := entryMessage?_eq_some_iff.1 hmessage
    refine .inl ⟨name, entry, key, value, hget, ?_, ?_, by rw [f.parts_eq, hentry]; rfl, ?_⟩
    · rw [hfields]
      exact List.mem_cons_self
    · rw [hfields]
      exact List.mem_cons_of_mem _ List.mem_cons_self
    · rw [FieldHead.reference?, hkind]

/-- **A field is grounded once its reference is noted**, if it is read off a
sound catalog that knows each map entry the field refers to. -/
theorem grounded_of_toField (h : d.toField dialect location oneofs c.entries = .ok f)
    (hsound : c.Sound sites) (hkeeps : c.Extends c')
    (hnoted : ∀ r ∈ d.reference? c.entries, r ∈ c'.references)
    (hknown : ∀ name ∈ d.fullTypeName?, IsEntryName sites name →
      d.entryMessage? c.entries ≠ none) : f.Grounded sites c' := by
  rcases parts_of_toField h with
    ⟨name, entry, key, value, hentry, hkey, hvalue, hparts, hnone⟩ | ⟨hmessage, hparts, hnamed⟩
  · intro x hx
    rw [hparts, List.mem_cons, List.mem_append] at hx
    rcases hx with rfl | hx | hx
    · rw [hnone]
      nofun
    · exact ((hsound name entry hentry key hkey).mono hkeeps) x hx
    · exact ((hsound name entry hentry value hvalue).mono hkeeps) x hx
  · intro x hx name hname
    rw [hparts, List.mem_singleton] at hx
    rw [hx] at hname
    obtain ⟨htype, hreference⟩ := hnamed name hname
    refine ⟨⟨_, hnoted _ hreference, rfl⟩, fun hentry => ?_⟩
    exact hknown name htype hentry hmessage

end FieldDescriptor

/-! ## Messages -/

/-- A message whose fields refer to map entries by the rule. -/
def Site.RefersByRule (sites : List Site) (s : Site) : Prop :=
  ∀ field ∈ s.head.fields, ∀ name ∈ field.fullTypeName?, IsEntryName sites name →
    name ∈ s.entryNames ∧ field.label = .repeated ∧ field.code = TypeCode.message

/-- A field that refers to a map entry by the rule has it for its entry, if
the entries nested in its message are known. -/
theorem Site.RefersByRule.entryMessage?_ne_none {s : Site} (h : s.RefersByRule sites)
    (hknown : ∀ name ∈ s.entryNames, name ∈ c.entries.keys) {field : FieldDescriptor}
    (hfield : field ∈ s.head.fields) {name : String} (hname : field.fullTypeName? = some name)
    (hentry : IsEntryName sites name) : field.entryMessage? c.entries ≠ none := by
  obtain ⟨hown, hlabel, hcode⟩ := h field hfield name hname hentry
  have hkind : field.kind = .message := by
    rw [FieldDescriptor.kind, hcode]
    rfl
  obtain ⟨entry, hget⟩ := Dictionary.mem_keys_iff.1 (hknown name hown)
  rw [FieldDescriptor.entryMessage?, if_pos ⟨hkind, hlabel⟩, hname, Option.bind_some, hget]
  exact Option.some_ne_none entry

/-- The last part of loading a message grounds its fields, once the map
entries nested in it are known. -/
theorem MessageDescriptorHead.Closes.settles {context : FileContext} {segments : List Verbatim}
    {path : List Int} {head : MessageDescriptorHead} {nested : List MessageDescriptor}
    {ms : List Message} {m : Message} (h : head.Closes context segments path ms c m c')
    (hrule : Site.RefersByRule sites ⟨segments, head, nested⟩)
    (hknown : ∀ name ∈ Site.entryNames ⟨segments, head, nested⟩, name ∈ c.entries.keys)
    (hsound : c.Sound sites) : c.Settles sites [m.head] c' := by
  have hentries : c'.entries = c.entries := by rw [h.catalog_eq]
  have hkeeps : c.Extends c' := by
    rw [h.catalog_eq]
    exact ⟨List.subset_append_left _ _, List.Subset.refl _⟩
  refine ⟨hsound.mono hentries hkeeps, hkeeps, ?_⟩
  rw [List.forall_mem_singleton]
  intro f hf
  obtain ⟨x, hx, location, hread⟩ := h.reads.exists_toField f hf
  refine FieldDescriptor.grounded_of_toField hread hsound hkeeps ?_ ?_
  · intro r hr
    rw [h.catalog_eq]
    refine List.mem_append_right _ (List.mem_flatMap.2 ⟨x, hx, ?_⟩)
    exact Option.mem_toList.2 hr
  · intro name hname hentry
    exact hrule.entryMessage?_ne_none hknown hx hname hentry

namespace MessageDescriptor

variable {context : FileContext} {segments : List Verbatim} {path : List Int}

/-- **What the fields of a message refer to is noted** when the message is
loaded, at every depth. -/
theorem settles_of_gives_load {d : MessageDescriptor} {m : Message}
    (h : (d.load context segments path).Gives c m c')
    (hrule : ∀ s ∈ d.sites segments, s.RefersByRule sites) (hsound : c.Sound sites) :
    c.Settles sites m.heads c' := by
  -- messages are registered by name and kind, which are carried along; a list of nested
  -- messages leaves the map entries among them known
  refine ((gives_induction (P := fun segments _ d c m c' =>
      (m.head.fullName = qualified (segments ++ [d.head.name]) ∧
        m.head.isMapEntry = d.head.isMapEntry) ∧
      ((∀ s ∈ d.sites segments, s.RefersByRule sites) → c.Sound sites →
        c.Settles sites m.heads c'))
    (Q := fun segments _ _ ds c ms c' =>
      (∀ s ∈ sitesOf segments ds, s.RefersByRule sites) → c.Sound sites →
        c.Settles sites (Message.headsOf ms) c' ∧
        ∀ d ∈ ds, d.head.isMapEntry = true →
          qualified (segments ++ [d.head.name]) ∈ c'.entries.keys) ⟨?_, ?_, ?_⟩).1 h).2 hrule hsound
  · intro segments path head nested c ms c₁ m c' hnested hcloses
    refine ⟨?_, fun hrule hsound => ?_⟩
    · rw [hcloses.message_eq]
      exact ⟨rfl, rfl⟩
    rw [MessageDescriptor.sites, List.forall_mem_cons] at hrule
    have hdeclared : c.Extends
        { c with types := c.types ++ [qualified (segments ++ [head.name])] } :=
      ⟨List.Subset.refl _, List.Subset.refl _⟩
    obtain ⟨hinner, hentries⟩ := hnested hrule.2 (hsound.mono rfl hdeclared)
    have hknown : ∀ name ∈ Site.entryNames ⟨segments ++ [head.name], head, nested⟩,
        name ∈ c₁.entries.keys := by
      intro name hname
      obtain ⟨n, hn, rfl⟩ := List.mem_map.1 hname
      obtain ⟨hmem, hmap⟩ := List.mem_filter.1 hn
      exact hentries n hmem hmap
    have hown := hcloses.settles hrule.1 hknown hinner.sound
    have hboth := hinner.append hown
    refine ⟨hboth.sound, hdeclared.trans hboth.keeps, ?_⟩
    have hheads : m.heads = m.head :: Message.headsOf ms := by
      rw [hcloses.message_eq]
      rfl
    rw [hheads, List.forall_mem_cons]
    obtain ⟨hfirst, hlast⟩ := List.forall_mem_append.1 hboth.grounded
    exact ⟨hlast m.head List.mem_cons_self, hfirst⟩
  · intro segments path start c hrule hsound
    exact ⟨hsound.settles_nil, by simp⟩
  · intro segments path start d rest c m c₁ ms c' hd hrest hrule hsound
    obtain ⟨⟨hfullName, hkind⟩, hd⟩ := hd
    rw [sitesOf, List.forall_mem_append] at hrule
    obtain ⟨hfirst, hregistered⟩ := (hd hrule.1 hsound).register
    obtain ⟨hothers, hentries⟩ := hrest hrule.2 hfirst.sound
    refine ⟨hfirst.append hothers, List.forall_mem_cons.2 ⟨fun hmap => ?_, hentries⟩⟩
    rw [← hfullName]
    exact hothers.keeps.entries (hregistered (hkind.trans hmap))

/-- **A load declares only types of the message**, and of those nested in
it. -/
theorem types_of_gives_load {d : MessageDescriptor} {m : Message}
    (h : (d.load context segments path).Gives c m c') : ∀ name ∈ c'.types,
      name ∈ c.types ∨ ∃ s ∈ d.sites segments, name ∈ s.typeNames := by
  refine (gives_induction (P := fun segments _ d c _ c' => ∀ name ∈ c'.types,
      name ∈ c.types ∨ ∃ s ∈ d.sites segments, name ∈ s.typeNames)
    (Q := fun segments _ _ ds c _ c' => ∀ name ∈ c'.types,
      name ∈ c.types ∨ ∃ s ∈ sitesOf segments ds, name ∈ s.typeNames) ⟨?_, ?_, ?_⟩).1 h
  · intro segments path head nested c ms c₁ m c' hnested hcloses name hname
    rw [hcloses.catalog_eq, List.mem_append] at hname
    rw [sites]
    rcases hname with hname | henum
    · rcases hnested name hname with hname | ⟨s, hs, hname⟩
      · rcases List.mem_append.1 hname with hname | hown
        · exact .inl hname
        · rw [List.mem_singleton.1 hown]
          exact .inr ⟨_, List.mem_cons_self, List.mem_cons_self⟩
      · exact .inr ⟨s, List.mem_cons_of_mem _ hs, hname⟩
    · exact .inr ⟨_, List.mem_cons_self, List.mem_cons_of_mem _ henum⟩
  · intro segments path start c name hname
    exact .inl hname
  · intro segments path start d rest c m c₁ ms c' hd hrest name hname
    have hregister : (c₁.register m).types = c₁.types := by
      unfold Catalog.register
      split <;> rfl
    rw [sitesOf]
    rcases hrest name hname with hname | ⟨s, hs, hname⟩
    · rw [hregister] at hname
      refine (hd name hname).imp_right ?_
      rintro ⟨s, hs, hname⟩
      exact ⟨s, List.mem_append_left _ hs, hname⟩
    · exact .inr ⟨s, List.mem_append_right _ hs, hname⟩

end MessageDescriptor

/-! ## Files -/

theorem settles_of_gives_loadMessages {context : FileContext} {segments : List Verbatim}
    {start : Nat} {ds : List MessageDescriptor} {ms : List Message}
    (h : (loadMessages context segments start ds).Gives c ms c')
    (hrule : ∀ s ∈ MessageDescriptor.sitesOf segments ds, s.RefersByRule sites)
    (hsound : c.Sound sites) : c.Settles sites (Message.headsOf ms) c' ∧
      ∀ name ∈ c'.types, name ∈ c.types ∨
        ∃ s ∈ MessageDescriptor.sitesOf segments ds, name ∈ s.typeNames := by
  induction ds generalizing c start ms with
  | nil =>
    obtain ⟨rfl, rfl⟩ := gives_loadMessages_nil.1 h
    exact ⟨hsound.settles_nil, fun name hname => .inl hname⟩
  | cons d rest ih =>
    obtain ⟨m, c₁, ms', hm, hrest, rfl⟩ := gives_loadMessages_cons.1 h
    rw [MessageDescriptor.sitesOf, List.forall_mem_append] at hrule
    have hfirst := MessageDescriptor.settles_of_gives_load hm hrule.1 hsound
    obtain ⟨hothers, htypes⟩ := ih hrest hrule.2 hfirst.sound
    refine ⟨hfirst.append hothers, fun name hname => ?_⟩
    rw [MessageDescriptor.sitesOf]
    rcases htypes name hname with hname | ⟨s, hs, hname⟩
    · refine (MessageDescriptor.types_of_gives_load hm name hname).imp_right ?_
      rintro ⟨s, hs, hname⟩
      exact ⟨s, List.mem_append_left _ hs, hname⟩
    · exact .inr ⟨s, List.mem_append_right _ hs, hname⟩

/-- So does a file, which also declares its enums. -/
theorem FileDescriptor.settles_of_gives_load {d : FileDescriptor} {f : File}
    (h : d.load.Gives c f c') (hrule : ∀ s ∈ d.sites, s.RefersByRule sites)
    (hsound : c.Sound sites) : c.Settles sites f.heads c' ∧
      ∀ name ∈ c'.types, name ∈ c.types ∨ name ∈ d.typeNames := by
  obtain ⟨-, ms, hms, rfl⟩ := gives_load.1 h
  have hdeclared : c.Extends { c with
      types := c.types ++ d.enums.map (fun e => qualified [d.package, e.name]) } :=
    ⟨List.Subset.refl _, List.Subset.refl _⟩
  obtain ⟨hsettles, htypes⟩ := settles_of_gives_loadMessages hms hrule (hsound.mono rfl hdeclared)
  refine ⟨⟨hsettles.sound, hdeclared.trans hsettles.keeps, hsettles.grounded⟩, fun name hname => ?_⟩
  rw [typeNames]
  rcases htypes name hname with hname | hsite
  · exact (List.mem_append.1 hname).imp_right (List.mem_append_left _)
  · exact .inr (List.mem_append_right _ (List.mem_flatMap.2 hsite))

/-- Files leave a sound catalog, in which every file refers to what is
noted. -/
theorem settles_of_gives_loadFiles {files : List FileDescriptor} {u : Unit}
    (h : (loadFiles files).Gives c u c')
    (hrule : ∀ d ∈ files, ∀ s ∈ d.sites, s.RefersByRule sites) (hsound : c.Sound sites)
    (hkept : ∀ name f, c.files.get? name = some f →
      ∀ head ∈ f.heads, ∀ x ∈ head.fields, x.Grounded sites c) :
    (∀ name f, c'.files.get? name = some f →
      ∀ head ∈ f.heads, ∀ x ∈ head.fields, x.Grounded sites c') ∧
    ∀ name ∈ c'.types, name ∈ c.types ∨ ∃ d ∈ files, name ∈ d.typeNames := by
  induction files generalizing c with
  | nil =>
    rw [gives_loadFiles_nil.1 h]
    exact ⟨hkept, fun name hname => .inl hname⟩
  | cons d rest ih =>
    obtain ⟨f, c₁, hf, hrest⟩ := gives_loadFiles_cons.1 h
    obtain ⟨hown, hothers⟩ := List.forall_mem_cons.1 hrule
    obtain ⟨hsettles, htypes⟩ := FileDescriptor.settles_of_gives_load hf hown hsound
    have hkeeps : c₁.Extends { c₁ with files := c₁.files.set d.name f } :=
      ⟨List.Subset.refl _, List.Subset.refl _⟩
    have hstep : ∀ name g, (c₁.files.set d.name f).get? name = some g →
        ∀ head ∈ g.heads, ∀ x ∈ head.fields,
          x.Grounded sites { c₁ with files := c₁.files.set d.name f } := by
      intro name g hg head hhead x hx
      rw [Dictionary.get?_set, FileDescriptor.files_eq_of_gives_load hf] at hg
      split at hg
      · cases hg
        exact (hsettles.grounded head hhead x hx).mono hkeeps
      · exact (hkept name g hg head hhead x hx).mono (hsettles.keeps.trans hkeeps)
    obtain ⟨hfiles, hrestTypes⟩ := ih hrest hothers (hsettles.sound.mono rfl hkeeps) hstep
    refine ⟨hfiles, fun name hname => ?_⟩
    rcases hrestTypes name hname with hname | ⟨e, he, hname⟩
    · refine (htypes name hname).imp_right fun hname => ?_
      exact ⟨d, List.mem_cons_self, hname⟩
    · exact .inr ⟨e, List.mem_cons_of_mem _ he, hname⟩

/-- **A reference of a loaded field is to a declared type that is no map
entry.** -/
theorem Loads.declared {files : List FileDescriptor} {loaded : Dictionary Verbatim File}
    (h : Loads files loaded) (hrule : ObeysMapRule files) {name : Verbatim} {f : File}
    (hf : loaded.get? name = some f) {head : MessageHead} (hhead : head ∈ f.heads)
    {field x : Field} (hfield : field ∈ head.fields) (hx : x ∈ field.parts) {typeName : String}
    (htype : x.head.reference? = some typeName) :
    (∃ d ∈ files, typeName ∈ d.typeNames) ∧
      ¬ IsEntryName (files.flatMap (·.sites)) typeName := by
  obtain ⟨c, hfiles, hchecked, rfl⟩ := loads_iff.1 h
  obtain ⟨hgrounded, htypes⟩ := settles_of_gives_loadFiles hfiles hrule.referred
    (fun _ _ hentry => nomatch hentry) (fun _ _ hget => nomatch hget)
  obtain ⟨⟨r, hr, rfl⟩, hentry⟩ := hgrounded name f hf head hhead field hfield x hx _ htype
  exact ⟨(htypes r.typeName (hchecked r hr)).resolve_left List.not_mem_nil, hentry⟩

end OdinSchema
