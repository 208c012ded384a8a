import OdinSchema.Proofs.AllOrNothing
import OdinSchema.Proofs.DescriptorTree

/-!
# Files do not interfere

Loading threads one catalog through all files of a request, and a field
becomes a map by what the catalog holds at that moment. So the same file
could load differently beside other files. It does not, where the files
obey the rule for maps and their types have distinct names.

The argument compares two loads of one descriptor. They give the same
result if their catalogs agree on the map entries the fields of the
descriptor refer to, and then they register the same entries and go on
agreeing (`MessageDescriptor.load_agree`). At the start of a file the
catalogs do agree there: whatever was loaded before knows only map entries
of its own (`entryNames_of_gives_load`), which a field of this file cannot
refer to.
-/

namespace OdinSchema

variable {c c' c₁ c₂ c₁' c₂' : Catalog}

/-- Two lists of known map entries that agree on some names. -/
def AgreeOn (names : String → Prop) (e₁ e₂ : Dictionary String Message) : Prop :=
  ∀ name, names name → e₁.get? name = e₂.get? name

/-- The names the fields of some messages refer to are among the given
ones. -/
def RefersWithin (names : String → Prop) (sites : List Site) : Prop :=
  ∀ s ∈ sites, ∀ field ∈ s.head.fields, ∀ name ∈ field.fullTypeName?, names name

/-! ## Two loads of one descriptor -/

/-- A field reads the known map entries at the name it refers to, and
nowhere else. -/
theorem FieldDescriptor.toField_congr {dialect : Verbatim} {location : Option Location}
    {oneofs : List Verbatim} {e₁ e₂ : Dictionary String Message} {d : FieldDescriptor}
    (h : ∀ name ∈ d.fullTypeName?, e₁.get? name = e₂.get? name) :
    d.toField dialect location oneofs e₁ = d.toField dialect location oneofs e₂ := by
  have hmessage : d.entryMessage? e₁ = d.entryMessage? e₂ := by
    unfold entryMessage?
    split
    · cases hname : d.fullTypeName? with
      | none => rfl
      | some name => exact h name hname
    · rfl
  have hfields : d.entryFields? e₁ = d.entryFields? e₂ := by
    unfold entryFields?
    rw [hmessage]
  unfold toField
  rw [hfields]

/-- Fields that are read off agreeing map entries are the same. -/
theorem ReadsFields.eq_of_agree {context : FileContext} {path : List Int}
    {oneofs : List Verbatim} {e₁ e₂ : Dictionary String Message} {start : Nat}
    {ds : List FieldDescriptor} {fs₁ fs₂ : List Field}
    (h₁ : ReadsFields context path oneofs e₁ start ds fs₁)
    (h₂ : ReadsFields context path oneofs e₂ start ds fs₂)
    (h : ∀ d ∈ ds, ∀ name ∈ d.fullTypeName?, e₁.get? name = e₂.get? name) : fs₁ = fs₂ := by
  rw [ReadsFields] at h₁ h₂
  induction ds generalizing start fs₁ fs₂ with
  | nil =>
    rw [List.zipIdx_nil, List.forall₂_nil_left_iff] at h₁ h₂
    rw [h₁, h₂]
  | cons d ds ih =>
    rw [List.zipIdx_cons, List.forall₂_cons_left_iff] at h₁ h₂
    obtain ⟨f₁, fs₁, hf₁, hfs₁, rfl⟩ := h₁
    obtain ⟨f₂, fs₂, hf₂, hfs₂, rfl⟩ := h₂
    obtain ⟨hd, hds⟩ := List.forall_mem_cons.1 h
    rw [FieldDescriptor.toField_congr hd, hf₂] at hf₁
    rw [Except.ok.inj hf₁, ih hfs₁ hfs₂ hds]

/-- Registering one message in both keeps an agreement. -/
theorem AgreeOn.register {names : String → Prop} (h : AgreeOn names c₁.entries c₂.entries)
    (m : Message) : AgreeOn names (c₁.register m).entries (c₂.register m).entries := by
  intro name hname
  unfold Catalog.register
  split
  · rw [Dictionary.get?_set, Dictionary.get?_set, h name hname]
  · exact h name hname

namespace MessageDescriptor

variable {context : FileContext} {segments : List Verbatim} {path : List Int}

/-- **Two loads of a message agree** if their catalogs agree on the names
the message refers to: they give one message, and their catalogs agree on
as many names as before. -/
theorem load_agree {names : String → Prop} {d : MessageDescriptor} {m₁ m₂ : Message}
    (h₁ : (d.load context segments path).Gives c₁ m₁ c₁')
    (h₂ : (d.load context segments path).Gives c₂ m₂ c₂')
    (hagree : AgreeOn names c₁.entries c₂.entries)
    (hnames : RefersWithin names (d.sites segments)) :
    m₁ = m₂ ∧ AgreeOn names c₁'.entries c₂'.entries := by
  refine (gives_induction (P := fun segments path d c₁ m₁ c₁' => ∀ c₂ m₂ c₂',
      (load context segments path d).Gives c₂ m₂ c₂' → AgreeOn names c₁.entries c₂.entries →
      RefersWithin names (d.sites segments) → m₁ = m₂ ∧ AgreeOn names c₁'.entries c₂'.entries)
    (Q := fun segments path start ds c₁ ms₁ c₁' => ∀ c₂ ms₂ c₂',
      (loadNested context segments path start ds).Gives c₂ ms₂ c₂' →
      AgreeOn names c₁.entries c₂.entries → RefersWithin names (sitesOf segments ds) →
      ms₁ = ms₂ ∧ AgreeOn names c₁'.entries c₂'.entries)
    ⟨?_, ?_, ?_⟩).1 h₁ c₂ m₂ c₂' h₂ hagree hnames
  · intro segments path head nested c₁ ms₁ d₁ m₁ c₁' ih hcloses₁ c₂ m₂ c₂' hload hagree hnames
    obtain ⟨ms₂, d₂, hnested, hcloses₂⟩ := gives_load.1 hload
    rw [sites, RefersWithin, List.forall_mem_cons] at hnames
    -- the fields are read after the nested messages, off what these left
    obtain ⟨rfl, hagree'⟩ := ih _ _ _ hnested hagree hnames.2
    have hfields : m₁.head.fields = m₂.head.fields :=
      hcloses₁.reads.eq_of_agree hcloses₂.reads fun field hfield name hname =>
        hagree' name (hnames.1 field hfield name hname)
    refine ⟨?_, ?_⟩
    · rw [hcloses₁.message_eq, hcloses₂.message_eq, hfields]
    · rw [hcloses₁.catalog_eq, hcloses₂.catalog_eq]
      exact hagree'
  · intro segments path start c₁ c₂ ms₂ c₂' hload hagree _
    obtain ⟨rfl, rfl⟩ := gives_loadNested_nil.1 hload
    exact ⟨rfl, hagree⟩
  · intro segments path start d rest c₁ m₁ d₁ ms₁ c₁' ihd ihrest c₂ ms₂ c₂' hload hagree hnames
    obtain ⟨m₂, d₂, ms₂', hd, hrest, rfl⟩ := gives_loadNested_cons.1 hload
    rw [sitesOf, RefersWithin, List.forall_mem_append] at hnames
    obtain ⟨rfl, hagree'⟩ := ihd _ _ _ hd hagree hnames.1
    obtain ⟨rfl, hagree''⟩ := ihrest _ _ _ hrest (hagree'.register m₁) hnames.2
    exact ⟨rfl, hagree''⟩

end MessageDescriptor

/-- Two loads of the messages of a file agree likewise. -/
theorem loadMessages_agree {names : String → Prop} {context : FileContext}
    {segments : List Verbatim} {start : Nat} {ds : List MessageDescriptor}
    {ms₁ ms₂ : List Message} (h₁ : (loadMessages context segments start ds).Gives c₁ ms₁ c₁')
    (h₂ : (loadMessages context segments start ds).Gives c₂ ms₂ c₂')
    (hagree : AgreeOn names c₁.entries c₂.entries)
    (hnames : RefersWithin names (MessageDescriptor.sitesOf segments ds)) : ms₁ = ms₂ := by
  induction ds generalizing start c₁ c₂ ms₁ ms₂ with
  | nil => rw [(gives_loadMessages_nil.1 h₁).1, (gives_loadMessages_nil.1 h₂).1]
  | cons d rest ih =>
    obtain ⟨m₁, d₁, ms₁, hd₁, hrest₁, rfl⟩ := gives_loadMessages_cons.1 h₁
    obtain ⟨m₂, d₂, ms₂, hd₂, hrest₂, rfl⟩ := gives_loadMessages_cons.1 h₂
    rw [MessageDescriptor.sitesOf, RefersWithin, List.forall_mem_append] at hnames
    obtain ⟨rfl, hagree'⟩ := MessageDescriptor.load_agree hd₁ hd₂ hagree hnames.1
    rw [ih hrest₁ hrest₂ hagree' hnames.2]

/-- **A file loads to the same wherever its references meet the same map
entries.** -/
theorem FileDescriptor.load_agree {names : String → Prop} {d : FileDescriptor} {f₁ f₂ : File}
    (h₁ : d.load.Gives c₁ f₁ c₁') (h₂ : d.load.Gives c₂ f₂ c₂')
    (hagree : AgreeOn names c₁.entries c₂.entries) (hnames : RefersWithin names d.sites) :
    f₁ = f₂ := by
  obtain ⟨-, ms₁, hms₁, rfl⟩ := gives_load.1 h₁
  obtain ⟨-, ms₂, hms₂, rfl⟩ := gives_load.1 h₂
  rw [loadMessages_agree hms₁ hms₂ hagree hnames]

/-! ## What a load makes known -/

/-- **A load of a message makes known only map entries of that message**,
and gives it its own name and kind. -/
theorem MessageDescriptor.entryNames_of_gives_load {context : FileContext}
    {segments : List Verbatim} {path : List Int} {d : MessageDescriptor} {m : Message}
    (h : (d.load context segments path).Gives c m c') :
    ∀ name ∈ c'.entries.keys, name ∈ c.entries.keys ∨ IsEntryName (d.sites segments) name := by
  -- the parent registers a message by its name and kind, so these are carried along
  refine ((gives_induction (P := fun segments _ d c m c' =>
      (∀ name ∈ c'.entries.keys, name ∈ c.entries.keys ∨ IsEntryName (d.sites segments) name) ∧
        m.head.fullName = qualified (segments ++ [d.head.name]) ∧
        m.head.isMapEntry = d.head.isMapEntry)
    (Q := fun segments _ _ ds c _ c' => ∀ name ∈ c'.entries.keys,
      name ∈ c.entries.keys ∨ IsEntryName (sitesOf segments ds) name) ⟨?_, ?_, ?_⟩).1 h).1
  · intro segments path head nested c ms c₁ m c' hnested hcloses
    refine ⟨?_, ?_, ?_⟩
    · intro name hname
      rw [hcloses.catalog_eq] at hname
      refine (hnested name hname).imp_right fun hentry => hentry.mono ?_
      rw [sites]
      exact List.subset_cons_self _ _
    · rw [hcloses.message_eq]
      rfl
    · rw [hcloses.message_eq]
      rfl
  · intro segments path start c name hname
    exact Or.inl hname
  · intro segments path start d rest c m c₁ ms c' hd hrest name hname
    obtain ⟨hd, hfullName, hkind⟩ := hd
    -- only now, in the loop over the nested messages, does `m` become known
    have hself : m.head.isMapEntry → IsEntryName (d.sites segments) m.head.fullName := by
      intro hmap
      obtain ⟨s, hs, hsegments, hhead⟩ := self_mem_sites segments d
      refine ⟨s, hs, ?_, ?_⟩
      · rw [hhead, ← hkind, hmap]
      · rw [Site.fullName, hsegments, hfullName]
    have hregister : ∀ name ∈ (c₁.register m).entries.keys,
        name ∈ c.entries.keys ∨ IsEntryName (d.sites segments) name := by
      intro name hname
      unfold Catalog.register at hname
      split at hname
      · rename_i hmap
        rcases Dictionary.mem_keys_set.1 hname with rfl | hname
        · exact Or.inr (hself hmap)
        · exact hd name hname
      · exact hd name hname
    rw [sitesOf]
    rcases hrest name hname with hname | hentry
    · refine (hregister name hname).imp_right fun hentry => hentry.mono ?_
      exact List.subset_append_left _ _
    · exact Or.inr (hentry.mono (List.subset_append_right _ _))

/-- So does a load of the messages of a file. -/
theorem entryNames_of_gives_loadMessages {context : FileContext} {segments : List Verbatim}
    {start : Nat} {ds : List MessageDescriptor} {ms : List Message}
    (h : (loadMessages context segments start ds).Gives c ms c') : ∀ name ∈ c'.entries.keys,
      name ∈ c.entries.keys ∨ IsEntryName (MessageDescriptor.sitesOf segments ds) name := by
  induction ds generalizing start c ms with
  | nil =>
    obtain ⟨-, rfl⟩ := gives_loadMessages_nil.1 h
    exact fun name hname => Or.inl hname
  | cons d rest ih =>
    obtain ⟨m, c₁, ms', hd, hrest, rfl⟩ := gives_loadMessages_cons.1 h
    intro name hname
    rw [MessageDescriptor.sitesOf]
    rcases ih hrest name hname with hname | hentry
    · refine (MessageDescriptor.entryNames_of_gives_load hd name hname).imp_right fun hentry => ?_
      exact hentry.mono (List.subset_append_left _ _)
    · exact Or.inr (hentry.mono (List.subset_append_right _ _))

/-- And a load of files. -/
theorem entryNames_of_gives_loadFiles {files : List FileDescriptor} {u : Unit}
    (h : (loadFiles files).Gives c u c') : ∀ name ∈ c'.entries.keys,
      name ∈ c.entries.keys ∨ IsEntryName (files.flatMap (·.sites)) name := by
  induction files generalizing c with
  | nil =>
    rw [gives_loadFiles_nil.1 h]
    exact fun name hname => Or.inl hname
  | cons d rest ih =>
    obtain ⟨f, c₁, hf, hrest⟩ := gives_loadFiles_cons.1 h
    obtain ⟨-, ms, hms, -⟩ := FileDescriptor.gives_load.1 hf
    intro name hname
    rw [List.flatMap_cons]
    rcases ih hrest name hname with hname | hentry
    · refine (entryNames_of_gives_loadMessages hms name hname).imp_right fun hentry => ?_
      exact hentry.mono (List.subset_append_left _ _)
    · exact Or.inr (hentry.mono (List.subset_append_right _ _))

/-- **No field of a file refers to a map entry of the files before it.** By
the rule such an entry stands inside the message of the field, so its name
would be declared in two files. -/
theorem get?_eq_none_of_refers {before after : List FileDescriptor} {d : FileDescriptor}
    (htypes : ((before ++ d :: after).flatMap (·.typeNames)).Nodup)
    (hrule : ObeysMapRule (before ++ d :: after)) (h : (loadFiles before).Gives {} () c) :
    RefersWithin (fun name => c.entries.get? name = none) d.sites := by
  intro s hs field hfield name hname
  rw [Dictionary.get?_eq_none_iff]
  intro hkey
  obtain ⟨r, hr, hmap, rfl⟩ :=
    (entryNames_of_gives_loadFiles h name hkey).resolve_left List.not_mem_nil
  obtain ⟨d', hd', hrsites⟩ := List.mem_flatMap.1 hr
  -- the entry stands in a file before `d` and, by the rule, in `d` itself
  have hentry : IsEntryName ((before ++ d :: after).flatMap (·.sites)) r.fullName :=
    ⟨r, List.mem_flatMap.2 ⟨d', List.mem_append_left _ hd', hrsites⟩, hmap, rfl⟩
  have hown := (hrule.referred d (by simp) s hs field hfield _ hname hentry).1
  exact not_mem_typeNames_of_nodup htypes hd' (FileDescriptor.fullName_mem_typeNames hrsites)
    (FileDescriptor.mem_typeNames_of_mem_entryNames hs hown)

/-! ## One file in two requests -/

/-- A file keeps what was loaded under its name while others load. -/
theorem get?_of_gives_loadFiles {files : List FileDescriptor} {u : Unit} {name : Verbatim}
    (h : (loadFiles files).Gives c u c') (hname : name ∉ files.map (·.name)) :
    c'.files.get? name = c.files.get? name := by
  induction files generalizing c with
  | nil => rw [gives_loadFiles_nil.1 h]
  | cons d rest ih =>
    obtain ⟨f, c₁, hf, hrest⟩ := gives_loadFiles_cons.1 h
    rw [List.map_cons, List.mem_cons, not_or] at hname
    rw [ih hrest hname.2, Dictionary.get?_set, if_neg hname.1,
      FileDescriptor.files_eq_of_gives_load hf]

/-- A file of a request is loaded from what the files before it left, and
kept under its name unless a later one has the same. -/
theorem Loads.file {before after : List FileDescriptor} {d : FileDescriptor}
    {loaded : Dictionary Verbatim File} (h : Loads (before ++ d :: after) loaded)
    (hlast : d.name ∉ after.map (·.name)) :
    ∃ c f c', (loadFiles before).Gives {} () c ∧ d.load.Gives c f c' ∧
      loaded.get? d.name = some f := by
  obtain ⟨c'', hfiles, -, rfl⟩ := loads_iff.1 h
  obtain ⟨c, hbefore, hrest⟩ := gives_loadFiles_append.1 hfiles
  obtain ⟨f, c', hd, hafter⟩ := gives_loadFiles_cons.1 hrest
  refine ⟨c, f, c', hbefore, hd, ?_⟩
  rw [get?_of_gives_loadFiles hafter hlast, Dictionary.get?_set, if_pos rfl]

/-- **A file that two requests share loads to the same in both.** -/
theorem Loads.get?_eq {files₁ files₂ : List FileDescriptor}
    {loaded₁ loaded₂ : Dictionary Verbatim File} {d : FileDescriptor}
    (hloads₁ : Loads files₁ loaded₁) (hloads₂ : Loads files₂ loaded₂)
    (hdistinct₁ : DistinctNames files₁) (hdistinct₂ : DistinctNames files₂)
    (hrule₁ : ObeysMapRule files₁) (hrule₂ : ObeysMapRule files₂)
    (hd₁ : d ∈ files₁) (hd₂ : d ∈ files₂) : loaded₁.get? d.name = loaded₂.get? d.name := by
  obtain ⟨before₁, after₁, rfl⟩ := List.append_of_mem hd₁
  obtain ⟨before₂, after₂, rfl⟩ := List.append_of_mem hd₂
  obtain ⟨c₁, f₁, c₁', hbefore₁, hf₁, hget₁⟩ := hloads₁.file hdistinct₁.name_not_mem_after
  obtain ⟨c₂, f₂, c₂', hbefore₂, hf₂, hget₂⟩ := hloads₂.file hdistinct₂.name_not_mem_after
  have hnone₁ := get?_eq_none_of_refers hdistinct₁.typeNames hrule₁ hbefore₁
  have hnone₂ := get?_eq_none_of_refers hdistinct₂.typeNames hrule₂ hbefore₂
  have hagree : AgreeOn (fun name => c₁.entries.get? name = none ∧ c₂.entries.get? name = none)
      c₁.entries c₂.entries := fun name hname => hname.1.trans hname.2.symm
  have hfile : f₁ = f₂ := FileDescriptor.load_agree hf₁ hf₂ hagree
    fun s hs field hfield name hname =>
      ⟨hnone₁ s hs field hfield name hname, hnone₂ s hs field hfield name hname⟩
  rw [hget₁, hget₂, hfile]

/-- A run reads the loaded files only at its targets, and its outcome does
not hang on what was recorded before. -/
theorem renderTargets_outcome_congr {loaded₁ loaded₂ : Dictionary Verbatim File}
    {renderer : Renderer} {targets : List Verbatim} (files : List Output)
    (events₁ events₂ : List Event)
    (h : ∀ t ∈ targets, loaded₁.get? t = loaded₂.get? t) :
    (renderTargets loaded₁ renderer files events₁ targets).map (·.outcome) =
      (renderTargets loaded₂ renderer files events₂ targets).map (·.outcome) := by
  induction targets generalizing files events₁ events₂ with
  | nil => rfl
  | cons t rest ih =>
    obtain ⟨ht, hrest⟩ := List.forall_mem_cons.1 h
    rw [renderTargets, renderTargets, ht]
    cases loaded₂.get? t with
    | none => rfl
    | some file =>
      dsimp only
      cases (renderer file).refusal with
      | none => exact ih _ _ _ hrest
      | some refusal => cases refusal <;> rfl

/-- Which events are shown does not change an outcome. -/
theorem map_outcome_shown (answer : Except Failure Answer) (settings : Settings) :
    (answer.map fun a => { a with events := settings.shown a.events }).map (·.outcome) =
      answer.map (·.outcome) := by
  cases answer <;> rfl

/-- **Files do not interfere.** Two requests for the same targets, under the
same settings and compiler, have one outcome if the files they ask for are
the same, whatever other files they bring along and in whatever order: both
answer alike or both fail for the same cause. -/
theorem generate_outcome_eq_of_same_targets (r₁ r₂ : Request) (environment : Option String)
    (hparameter : r₁.parameter = r₂.parameter) (hversion : r₁.version = r₂.version)
    (htargets : r₁.targets = r₂.targets) (hasked : r₁.targets ≠ [])
    (hdistinct₁ : DistinctNames r₁.files) (hdistinct₂ : DistinctNames r₂.files)
    (hrule₁ : ObeysMapRule r₁.files) (hrule₂ : ObeysMapRule r₂.files)
    (hsame : ∀ t ∈ r₁.targets, ∀ d : FileDescriptor, d.name = t →
      (d ∈ r₁.files ↔ d ∈ r₂.files))
    (hloads₁ : ∃ loaded, Loads r₁.files loaded) (hloads₂ : ∃ loaded, Loads r₂.files loaded) :
    (r₁.generate environment).map (·.outcome) = (r₂.generate environment).map (·.outcome) := by
  obtain ⟨loaded₁, hloads₁⟩ := hloads₁
  obtain ⟨loaded₂, hloads₂⟩ := hloads₂
  have hget : ∀ t ∈ r₁.targets, loaded₁.get? t = loaded₂.get? t := by
    intro t ht
    by_cases hknown : t ∈ r₁.files.map (·.name)
    · obtain ⟨d, hd, rfl⟩ := List.mem_map.1 hknown
      exact hloads₁.get?_eq hloads₂ hdistinct₁ hdistinct₂ hrule₁ hrule₂ hd
        ((hsame _ ht d rfl).1 hd)
    · have hunknown : t ∉ r₂.files.map (·.name) := by
        intro hmem
        obtain ⟨d, hd, rfl⟩ := List.mem_map.1 hmem
        exact hknown (List.mem_map_of_mem ((hsame _ ht d rfl).2 hd))
      rw [(get?_eq_none_of_loads hloads₁).2 hknown, (get?_eq_none_of_loads hloads₂).2 hunknown]
  have hnamed₁ : r₁.namedTargets = r₁.targets := if_neg hasked
  have hnamed₂ : r₂.namedTargets = r₁.targets := by
    rw [Request.namedTargets, ← htargets, if_neg hasked]
  cases hp : r₁.parameter with
  | bytes bytes => simp only [Request.generate, Request.answer, ← hparameter, hp]
  | text parameter =>
    cases hsettings : Settings.read parameter environment with
    | error cause => simp only [Request.generate, Request.answer, ← hparameter, hp, hsettings]
    | ok settings =>
      rw [Request.generate, Request.generate, r₁.answer_eq _ hp hsettings hloads₁,
        r₂.answer_eq _ (hparameter ▸ hp) hsettings hloads₂, hnamed₁, hnamed₂, hversion,
        map_outcome_shown, map_outcome_shown]
      exact renderTargets_outcome_congr [] _ _ hget

/-- A file with a map field is asked for, once alone and once behind a file
of another package with a map field of the same names. -/
theorem generate_outcome_eq_beside_other_map :
    let entry : MessageDescriptor := .mk { name := "KEntry", mapEntry := some true, fields := [
      { name := "key", code := 5 }, { name := "value", code := 9 }] } []
    let file (package : String) : FileDescriptor :=
      { name := package ++ ".proto", package := package, messages := [.mk { name := "M", fields := [
        { name := "k", label := .repeated, code := 11,
          typeName := "." ++ package ++ ".M.KEntry" }] } [entry]] }
    let alone : Request := { files := [file "p"], targets := ["p.proto"] }
    let beside : Request := { files := [file "q", file "p"], targets := ["p.proto"] }
    (alone.generate none).map (·.outcome) = (beside.generate none).map (·.outcome) := by
  intro entry file alone beside
  refine generate_outcome_eq_of_same_targets alone beside none rfl rfl rfl (by decide)
    (by decide +kernel) (by decide +kernel) (by decide +kernel) (by decide +kernel) ?_
    ⟨_, rfl⟩ ⟨_, rfl⟩
  intro t ht d hd
  rw [List.mem_singleton.1 ht] at hd
  constructor
  · exact fun hmem => List.mem_cons_of_mem _ hmem
  · intro hmem
    rcases List.mem_cons.1 hmem with rfl | hmem
    · exact absurd hd (by decide +kernel)
    · exact hmem

end OdinSchema
