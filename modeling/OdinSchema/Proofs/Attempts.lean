import OdinSchema.Proofs.DescriptorTree
import OdinSchema.Proofs.Provenance
import OdinSchema.Session

/-!
# Loading again

A load that fails keeps what it has found, and the next attempt starts from
there. More map entries are known to it than to the first, so a field that was
a message field can now be a map, and the error of the second attempt need not
be that of the first. Still no later attempt ends well. If files are converted
from any catalog, they are converted from the empty one
(`gives_loadFiles_empty`): map entries that are known can only be in the way.
And a reference that was not found is noted forever, while no attempt declares
a type that the first did not declare.
-/

namespace OdinSchema

variable {α β : Type} {c c' c'' : Catalog}

open Load

/-! ## What every attempt keeps -/

/-- Growth of a catalog by which references are only added, and no types but
given ones. -/
structure Catalog.GrowsBy (names : List String) (c c' : Catalog) : Prop where
  references : c.references ⊆ c'.references
  types : ∀ name ∈ c'.types, name ∈ c.types ∨ name ∈ names
  complete : c'.complete = c.complete

variable {names : List String}

theorem Catalog.GrowsBy.refl (c : Catalog) : c.GrowsBy names c :=
  ⟨List.Subset.refl _, fun _ => .inl, rfl⟩

theorem Catalog.GrowsBy.trans (h : c.GrowsBy names c') (h' : c'.GrowsBy names c'') :
    c.GrowsBy names c'' := by
  refine ⟨fun r hr => h'.references (h.references hr), fun name hname => ?_,
    h'.complete.trans h.complete⟩
  rcases h'.types name hname with hname | hname
  · exact h.types name hname
  · exact .inr hname

/-- A load by which a catalog grows so, whether it ends well or not. -/
def Load.Keeps (names : List String) (load : Load α) : Prop :=
  ∀ c, load.Ends c (fun _ => c.GrowsBy names) (fun _ => c.GrowsBy names)

theorem keeps_bind {load : Load α} {next : α → Load β} (hload : load.Keeps names)
    (hnext : ∀ a, (next a).Keeps names) : (load >>= next).Keeps names := by
  intro c
  rw [ends_bind]
  refine (hload c).imp (fun a c' hfirst => ?_) fun e c' hfirst => hfirst
  exact (hnext a c').imp (fun b c'' => hfirst.trans) fun e c'' => hfirst.trans

theorem keeps_pure (a : α) : (pure a : Load α).Keeps names :=
  Catalog.GrowsBy.refl

theorem keeps_modify {f : Catalog → Catalog} (h : ∀ c, Catalog.GrowsBy names c (f c)) :
    (modify f : Load Unit).Keeps names :=
  h

theorem keeps_declare {name : String} (h : name ∈ names) :
    (declare name).Keeps names := by
  refine keeps_modify fun c => ⟨List.Subset.refl _, fun other hother => ?_, rfl⟩
  refine (List.mem_append.1 hother).imp_right fun hname => ?_
  rw [List.mem_singleton.1 hname]
  exact h

/-- Nothing is declared but the full name that segments have. -/
theorem keeps_qualify {segments : List Verbatim} {next : String → Load α}
    (h : (next (qualified segments)).Keeps names) :
    (Load.ofExcept (qualify segments) >>= next).Keeps names := by
  intro c
  rw [ends_bind, ends_ofExcept]
  cases hqualify : qualify segments with
  | error e => exact .refl c
  | ok name =>
    rw [(qualify_eq_ok_iff.1 hqualify).2]
    exact h c

theorem keeps_loadEnums {segments : List Verbatim} {ds : List EnumDescriptor}
    (h : ∀ d ∈ ds, qualified (segments ++ [d.name]) ∈ names) :
    (loadEnums segments ds).Keeps names := by
  induction ds with
  | nil => exact keeps_pure []
  | cons d rest ih =>
    obtain ⟨hd, hrest⟩ := List.forall_mem_cons.1 h
    rw [loadEnums]
    refine keeps_bind ?_ fun enum => keeps_bind (ih hrest) fun enums => keeps_pure _
    exact keeps_qualify (keeps_bind (keeps_declare hd) fun _ => keeps_pure _)

theorem keeps_loadFields {context : FileContext} {path : List Int} {oneofs : List Verbatim}
    {start : Nat} {ds : List FieldDescriptor} :
    (loadFields context path oneofs start ds).Keeps names := by
  induction ds generalizing start with
  | nil => exact keeps_pure []
  | cons d rest ih =>
    rw [loadFields]
    refine keeps_bind ?_ fun field => keeps_bind ih fun fields => keeps_pure _
    intro c
    rw [FieldDescriptor.load, ends_bind, ends_get, ends_bind, ends_modify, ends_ofExcept]
    have hnoted : c.GrowsBy names
        { c with references := c.references ++ (d.reference? c.entries).toList } :=
      ⟨List.subset_append_left _ _, fun _ => .inl, rfl⟩
    split <;> exact hnoted

namespace MessageDescriptor

variable {context : FileContext}

mutual

private theorem keeps_load : ∀ (d : MessageDescriptor) (segments : List Verbatim) (path : List Int),
    (∀ s ∈ d.sites segments, s.typeNames ⊆ names) →
    (d.load context segments path).Keeps names
  | mk head nested, segments, path, h => by
    rw [sites, List.forall_mem_cons, Site.typeNames, List.cons_subset] at h
    obtain ⟨⟨hname, henums⟩, hnested⟩ := h
    rw [load]
    refine keeps_qualify (keeps_bind (keeps_declare hname) fun _ => ?_)
    refine keeps_bind (keeps_loadNested nested _ _ _ hnested) fun ms => ?_
    refine keeps_bind (keeps_loadEnums fun d hd => henums (List.mem_map_of_mem hd)) fun enums => ?_
    exact keeps_bind keeps_loadFields fun fields => keeps_pure _

private theorem keeps_loadNested : ∀ (ds : List MessageDescriptor) (segments : List Verbatim)
    (path : List Int) (start : Nat), (∀ s ∈ sitesOf segments ds, s.typeNames ⊆ names) →
    (loadNested context segments path start ds).Keeps names
  | [], segments, path, start, _ => by
    rw [loadNested]
    exact keeps_pure []
  | d :: rest, segments, path, start, h => by
    rw [sitesOf, List.forall_mem_append] at h
    have hrest : ∀ m : Message, (do
        let ms ← loadNested context segments path (start + 1) rest
        pure (m :: ms) : Load (List Message)).Keeps names := fun m =>
      keeps_bind (keeps_loadNested rest _ _ _ h.2) fun ms => keeps_pure _
    rw [loadNested]
    refine keeps_bind (keeps_load d _ _ h.1) fun m => ?_
    split
    · exact keeps_bind (keeps_modify fun c => ⟨List.Subset.refl _, fun _ => .inl, rfl⟩)
        fun _ => hrest m
    · exact hrest m

end

end MessageDescriptor

theorem keeps_loadMessages {context : FileContext} {segments : List Verbatim} {start : Nat}
    {ds : List MessageDescriptor}
    (h : ∀ s ∈ MessageDescriptor.sitesOf segments ds, s.typeNames ⊆ names) :
    (loadMessages context segments start ds).Keeps names := by
  induction ds generalizing start with
  | nil => exact keeps_pure []
  | cons d rest ih =>
    rw [MessageDescriptor.sitesOf, List.forall_mem_append] at h
    rw [loadMessages]
    refine keeps_bind (d.keeps_load _ _ h.1) fun m => keeps_bind (ih h.2) fun ms => keeps_pure _

/-- **No attempt declares other types than those of its files**, and none
takes a reference back. -/
theorem keeps_loadFiles {files : List FileDescriptor}
    (h : ∀ d ∈ files, d.typeNames ⊆ names) : (loadFiles files).Keeps names := by
  induction files with
  | nil => exact keeps_pure ()
  | cons d rest ih =>
    obtain ⟨hd, hrest⟩ := List.forall_mem_cons.1 h
    rw [FileDescriptor.typeNames, List.append_subset] at hd
    obtain ⟨henums, hsites⟩ := hd
    rw [loadFiles]
    refine keeps_bind ?_ fun f => keeps_bind
      (keeps_modify fun c => ⟨List.Subset.refl _, fun _ => .inl, rfl⟩) fun _ => ih hrest
    refine keeps_bind (keeps_loadEnums fun e he => henums (List.mem_map_of_mem he)) fun enums => ?_
    refine keeps_bind (keeps_loadMessages fun s hs => ?_) fun ms => keeps_pure _
    exact fun name hname => hsites (List.mem_flatMap.2 ⟨s, hs, hname⟩)

/-! ## What a load that ends well declares -/

/-- A message that is loaded is declared, with all that is nested in it. -/
theorem MessageDescriptor.declares_of_gives_load {context : FileContext}
    {segments : List Verbatim} {path : List Int} {d : MessageDescriptor} {m : Message}
    (h : (d.load context segments path).Gives c m c') :
    c.types ⊆ c'.types ∧ (d.sites segments).flatMap Site.typeNames ⊆ c'.types := by
  refine (gives_induction (P := fun segments _ d c _ c' =>
      c.types ⊆ c'.types ∧ (d.sites segments).flatMap Site.typeNames ⊆ c'.types)
    (Q := fun segments _ _ ds c _ c' =>
      c.types ⊆ c'.types ∧ (sitesOf segments ds).flatMap Site.typeNames ⊆ c'.types) ⟨?_, ?_, ?_⟩).1 h
  · intro segments path head nested c ms c₁ m c' hnested hcloses
    obtain ⟨hkept, hinner⟩ := hnested
    rw [List.append_subset] at hkept
    have htypes : c₁.types ⊆ c'.types := by
      rw [hcloses.catalog_eq]
      exact List.subset_append_left _ _
    refine ⟨List.Subset.trans hkept.1 htypes, ?_⟩
    rw [sites, List.flatMap_cons, List.append_subset, Site.typeNames, List.cons_subset]
    refine ⟨⟨htypes (hkept.2 List.mem_cons_self), ?_⟩, List.Subset.trans hinner htypes⟩
    rw [hcloses.catalog_eq]
    exact List.subset_append_right _ _
  · intro segments path start c
    exact ⟨List.Subset.refl _, List.nil_subset _⟩
  · intro segments path start d rest c m c₁ ms c' hd hrest
    have hregister : (c₁.register m).types = c₁.types := by
      unfold Catalog.register
      split <;> rfl
    rw [hregister] at hrest
    rw [sitesOf, List.flatMap_append, List.append_subset]
    exact ⟨List.Subset.trans hd.1 hrest.1, List.Subset.trans hd.2 hrest.1, hrest.2⟩

theorem declares_of_gives_loadMessages {context : FileContext} {segments : List Verbatim}
    {start : Nat} {ds : List MessageDescriptor} {ms : List Message}
    (h : (loadMessages context segments start ds).Gives c ms c') : c.types ⊆ c'.types ∧
      (MessageDescriptor.sitesOf segments ds).flatMap Site.typeNames ⊆ c'.types := by
  induction ds generalizing c start ms with
  | nil =>
    obtain ⟨-, rfl⟩ := gives_loadMessages_nil.1 h
    exact ⟨List.Subset.refl _, List.nil_subset _⟩
  | cons d rest ih =>
    obtain ⟨m, c₁, ms', hm, hrest, -⟩ := gives_loadMessages_cons.1 h
    have hfirst := MessageDescriptor.declares_of_gives_load hm
    have hothers := ih hrest
    rw [MessageDescriptor.sitesOf, List.flatMap_append, List.append_subset]
    exact ⟨List.Subset.trans hfirst.1 hothers.1, List.Subset.trans hfirst.2 hothers.1, hothers.2⟩

/-- **Files that are loaded are declared.** -/
theorem declares_of_gives_loadFiles {files : List FileDescriptor} {u : Unit}
    (h : (loadFiles files).Gives c u c') :
    c.types ⊆ c'.types ∧ files.flatMap (·.typeNames) ⊆ c'.types := by
  induction files generalizing c with
  | nil =>
    rw [gives_loadFiles_nil.1 h]
    exact ⟨List.Subset.refl _, List.nil_subset _⟩
  | cons d rest ih =>
    obtain ⟨f, c₁, hf, hrest⟩ := gives_loadFiles_cons.1 h
    obtain ⟨-, ms, hms, -⟩ := FileDescriptor.gives_load.1 hf
    obtain ⟨hkept, hsites⟩ := declares_of_gives_loadMessages hms
    rw [List.append_subset] at hkept
    have hothers := ih hrest
    rw [List.flatMap_cons, List.append_subset, FileDescriptor.typeNames, List.append_subset]
    exact ⟨List.Subset.trans hkept.1 hothers.1, ⟨List.Subset.trans hkept.2 hothers.1,
      List.Subset.trans hsites hothers.1⟩, hothers.2⟩

/-! ## Fewer map entries -/

/-- Map entries that are known here are known there, with as many fields. -/
def Dictionary.Below (entries entries' : Dictionary String Message) : Prop :=
  ∀ name m, entries.get? name = some m →
    ∃ m', entries'.get? name = some m' ∧ m'.head.fields.length = m.head.fields.length

variable {entries entries' : Dictionary String Message}

namespace FieldDescriptor

variable {d : FieldDescriptor}

/-- A field finds its map entry fit, or is no map, exactly if the entry has
a key and a value. -/
theorem exists_entryFields?_iff : (∃ entry, d.entryFields? entries = .ok entry) ↔
    ∀ m, d.entryMessage? entries = some m → 2 ≤ m.head.fields.length := by
  rw [entryFields?]
  cases d.entryMessage? entries with
  | none => simp
  | some m => rcases hfields : m.head.fields with _ | ⟨key, _ | ⟨value, rest⟩⟩ <;> simp [hfields]

/-- A field that is read where more map entries are known is read here. -/
theorem exists_toField_of_below {dialect : Verbatim} {location : Option Location}
    {oneofs : List Verbatim} {f : Field} (hbelow : entries.Below entries')
    (h : d.toField dialect location oneofs entries' = .ok f) :
    ∃ f, d.toField dialect location oneofs entries = .ok f := by
  obtain ⟨hlegible, entry', oneof, override, hentry', honeof, hoverride, -⟩ :=
    toField_eq_ok_iff.1 h
  have hfit := exists_entryFields?_iff.1 ⟨entry', hentry'⟩
  obtain ⟨entry, hentry⟩ : ∃ entry, d.entryFields? entries = .ok entry := by
    refine exists_entryFields?_iff.2 fun m hm => ?_
    obtain ⟨hkind, name, hname, hget⟩ := entryMessage?_eq_some_iff.1 hm
    obtain ⟨m', hget', hlength⟩ := hbelow name m hget
    rw [← hlength]
    exact hfit m' (entryMessage?_eq_some_iff.2 ⟨hkind, name, hname, hget'⟩)
  exact ⟨_, toField_eq_ok_iff.2 ⟨hlegible, entry, oneof, override, hentry, honeof, hoverride, rfl⟩⟩

end FieldDescriptor

theorem ReadsFields.exists_of_below {context : FileContext} {path : List Int}
    {oneofs : List Verbatim} {start : Nat} {ds : List FieldDescriptor} {fs : List Field}
    (hbelow : entries.Below entries')
    (h : ReadsFields context path oneofs entries' start ds fs) :
    ∃ fs', ReadsFields context path oneofs entries start ds fs' := by
  rw [ReadsFields] at h
  simp only [ReadsFields]
  generalize ds.zipIdx start = items at h ⊢
  induction h with
  | nil => exact ⟨[], .nil⟩
  | cons hfirst hrest ih =>
    obtain ⟨f', hf'⟩ := FieldDescriptor.exists_toField_of_below hbelow hfirst
    obtain ⟨fs', hfs'⟩ := ih
    exact ⟨f' :: fs', .cons hf' hfs'⟩

theorem ReadsFields.length_eq {context : FileContext} {path : List Int}
    {oneofs : List Verbatim} {start : Nat} {ds : List FieldDescriptor} {fs : List Field}
    (h : ReadsFields context path oneofs entries start ds fs) : fs.length = ds.length := by
  have hlength := List.Forall₂.length_eq h
  rw [List.length_zipIdx] at hlength
  exact hlength.symm

namespace MessageDescriptor

variable {context : FileContext} {segments : List Verbatim} {path : List Int}

/-- A message that is registered as its descriptor says, whatever its fields
were found to be. -/
structure Outlines (segments : List Verbatim) (d : MessageDescriptor) (m : Message) : Prop where
  fullName : m.head.fullName = qualified (segments ++ [d.head.name])
  isMapEntry : m.head.isMapEntry = d.head.isMapEntry
  length : m.head.fields.length = d.head.fields.length

theorem outlines_of_closes {head : MessageDescriptorHead} {nested : List MessageDescriptor}
    {ms : List Message} {m : Message}
    (h : head.Closes context (segments ++ [head.name]) path ms c m c') :
    (mk head nested).Outlines segments m := by
  refine ⟨?_, ?_, h.reads.length_eq⟩
  · rw [h.message_eq]
    rfl
  · rw [h.message_eq]
    rfl

theorem outlines_of_gives_load {d : MessageDescriptor} {m : Message}
    (h : (d.load context segments path).Gives c m c') : d.Outlines segments m := by
  obtain ⟨head, nested⟩ := d
  obtain ⟨ms, c₁, -, hcloses⟩ := gives_load.1 h
  exact outlines_of_closes hcloses

/-- Catalogs stay below each other when messages of one descriptor are
registered. -/
theorem Outlines.below_register {d : MessageDescriptor} {m m' : Message}
    (hm : d.Outlines segments m) (hm' : d.Outlines segments m')
    (h : c.entries.Below c'.entries) :
    (c.register m).entries.Below (c'.register m').entries := by
  rw [Catalog.register, Catalog.register, hm.isMapEntry, hm'.isMapEntry]
  split
  · intro name n hget
    have hget : (c.entries.set m.head.fullName m).get? name = some n := hget
    show ∃ n', (c'.entries.set m'.head.fullName m').get? name = some n' ∧ _
    rw [Dictionary.get?_set, hm.fullName] at hget
    rw [Dictionary.get?_set, hm'.fullName]
    split at hget
    · cases hget
      rw [if_pos ‹_›]
      exact ⟨m', rfl, hm'.length.trans hm.length.symm⟩
    · rw [if_neg ‹_›]
      exact h name n hget
  · exact h

/-- **A message that is loaded where more map entries are known is loaded
here.** -/
theorem exists_gives_load_of_below {d : MessageDescriptor} {m : Message}
    (h : (d.load context segments path).Gives c' m c'') (hbelow : c.entries.Below c'.entries) :
    ∃ m₁ c₁, (d.load context segments path).Gives c m₁ c₁ ∧ c₁.entries.Below c''.entries := by
  -- what a message is registered as is carried along, as the lists need it
  refine ((gives_induction (P := fun segments path d c' m c'' => d.Outlines segments m ∧
      ∀ c : Catalog, c.entries.Below c'.entries → ∃ m₁ c₁,
        (d.load context segments path).Gives c m₁ c₁ ∧ c₁.entries.Below c''.entries)
    (Q := fun segments path start ds c' _ c'' =>
      ∀ c : Catalog, c.entries.Below c'.entries → ∃ ms₁ c₁,
        (loadNested context segments path start ds).Gives c ms₁ c₁ ∧
          c₁.entries.Below c''.entries) ⟨?_, ?_, ?_⟩).1 h).2 c hbelow
  · intro segments path head nested c' ms c₁' m c'' hnested hcloses
    refine ⟨outlines_of_closes hcloses, fun c hbelow => ?_⟩
    obtain ⟨ms₁, c₁, hgives, hinner⟩ :=
      hnested { c with types := c.types ++ [qualified (segments ++ [head.name])] } hbelow
    obtain ⟨fields, hreads⟩ := hcloses.reads.exists_of_below hinner
    refine ⟨.mk (head.assemble (segments ++ [head.name]) fields) ms₁, _, gives_load.2
      ⟨ms₁, c₁, hgives, hcloses.legible, hcloses.legible_enums, hreads, rfl, rfl⟩, ?_⟩
    rw [hcloses.catalog_eq]
    exact hinner
  · intro segments path start c' c hbelow
    exact ⟨[], c, gives_loadNested_nil.2 ⟨rfl, rfl⟩, hbelow⟩
  · intro segments path start d rest c' m c₁' ms c'' hd hrest c hbelow
    obtain ⟨houtlines, hd⟩ := hd
    obtain ⟨m₁, c₁, hm₁, hfirst⟩ := hd c hbelow
    obtain ⟨ms₁, c₂, hms₁, hlast⟩ := hrest (c₁.register m₁)
      ((outlines_of_gives_load hm₁).below_register houtlines hfirst)
    exact ⟨m₁ :: ms₁, c₂, gives_loadNested_cons.2 ⟨m₁, c₁, ms₁, hm₁, hms₁, rfl⟩, hlast⟩

end MessageDescriptor

theorem exists_gives_loadMessages_of_below {context : FileContext} {segments : List Verbatim}
    {start : Nat} {ds : List MessageDescriptor} {ms : List Message}
    (h : (loadMessages context segments start ds).Gives c' ms c'')
    (hbelow : c.entries.Below c'.entries) : ∃ ms₁ c₁,
      (loadMessages context segments start ds).Gives c ms₁ c₁ ∧
        c₁.entries.Below c''.entries := by
  induction ds generalizing c c' start ms with
  | nil =>
    obtain ⟨-, rfl⟩ := gives_loadMessages_nil.1 h
    exact ⟨[], c, gives_loadMessages_nil.2 ⟨rfl, rfl⟩, hbelow⟩
  | cons d rest ih =>
    obtain ⟨m, c₁', ms', hm, hrest, -⟩ := gives_loadMessages_cons.1 h
    obtain ⟨m₁, c₁, hm₁, hfirst⟩ := MessageDescriptor.exists_gives_load_of_below hm hbelow
    obtain ⟨ms₁, c₂, hms₁, hlast⟩ := ih hrest hfirst
    exact ⟨m₁ :: ms₁, c₂, gives_loadMessages_cons.2 ⟨m₁, c₁, ms₁, hm₁, hms₁, rfl⟩, hlast⟩

theorem exists_gives_loadFiles_of_below {files : List FileDescriptor} {u : Unit}
    (h : (loadFiles files).Gives c' u c'') (hbelow : c.entries.Below c'.entries) :
    ∃ c₁, (loadFiles files).Gives c u c₁ := by
  induction files generalizing c c' with
  | nil => exact ⟨c, gives_loadFiles_nil.2 rfl⟩
  | cons d rest ih =>
    obtain ⟨f, c₁', hf, hrest⟩ := gives_loadFiles_cons.1 h
    obtain ⟨hlegible, ms, hms, -⟩ := FileDescriptor.gives_load.1 hf
    obtain ⟨ms₁, c₁, hms₁, hfirst⟩ := exists_gives_loadMessages_of_below
      (c := { c with types := c.types ++ d.enums.map (fun e => qualified [d.package, e.name]) })
      hms hbelow
    obtain ⟨c₂, hlast⟩ := ih
      (c := { c₁ with files := c₁.files.set d.name (d.assemble ms₁) }) hrest hfirst
    exact ⟨c₂, gives_loadFiles_cons.2 ⟨d.assemble ms₁, c₁,
      FileDescriptor.gives_load.2 ⟨hlegible, ms₁, hms₁, rfl⟩, hlast⟩⟩

/-- **Files that are converted from any catalog are converted from the empty
one.** -/
theorem gives_loadFiles_empty {files : List FileDescriptor}
    (h : (loadFiles files).Gives c () c') : ∃ c₁, (loadFiles files).Gives {} () c₁ :=
  exists_gives_loadFiles_of_below h fun _ _ hget => nomatch hget

/-! ## Attempts -/

namespace Catalog

variable {files : List FileDescriptor}

/-- The first reference that is not declared, if there is one. -/
def dangling? (c : Catalog) : Option Reference :=
  c.references.find? fun r => r.typeName ∉ c.types

/-- An attempt fails if files cannot be converted. -/
theorem load_of_error {e : LoadError} (h : c.complete = false)
    (hrun : (loadFiles files).run.run c = (.error e, c')) : c.load files = (.error e, c') := by
  rw [load, h, if_neg Bool.false_ne_true, loadAll, run_bind, hrun]

theorem load_of_gives (h : c.complete = false) (hgives : (loadFiles files).Gives c () c') :
    c.load files = (match c'.dangling? with
      | some r => (.error (.unresolved r.typeName r.field), c')
      | none => (.ok c'.files, { c' with complete := true })) := by
  have hcheck : checkReferences.run.run c' = (match c'.dangling? with
      | some r => (.error (.unresolved r.typeName r.field), c')
      | none => (.ok (), c')) := by
    have hget : (get : Load Catalog).run.run c' = (.ok c', c') := rfl
    rw [checkReferences, run_bind, hget, dangling?]
    simp only
    cases c'.references.find? fun r => r.typeName ∉ c'.types <;> rfl
  rw [Gives] at hgives
  rw [load, h, if_neg Bool.false_ne_true, loadAll, run_bind, hgives]
  simp only [run_bind, hcheck]
  cases c'.dangling? <;> rfl

/-- It also fails if then a reference is not declared, -/
theorem load_of_dangling {r : Reference} (h : c.complete = false)
    (hgives : (loadFiles files).Gives c () c') (hdangling : c'.dangling? = some r) :
    c.load files = (.error (.unresolved r.typeName r.field), c') := by
  rw [load_of_gives h hgives, hdangling]

/-- and ends well otherwise. -/
theorem load_of_settled (h : c.complete = false) (hgives : (loadFiles files).Gives c () c')
    (hsettled : c'.dangling? = none) :
    c.load files = (.ok c'.files, { c' with complete := true }) := by
  rw [load_of_gives h hgives, hsettled]

/-- An attempt that ends well completes the catalog. -/
theorem complete_of_load {loaded : Dictionary Verbatim File} (h : c.complete = false)
    (hload : c.load files = (.ok loaded, c')) : c'.complete = true ∧ c'.files = loaded := by
  rcases hrun : (loadFiles files).run.run c with ⟨e | ⟨⟩, c₁⟩
  · cases (load_of_error h hrun).symm.trans hload
  · cases hdangling : c₁.dangling? with
    | none =>
      cases (load_of_settled h hrun hdangling).symm.trans hload
      exact ⟨rfl, rfl⟩
    | some r => cases (load_of_dangling h hrun hdangling).symm.trans hload

/-- How files change a catalog, whether they are converted or not. -/
theorem growsBy_loadFiles (files : List FileDescriptor) (c : Catalog) :
    c.GrowsBy (files.flatMap (·.typeNames)) ((loadFiles files).run.run c).2 := by
  have hkeeps : (loadFiles files).Keeps (files.flatMap (·.typeNames)) :=
    keeps_loadFiles fun d hd name hname => List.mem_flatMap.2 ⟨d, hd, hname⟩
  have hends := hkeeps c
  revert hends
  rw [Ends]
  rcases (loadFiles files).run.run c with ⟨e | u, c'⟩ <;> exact id

/-- A catalog from which no attempt ends well: its files cannot be converted,
or it holds a reference that none of their types answers. -/
structure Doomed (files : List FileDescriptor) (c : Catalog) : Prop where
  incomplete : c.complete = false
  fault : (¬ ∃ c', (loadFiles files).Gives {} () c') ∨
    ∃ r ∈ c.references, r.typeName ∉ files.flatMap (·.typeNames) ∧
      c.types ⊆ files.flatMap (·.typeNames)

theorem Doomed.grow (h : c.Doomed files) (hgrows : c.GrowsBy (files.flatMap (·.typeNames)) c') :
    c'.Doomed files := by
  refine ⟨hgrows.complete.trans h.incomplete, h.fault.imp_right ?_⟩
  rintro ⟨r, hr, hundeclared, htypes⟩
  refine ⟨r, hgrows.references hr, hundeclared, fun name hname => ?_⟩
  exact (hgrows.types name hname).elim (fun hname => htypes hname) id

/-- **An attempt on a doomed catalog fails**, and leaves a doomed one. -/
theorem Doomed.load (h : c.Doomed files) :
    ∃ e c', c.load files = (.error e, c') ∧ c'.Doomed files := by
  have hdoomed := h.grow (growsBy_loadFiles files c)
  rcases hrun : (loadFiles files).run.run c with ⟨e | ⟨⟩, c'⟩
  · rw [hrun] at hdoomed
    exact ⟨e, c', load_of_error h.incomplete hrun, hdoomed⟩
  · rw [hrun] at hdoomed
    rcases hdoomed.fault with hnone | ⟨r, hr, hundeclared, htypes⟩
    · exact absurd (gives_loadFiles_empty hrun) hnone
    · have hdangling : c'.dangling? ≠ none := by
        intro hnone
        have hfound := List.find?_eq_none.1 hnone r hr
        rw [decide_eq_true_eq, not_not] at hfound
        exact hundeclared (htypes hfound)
      obtain ⟨first, hfirst⟩ := Option.ne_none_iff_exists'.1 hdangling
      exact ⟨_, c', load_of_dangling h.incomplete hrun hfirst, hdoomed⟩

/-- **The first attempt, if it fails, leaves a doomed catalog.** -/
theorem doomed_of_load_empty {e : LoadError} (h : ({} : Catalog).load files = (.error e, c)) :
    c.Doomed files := by
  have hgrows := growsBy_loadFiles files {}
  rcases hrun : (loadFiles files).run.run {} with ⟨e' | ⟨⟩, c'⟩
  · rw [hrun] at hgrows
    cases (load_of_error rfl hrun).symm.trans h
    refine ⟨hgrows.complete, .inl ?_⟩
    rintro ⟨c', hgives⟩
    cases hgives.symm.trans hrun
  · rw [hrun] at hgrows
    cases hdangling : c'.dangling? with
    | none => cases (load_of_settled rfl hrun hdangling).symm.trans h
    | some r =>
      cases (load_of_dangling rfl hrun hdangling).symm.trans h
      have hundeclared : r.typeName ∉ c.types := by
        simpa using List.find?_some hdangling
      refine ⟨hgrows.complete, .inr ⟨r, List.mem_of_find?_eq_some hdangling,
        fun hmem => hundeclared ((declares_of_gives_loadFiles hrun).2 hmem), fun name hname => ?_⟩⟩
      exact (hgrows.types name hname).resolve_left List.not_mem_nil

end Catalog

/-! ## Sessions -/

/-- A reply that no file is seen in. -/
def Query.WithoutFiles (request : Request) (query : Query) (reply : Except Failure Reply) : Prop :=
  match query with
  | .targets => reply = .ok (.targets request.targets)
  | _ => ∃ cause, reply = .error (.load cause)

/-- A reply from loaded files. A file that is asked for by name is the one
loaded under that name, and is unknown if there is none. -/
def Query.FromFiles (request : Request) (loaded : Dictionary Verbatim File) (query : Query)
    (reply : Except Failure Reply) : Prop :=
  match query with
  | .load | .files => reply = .ok (.files loaded)
  | .file name =>
    (∃ file, loaded.get? name = some file ∧ reply = .ok (.file file)) ∨
      loaded.get? name = none ∧ reply = .error (.unknownFile name)
  | .targets => reply = .ok (.targets request.targets)

namespace Request

variable {request : Request} {P : Catalog → Prop}

theorem fromFiles_reply {loaded : Dictionary Verbatim File} (query : Query) :
    query.FromFiles request loaded (request.reply loaded query) := by
  cases query with
  | file name =>
    cases hget : loaded.get? name with
    | none => exact .inr ⟨hget, by rw [reply, hget]⟩
    | some file => exact .inl ⟨file, hget, by rw [reply, hget]⟩
  | _ => rfl

/-- If loads fail on catalogs of some kind, and leave such catalogs, no
question sees a file. -/
theorem session_of_load_error
    (hload : ∀ c, P c → ∃ e c', c.load request.files = (.error e, c') ∧ P c') (h : P c)
    (queries : List Query) :
    List.Forall₂ (Query.WithoutFiles request) queries (request.session c queries) := by
  induction queries generalizing c with
  | nil => exact .nil
  | cons query rest ih =>
    obtain ⟨e, c', hfailed, hleft⟩ := hload c h
    rw [session]
    cases query with
    | targets => exact .cons rfl (ih h)
    | _ =>
      simp only [ask, hfailed]
      exact .cons ⟨e, rfl⟩ (ih hleft)

/-- If loads give the same files on catalogs of some kind, and leave such
catalogs, questions are answered from these files. -/
theorem session_of_load_ok {loaded : Dictionary Verbatim File}
    (hload : ∀ c, P c → ∃ c', c.load request.files = (.ok loaded, c') ∧ P c') (h : P c)
    (queries : List Query) :
    List.Forall₂ (Query.FromFiles request loaded) queries (request.session c queries) := by
  induction queries generalizing c with
  | nil => exact .nil
  | cons query rest ih =>
    obtain ⟨c', hloaded, hleft⟩ := hload c h
    rw [session]
    cases query with
    | targets => exact .cons rfl (ih h)
    | _ =>
      simp only [ask, hloaded]
      exact .cons (fromFiles_reply _) (ih hleft)

end Request

/-- **A failed load is never followed by partial results.** Either the files
of a request load, and then every question is answered from the loaded files,
whenever it is asked: with all of them, or with the one under the name that is
asked for, which is unknown if there is none. Or the first attempt fails, and then every question that
needs the files fails to load them, however often it is asked. The names to
generate code for are answered either way. -/
theorem session_loads_always_or_never (request : Request) (queries : List Query) :
    (∃ loaded, Loads request.files loaded ∧
      List.Forall₂ (Query.FromFiles request loaded) queries (request.session {} queries)) ∨
    (∃ cause, (({} : Catalog).load request.files).1 = .error cause) ∧
      List.Forall₂ (Query.WithoutFiles request) queries (request.session {} queries) := by
  rcases hload : ({} : Catalog).load request.files with ⟨cause | loaded, first⟩
  · refine .inr ⟨⟨cause, rfl⟩, ?_⟩
    -- nothing was loaded yet, or an attempt has failed
    refine Request.session_of_load_error (P := fun c => c = {} ∨ c.Doomed request.files) ?_
      (.inl rfl) queries
    rintro c (rfl | hdoomed)
    · exact ⟨cause, first, hload, .inr (Catalog.doomed_of_load_empty hload)⟩
    · obtain ⟨e, c', hagain, hdoomed'⟩ := hdoomed.load
      exact ⟨e, c', hagain, .inr hdoomed'⟩
  · refine .inl ⟨loaded, congrArg Prod.fst hload, ?_⟩
    obtain ⟨hcomplete, rfl⟩ := Catalog.complete_of_load rfl hload
    have hagain : first.load request.files = (.ok first.files, first) := by
      rw [Catalog.load, hcomplete, if_pos rfl]
    -- nothing was loaded yet, or everything was
    refine Request.session_of_load_ok (P := fun c => c = {} ∨ c = first) ?_ (.inl rfl) queries
    rintro c (rfl | rfl)
    · exact ⟨first, hload, .inr rfl⟩
    · exact ⟨c, hagain, .inr rfl⟩

/-- A file whose first message refers to a map entry that is only loaded
after it, and that lacks a key and a value. -/
def lateEntryFile : FileDescriptor where
  name := "late.proto"
  messages := [
    .mk { name := "A", fields := [
      { name := "items", label := .repeated, code := 11, typeName := ".B.Entry" },
      { name := "other", code := 11, typeName := ".Missing" }] } [],
    .mk { name := "B" } [.mk { name := "Entry", mapEntry := some true } []]]

-- the second attempt knows the entry, takes the first field for a map and fails there
example : (({ files := [lateEntryFile] } : Request).session {} [.load, .targets, .files]).map
    (fun reply => match reply with
      | .ok _ => none
      | .error failure => some failure) =
    [some (.load (.unresolved "Missing" "other")), none, some (.load .outOfRange)] := by
  decide +kernel

end OdinSchema
