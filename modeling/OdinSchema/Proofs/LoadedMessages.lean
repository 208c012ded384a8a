import Mathlib.Data.List.Induction
import OdinSchema.Proofs.Independence
import OdinSchema.Proofs.Provenance

/-!
# Loaded messages beside their descriptors

The messages of a loaded file stand beside the messages of its descriptor, at
every depth and in the same order. What a field became hangs on the map
entries that were known when it was read, and two things can be said of these.
Each is itself a loaded message, known by its full name (`EntriesFrom`), and
the entries nested in the message of the field are among them. A load of
messages keeps both (`Catalog.Reads`). So a claim about loaded fields needs no
descent of its own into nested messages: it looks at one field, and finds the
fields of its entry among those it is about.
-/

namespace OdinSchema

open Load

variable {c c' c'' : Catalog} {context : FileContext}

/-! ## Known map entries -/

/-- Map entries, each of them an older one or one of some messages, known by
its full name. -/
def EntriesFrom (older : Dictionary String Message) (heads : List MessageHead)
    (entries : Dictionary String Message) : Prop :=
  ∀ name entry, entries.get? name = some entry → older.get? name = some entry ∨
    (entry.head ∈ heads ∧ entry.head.isMapEntry = true ∧ entry.head.fullName = name)

namespace EntriesFrom

variable {older entries entries' : Dictionary String Message} {heads heads' : List MessageHead}

theorem refl (entries : Dictionary String Message) (heads : List MessageHead) :
    EntriesFrom entries heads entries :=
  fun _ _ hentry => .inl hentry

theorem mono (h : EntriesFrom older heads entries) (hsub : heads ⊆ heads') :
    EntriesFrom older heads' entries := by
  intro name entry hentry
  exact (h name entry hentry).imp_right fun hmem => ⟨hsub hmem.1, hmem.2⟩

theorem trans (h : EntriesFrom older heads entries) (h' : EntriesFrom entries heads entries') :
    EntriesFrom older heads entries' := by
  intro name entry hentry
  rcases h' name entry hentry with hentry | hmem
  · exact h name entry hentry
  · exact .inr hmem

end EntriesFrom

/-! ## Messages -/

/-- A message that is read off its descriptor while some map entries are
known, those nested in it among them. -/
structure Site.ReadTo (context : FileContext) (entries : Dictionary String Message) (s : Site)
    (m : MessageHead) : Prop where
  reads : ∃ path, ReadsFields context path s.head.oneofs entries 0 s.head.fields m.fields
  head_eq : m = s.head.assemble s.segments m.fields
  own : ∀ name ∈ s.entryNames, name ∈ entries.keys

theorem Site.ReadTo.fullName {entries : Dictionary String Message} {s : Site} {m : MessageHead}
    (h : s.ReadTo context entries m) : m.fullName = s.fullName := by
  rw [h.head_eq]
  rfl

theorem Site.ReadTo.isMapEntry {entries : Dictionary String Message} {s : Site} {m : MessageHead}
    (h : s.ReadTo context entries m) : m.isMapEntry = s.head.isMapEntry := by
  rw [h.head_eq]
  rfl

namespace Catalog

variable {sites sites' : List Site} {heads heads' : List MessageHead}

/-- What loading messages does: they are read off their descriptors one by
one, and the map entries among them become known. -/
structure Reads (context : FileContext) (c : Catalog) (sites : List Site)
    (heads : List MessageHead) (c' : Catalog) : Prop where
  entries : EntriesFrom c.entries heads c'.entries
  keeps : c.entries.keys ⊆ c'.entries.keys
  messages : List.Forall₂ (fun s m => ∃ entries, EntriesFrom c.entries heads entries ∧
    s.ReadTo context entries m) sites heads

theorem Reads.nil (context : FileContext) (c : Catalog) : c.Reads context [] [] c :=
  ⟨.refl _ _, List.Subset.refl _, .nil⟩

/-- Messages are read one list after another. -/
theorem Reads.append (h : c.Reads context sites heads c')
    (h' : c'.Reads context sites' heads' c'') :
    c.Reads context (sites ++ sites') (heads ++ heads') c'' := by
  have hfirst : EntriesFrom c.entries (heads ++ heads') c'.entries :=
    h.entries.mono (List.subset_append_left _ _)
  have hsecond : ∀ {entries}, EntriesFrom c'.entries heads' entries →
      EntriesFrom c.entries (heads ++ heads') entries :=
    fun hentries => hfirst.trans (hentries.mono (List.subset_append_right _ _))
  refine ⟨hsecond h'.entries, List.Subset.trans h.keeps h'.keeps, List.rel_append ?_ ?_⟩
  · refine h.messages.imp fun s m hread => ?_
    obtain ⟨entries, hentries, hread⟩ := hread
    exact ⟨entries, hentries.mono (List.subset_append_left _ _), hread⟩
  · refine h'.messages.imp fun s m hread => ?_
    obtain ⟨entries, hentries, hread⟩ := hread
    exact ⟨entries, hsecond hentries, hread⟩

/-- Registering a message that was read makes known no other one. -/
theorem Reads.register {m : Message} (h : c.Reads context sites m.heads c') :
    c.Reads context sites m.heads (c'.register m) ∧
      (m.head.isMapEntry = true → m.head.fullName ∈ (c'.register m).entries.keys) := by
  unfold Catalog.register
  split
  · rename_i hmap
    have hself : m.head ∈ m.heads := by
      obtain ⟨head, nested⟩ := m
      exact List.mem_cons_self
    refine ⟨⟨fun name entry hentry => ?_, fun name hname => ?_, h.messages⟩, fun _ => ?_⟩
    · rw [Dictionary.get?_set] at hentry
      split at hentry
      · rename_i hname
        cases hentry
        exact .inr ⟨hself, hmap, hname.symm⟩
      · exact h.entries name entry hentry
    · exact Dictionary.mem_keys_set.2 (.inr (h.keeps hname))
    · exact Dictionary.mem_keys_set.2 (.inl rfl)
  · rename_i hmap
    exact ⟨h, fun hentry => absurd hentry hmap⟩

end Catalog

open Catalog

namespace MessageDescriptor

/-- A message is read once those nested in it are, if the map entries among
these are known. -/
theorem reads_of_closes {segments : List Verbatim} {path : List Int}
    {head : MessageDescriptorHead} {nested : List MessageDescriptor} {ms : List Message}
    {m : Message} (h : head.Closes context segments path ms c' m c'')
    (hnested : c.Reads context (sitesOf segments nested) (Message.headsOf ms) c')
    (hown : ∀ d ∈ nested, d.head.isMapEntry = true →
      qualified (segments ++ [d.head.name]) ∈ c'.entries.keys) :
    c.Reads context (⟨segments, head, nested⟩ :: sitesOf segments nested) m.heads c'' := by
  have hheads : m.heads = m.head :: Message.headsOf ms := by
    rw [h.message_eq]
    rfl
  have hentries : c''.entries = c'.entries := by
    rw [h.catalog_eq]
  have hread : Site.ReadTo context c'.entries ⟨segments, head, nested⟩ m.head := by
    refine ⟨⟨path, h.reads⟩, congrArg Message.head h.message_eq, fun name hname => ?_⟩
    obtain ⟨d, hd, rfl⟩ := List.mem_map.1 hname
    obtain ⟨hmem, hmap⟩ := List.mem_filter.1 hd
    exact hown d hmem hmap
  have hsub : Message.headsOf ms ⊆ m.heads := by
    rw [hheads]
    exact List.subset_cons_self _ _
  refine ⟨?_, ?_, ?_⟩
  · rw [hentries]
    exact hnested.entries.mono hsub
  · rw [hentries]
    exact hnested.keeps
  · rw [hheads]
    refine .cons ⟨c'.entries, hheads ▸ hnested.entries.mono hsub, hread⟩ ?_
    refine hnested.messages.imp fun s m hread => ?_
    obtain ⟨entries, hentries, hread⟩ := hread
    exact ⟨entries, hheads ▸ hentries.mono hsub, hread⟩

/-- **Loading a message reads it and all that is nested in it.** -/
theorem reads_of_gives_load {segments : List Verbatim} {path : List Int} {d : MessageDescriptor}
    {m : Message} (h : (d.load context segments path).Gives c m c') :
    c.Reads context (d.sites segments) m.heads c' := by
  -- a message is registered by name and kind, which are carried along; a list of nested
  -- messages leaves the map entries among them known
  refine ((gives_induction (P := fun segments _ d c m c' =>
      c.Reads context (d.sites segments) m.heads c' ∧
        m.head.fullName = qualified (segments ++ [d.head.name]) ∧
        m.head.isMapEntry = d.head.isMapEntry)
    (Q := fun segments _ _ ds c ms c' =>
      c.Reads context (sitesOf segments ds) (Message.headsOf ms) c' ∧
        ∀ d ∈ ds, d.head.isMapEntry = true →
          qualified (segments ++ [d.head.name]) ∈ c'.entries.keys) ⟨?_, ?_, ?_⟩).1 h).1
  · intro segments path head nested c ms c₁ m c' hnested hcloses
    obtain ⟨hnested, hown⟩ := hnested
    -- that the message is declared does not change what is known
    have hnested : c.Reads context (sitesOf (segments ++ [head.name]) nested)
        (Message.headsOf ms) c₁ :=
      ⟨hnested.entries, hnested.keeps, hnested.messages⟩
    rw [sites]
    refine ⟨reads_of_closes hcloses hnested hown, ?_⟩
    rw [hcloses.message_eq]
    exact ⟨rfl, rfl⟩
  · intro segments path start c
    exact ⟨.nil context c, fun d hd => absurd hd List.not_mem_nil⟩
  · intro segments path start d rest c m c₁ ms c' hd hrest
    obtain ⟨hd, hfullName, hkind⟩ := hd
    obtain ⟨hrest, hothers⟩ := hrest
    obtain ⟨hfirst, hregistered⟩ := hd.register
    rw [sitesOf, Message.headsOf]
    refine ⟨hfirst.append hrest, List.forall_mem_cons.2 ⟨fun hmap => ?_, hothers⟩⟩
    rw [← hfullName]
    exact hrest.keeps (hregistered (hkind.trans hmap))

end MessageDescriptor

theorem reads_of_gives_loadMessages {segments : List Verbatim} {start : Nat}
    {ds : List MessageDescriptor} {ms : List Message}
    (h : (loadMessages context segments start ds).Gives c ms c') :
    c.Reads context (MessageDescriptor.sitesOf segments ds) (Message.headsOf ms) c' := by
  induction ds generalizing c start ms with
  | nil =>
    obtain ⟨rfl, rfl⟩ := gives_loadMessages_nil.1 h
    exact .nil context _
  | cons d rest ih =>
    obtain ⟨m, c₁, ms', hm, hrest, rfl⟩ := gives_loadMessages_cons.1 h
    exact (MessageDescriptor.reads_of_gives_load hm).append (ih hrest)

/-! ## Files -/

namespace FileDescriptor

variable {files : List FileDescriptor} {d : FileDescriptor} {f : File}

/-- **Loading a file reads its messages.** -/
theorem reads_of_gives_load (h : d.load.Gives c f c') :
    c.Reads d.context d.sites f.heads c' := by
  obtain ⟨-, ms, hms, rfl⟩ := gives_load.1 h
  have hreads := reads_of_gives_loadMessages hms
  exact ⟨hreads.entries, hreads.keeps, hreads.messages⟩

/-- A file that is loaded in its turn, after the files before it. -/
def LoadedIn (files : List FileDescriptor) (d : FileDescriptor) (f : File) : Prop :=
  ∃ before after c c', files = before ++ d :: after ∧ (loadFiles before).Gives {} () c ∧
    d.load.Gives c f c'

theorem LoadedIn.append (h : d.LoadedIn files f) (more : List FileDescriptor) :
    d.LoadedIn (files ++ more) f := by
  obtain ⟨before, after, c, c', rfl, hbefore, hload⟩ := h
  exact ⟨before, after ++ more, c, c', by simp, hbefore, hload⟩

theorem LoadedIn.mem (h : d.LoadedIn files f) : d ∈ files := by
  obtain ⟨before, after, c, c', rfl, -, -⟩ := h
  exact List.mem_append_right _ List.mem_cons_self

end FileDescriptor

/-- Of the files with a name there is a last one. -/
theorem exists_last_of_mem {files : List FileDescriptor} {t : Verbatim}
    (h : t ∈ files.map (·.name)) :
    ∃ (before : List FileDescriptor) (d : FileDescriptor) (after : List FileDescriptor),
      files = before ++ d :: after ∧ d.name = t ∧ t ∉ after.map (·.name) := by
  induction files with
  | nil => cases h
  | cons d rest ih =>
    by_cases hrest : t ∈ rest.map (·.name)
    · obtain ⟨before, last, after, rfl, hname, hlast⟩ := ih hrest
      exact ⟨d :: before, last, after, rfl, hname, hlast⟩
    · rw [List.map_cons, List.mem_cons] at h
      exact ⟨[], d, rest, rfl, (h.resolve_right hrest).symm, hrest⟩

/-- A loaded file is that of the last descriptor with its name, loaded in its
turn. -/
theorem Loads.exists_turn {files : List FileDescriptor} {loaded : Dictionary Verbatim File}
    {t : Verbatim} {f : File} (h : Loads files loaded) (hget : loaded.get? t = some f) :
    ∃ (before : List FileDescriptor) (d : FileDescriptor) (after : List FileDescriptor)
      (c c' : Catalog), files = before ++ d :: after ∧ d.name = t ∧ t ∉ after.map (·.name) ∧
        (loadFiles before).Gives {} () c ∧ d.load.Gives c f c' := by
  have hmem : t ∈ files.map (·.name) := by
    by_contra hunknown
    rw [(get?_eq_none_of_loads h).2 hunknown] at hget
    cases hget
  obtain ⟨before, d, after, rfl, rfl, hlast⟩ := exists_last_of_mem hmem
  obtain ⟨c, f', c', hbefore, hload, hget'⟩ := h.file hlast
  rw [hget', Option.some.injEq] at hget
  exact ⟨before, d, after, c, c', rfl, rfl, hlast, hbefore, hget ▸ hload⟩

/-- Map entries, each of them a message of a loaded file and known by its full
name. -/
def KnownIn (files : List FileDescriptor) (entries : Dictionary String Message) : Prop :=
  ∀ name entry, entries.get? name = some entry → ∃ d f, FileDescriptor.LoadedIn files d f ∧
    entry.head ∈ f.heads ∧ entry.head.isMapEntry = true ∧ entry.head.fullName = name

theorem KnownIn.append {files : List FileDescriptor} {entries : Dictionary String Message}
    (h : KnownIn files entries) (more : List FileDescriptor) : KnownIn (files ++ more) entries := by
  intro name entry hentry
  obtain ⟨d, f, hload, hmem⟩ := h name entry hentry
  exact ⟨d, f, hload.append more, hmem⟩

theorem KnownIn.of_entriesFrom {files : List FileDescriptor} {d : FileDescriptor} {f : File}
    {older entries : Dictionary String Message} (h : KnownIn files older)
    (hload : d.LoadedIn files f) (hfrom : EntriesFrom older f.heads entries) :
    KnownIn files entries := by
  intro name entry hentry
  rcases hfrom name entry hentry with hentry | hmem
  · exact h name entry hentry
  · exact ⟨d, f, hload, hmem⟩

theorem knownIn_of_gives_loadFiles {files : List FileDescriptor}
    (h : (loadFiles files).Gives {} () c) : KnownIn files c.entries := by
  induction files using List.reverseRecOn generalizing c with
  | nil =>
    rw [gives_loadFiles_nil.1 h]
    intro name entry hentry
    cases hentry
  | append_singleton files d ih =>
    obtain ⟨c₁, hfiles, hlast⟩ := gives_loadFiles_append.1 h
    obtain ⟨f, c₂, hload, hnil⟩ := gives_loadFiles_cons.1 hlast
    have hentries : c.entries = c₂.entries := by
      rw [gives_loadFiles_nil.1 hnil]
    rw [hentries]
    exact ((ih hfiles).append [d]).of_entriesFrom ⟨files, [], c₁, c₂, rfl, hfiles, hload⟩
      (FileDescriptor.reads_of_gives_load hload).entries

/-- **The messages of a loaded file are read off its descriptor**, while
nothing but loaded messages is known. -/
theorem FileDescriptor.LoadedIn.messages {files : List FileDescriptor} {d : FileDescriptor}
    {f : File} (h : d.LoadedIn files f) :
    List.Forall₂ (fun s m => ∃ entries, KnownIn files entries ∧ s.ReadTo d.context entries m)
      d.sites f.heads := by
  obtain ⟨before, after, c, c', rfl, hbefore, hload⟩ := id h
  have hknown : KnownIn (before ++ d :: after) c.entries :=
    (knownIn_of_gives_loadFiles hbefore).append _
  refine (reads_of_gives_load hload).messages.imp fun s m hread => ?_
  obtain ⟨entries, hfrom, hread⟩ := hread
  exact ⟨entries, hknown.of_entriesFrom h hfrom, hread⟩

end OdinSchema
