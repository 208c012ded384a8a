import OdinSchema.Proofs.References
import OdinSchema.Proofs.StructBody

/-!
# Types that are referred to are written

The text of a file declares its messages and enums at every depth, map
entries and what is nested in them left out. By the rule for maps nothing is
nested in a map entry, so the types a file declares are written except for its
map entries (`FileDescriptor.writes_of_gives_load`), and to those no loaded
field refers. Names are flattened the same way where a type is declared and
where it is referred to, so a reference from a file of the same package is
spelled as the declaration is.
-/

namespace OdinSchema

variable {c c' : Catalog} {scope : Scope}

/-! ## Map entries nest nothing -/

/-- A message in which, if it is a map entry, no type is nested. -/
def Site.IsBare (s : Site) : Prop :=
  s.head.isMapEntry = true → s.nested = [] ∧ s.head.enums = []

instance (s : Site) : Decidable s.IsBare :=
  inferInstanceAs (Decidable (s.head.isMapEntry = true → s.nested = [] ∧ s.head.enums = []))

/-- Files in whose map entries no type is nested. -/
def BareEntries (files : List FileDescriptor) : Prop :=
  ∀ d ∈ files, ∀ s ∈ d.sites, s.IsBare

instance (files : List FileDescriptor) : Decidable (BareEntries files) :=
  inferInstanceAs (Decidable (∀ d ∈ files, ∀ s ∈ d.sites, s.IsBare))

/-- So a map entry is all there is at its place. -/
theorem MessageDescriptor.isMapEntry_of_mem_sites {outer : List Verbatim} {d : MessageDescriptor}
    (hbare : ∀ s ∈ d.sites outer, s.IsBare) (hentry : d.head.isMapEntry = true) :
    ∀ s ∈ d.sites outer, s.head.isMapEntry = true := by
  obtain ⟨head, nested⟩ := d
  rw [sites, List.forall_mem_cons] at hbare ⊢
  obtain ⟨hnested, -⟩ := hbare.1 hentry
  have hnone : nested = [] := hnested
  rw [hnone]
  exact ⟨hentry, fun s hs => absurd hs List.not_mem_nil⟩

/-! ## The messages that are written -/

/-- A message that declares the types of a descriptor: itself and its
enums. -/
def MessageHead.StandsFor (m : MessageHead) (s : Site) : Prop :=
  m.fullName = s.fullName ∧ m.enums = s.head.enums.map (·.toEnum s.segments)

/-- **Every message that is no map entry is written**, at every depth. -/
theorem MessageDescriptor.emitted_of_gives_load {context : FileContext}
    {segments : List Verbatim} {path : List Int} {d : MessageDescriptor} {m : Message}
    (h : (d.load context segments path).Gives c m c')
    (hbare : ∀ s ∈ d.sites segments, s.IsBare) :
    ∀ s ∈ d.sites segments, s.head.isMapEntry = false → ∃ n ∈ m.emitted, n.StandsFor s := by
  refine ((gives_induction (P := fun segments _ d _ m _ =>
      m.head.isMapEntry = d.head.isMapEntry ∧ ((∀ s ∈ d.sites segments, s.IsBare) →
        ∀ s ∈ d.sites segments, s.head.isMapEntry = false → ∃ n ∈ m.emitted, n.StandsFor s))
    (Q := fun segments _ _ ds _ ms _ => (∀ s ∈ sitesOf segments ds, s.IsBare) →
      ∀ s ∈ sitesOf segments ds, s.head.isMapEntry = false →
        ∃ n ∈ Message.emittedNested ms, n.StandsFor s) ⟨?_, ?_, ?_⟩).1 h).2 hbare
  · intro segments path head nested c ms c₁ m c' hnested hcloses
    have hemitted : m.emitted = m.head :: Message.emittedNested ms := by
      rw [hcloses.message_eq]
      rfl
    refine ⟨?_, fun hbare s hs hentry => ?_⟩
    · rw [hcloses.message_eq]
      rfl
    rw [sites, List.forall_mem_cons] at hbare
    rw [sites, List.mem_cons] at hs
    rw [hemitted]
    rcases hs with rfl | hs
    · refine ⟨m.head, List.mem_cons_self, ?_⟩
      rw [hcloses.message_eq]
      exact ⟨rfl, rfl⟩
    · obtain ⟨n, hn, hstands⟩ := hnested hbare.2 s hs hentry
      exact ⟨n, List.mem_cons_of_mem _ hn, hstands⟩
  · intro segments path start c hbare s hs
    exact absurd hs List.not_mem_nil
  · intro segments path start d rest c m c₁ ms c' hd hrest hbare s hs hentry
    rw [sitesOf, List.forall_mem_append] at hbare
    rw [sitesOf, List.mem_append] at hs
    rw [Message.emittedNested]
    rcases hs with hs | hs
    · -- a map entry would be left out, but it has no site of another kind
      have hkept : m.head.isMapEntry = false := by
        rw [hd.1, Bool.eq_false_iff]
        intro hmap
        rw [isMapEntry_of_mem_sites hbare.1 hmap s hs] at hentry
        cases hentry
      obtain ⟨n, hn, hstands⟩ := hd.2 hbare.1 s hs hentry
      refine ⟨n, List.mem_append_left _ ?_, hstands⟩
      rw [hkept]
      exact hn
    · obtain ⟨n, hn, hstands⟩ := hrest hbare.2 s hs hentry
      exact ⟨n, List.mem_append_right _ hn, hstands⟩

theorem emitted_of_gives_loadMessages {context : FileContext} {segments : List Verbatim}
    {start : Nat} {ds : List MessageDescriptor} {ms : List Message}
    (h : (loadMessages context segments start ds).Gives c ms c')
    (hbare : ∀ s ∈ MessageDescriptor.sitesOf segments ds, s.IsBare) :
    ∀ s ∈ MessageDescriptor.sitesOf segments ds, s.head.isMapEntry = false →
      ∃ n ∈ ms.flatMap Message.emitted, n.StandsFor s := by
  induction ds generalizing c start ms with
  | nil => exact fun s hs => absurd hs List.not_mem_nil
  | cons d rest ih =>
    obtain ⟨m, c₁, ms', hm, hrest, rfl⟩ := gives_loadMessages_cons.1 h
    rw [MessageDescriptor.sitesOf, List.forall_mem_append] at hbare
    intro s hs hentry
    rw [MessageDescriptor.sitesOf, List.mem_append] at hs
    rw [List.flatMap_cons]
    rcases hs with hs | hs
    · obtain ⟨n, hn, hstands⟩ := MessageDescriptor.emitted_of_gives_load hm hbare.1 s hs hentry
      exact ⟨n, List.mem_append_left _ hn, hstands⟩
    · obtain ⟨n, hn, hstands⟩ := ih hrest hbare.2 s hs hentry
      exact ⟨n, List.mem_append_right _ hn, hstands⟩

/-- A type that the text of a file declares: a message that is written, an
enum of one, or an enum of the file. -/
def File.Writes (f : File) (name : String) : Prop :=
  (∃ m ∈ f.emitted, m.fullName = name ∨ ∃ e ∈ m.enums, e.fullName = name) ∨
    ∃ e ∈ f.enums, e.fullName = name

/-- **A file writes the types it declares**, except for its map entries. -/
theorem FileDescriptor.writes_of_gives_load {d : FileDescriptor} {f : File}
    (h : d.load.Gives c f c') (hbare : ∀ s ∈ d.sites, s.IsBare) {name : String}
    (hname : name ∈ d.typeNames) (hentry : ¬ IsEntryName d.sites name) : f.Writes name := by
  obtain ⟨-, ms, hms, rfl⟩ := gives_load.1 h
  rw [typeNames, List.mem_append] at hname
  rcases hname with henum | hsite
  · obtain ⟨e, he, rfl⟩ := List.mem_map.1 henum
    exact .inr ⟨e.toEnum [d.package], List.mem_map_of_mem he, rfl⟩
  · obtain ⟨s, hs, hname⟩ := List.mem_flatMap.1 hsite
    -- a map entry has no other name than its own, which is not this one
    have hkind : s.head.isMapEntry = false := by
      rw [Bool.eq_false_iff]
      intro hmap
      rw [Site.typeNames, (hbare s hs hmap).2, List.map_nil, List.mem_singleton] at hname
      exact hentry ⟨s, hs, hmap, hname.symm⟩
    obtain ⟨n, hn, hfullName, henums⟩ := emitted_of_gives_loadMessages hms hbare s hs hkind
    refine .inl ⟨n, hn, ?_⟩
    rcases List.mem_cons.1 hname with hown | henum
    · exact .inl (hfullName.trans hown.symm)
    · obtain ⟨e, he, rfl⟩ := List.mem_map.1 henum
      refine .inr ⟨e.toEnum s.segments, ?_, rfl⟩
      rw [henums]
      exact List.mem_map_of_mem he

/-! ## Their lines -/

/-- The steps of the declarations that a message makes: its struct and its
enums. -/
def MessageHead.blocks (scope : Scope) (m : MessageHead) : List (List Step) :=
  m.structSteps scope :: m.enums.map (·.steps scope)

namespace Message

mutual

/-- The declarations of a message stand together in what is written of the
message it is nested in. -/
theorem infix_steps : ∀ m : Message, m.head.isMapEntry = false →
    ∀ n ∈ m.emitted, ∀ block ∈ n.blocks scope, block <:+: m.steps scope
  | mk head nested, hentry, n, hn, block, hblock => by
    have hhead : head.isMapEntry = false := hentry
    rw [steps, hhead, if_neg Bool.false_ne_true]
    rw [emitted, List.mem_cons] at hn
    rcases hn with rfl | hn
    · rw [MessageHead.blocks, List.mem_cons] at hblock
      rcases hblock with rfl | hblock
      · rw [List.append_assoc]
        exact (List.prefix_append _ _).isInfix
      · have henums := List.infix_of_mem_flatten hblock
        rw [← List.flatMap_def] at henums
        exact henums.trans (List.suffix_append _ _).isInfix
    · have hinner := infix_nestedSteps nested n hn block hblock
      exact hinner.trans (List.infix_append _ _ _)

theorem infix_nestedSteps : ∀ ms : List Message, ∀ n ∈ emittedNested ms,
    ∀ block ∈ n.blocks scope, block <:+: nestedSteps scope ms
  | [], n, hn, _, _ => absurd hn List.not_mem_nil
  | m :: rest, n, hn, block, hblock => by
    rw [emittedNested, List.mem_append] at hn
    rw [nestedSteps]
    rcases hn with hn | hn
    · cases hentry : m.head.isMapEntry with
      | true =>
        rw [hentry] at hn
        cases hn
      | false =>
        rw [hentry] at hn
        exact (infix_steps m hentry n hn block hblock).trans (List.prefix_append _ _).isInfix
    · exact (infix_nestedSteps rest n hn block hblock).trans (List.suffix_append _ _).isInfix

end

end Message

/-- A line that is indented. -/
def Indented (line : String) : Prop :=
  ∃ rest, line = "  " ++ rest

theorem Indented.append {line : String} (h : Indented line) (text : String) :
    Indented (line ++ text) := by
  obtain ⟨rest, rfl⟩ := h
  exact ⟨rest ++ text, String.append_assoc⟩

/-- Lines that declare a type under a name: a block that is opened as a
struct or an enum of that name, and closed by the next line that is neither
empty nor indented. -/
def Declares (lines : List String) (name : String) : Prop :=
  ∃ keyword body, (keyword = "struct" ∨ keyword = "enum") ∧
    (∀ line ∈ body, line = "" ∨ Indented line) ∧
    ["", name ++ " :: " ++ keyword ++ " \x7b"] ++ body ++ ["\x7d"] <:+: lines

theorem Declares.mono {lines lines' : List String} {name : String} (h : Declares lines name)
    (hpart : lines <:+: lines') : Declares lines' name := by
  obtain ⟨keyword, body, hkeyword, hbody, hblock⟩ := h
  exact ⟨keyword, body, hkeyword, hbody, hblock.trans hpart⟩

theorem indented_two : Indented "  " :=
  ⟨"", rfl⟩

theorem indented_four : Indented "    " :=
  ⟨"  ", rfl⟩

/-- The lines of an enum declare it. -/
theorem EnumType.declares_lines (e : EnumType) :
    Declares (e.lines scope) (scope.resolve e.fullName) := by
  refine ⟨"enum", e.values.map fun v => "  " ++ v.name.shown ++ " = " ++ toString v.number ++ ",",
    .inr rfl, ?_, ?_⟩
  · intro line hline
    obtain ⟨v, -, rfl⟩ := List.mem_map.1 hline
    exact .inr ((((indented_two.append _).append _).append _).append _)
  · rw [String.append_assoc, String.append_assoc]
    exact List.infix_rfl

/-- A oneof is written inside the block of its message. -/
theorem Oneof.WrittenAs.inner {o : Oneof} {lines : List String} (h : o.WrittenAs scope lines) :
    ∀ line ∈ lines, line = "" ∨ Indented line := by
  have hclosing : Indented "  \x7d," := ⟨"\x7d,", rfl⟩
  intro line hline
  cases h with
  | union hplan =>
    simp only [List.mem_append, List.mem_cons, List.mem_map, List.not_mem_nil, or_false] at hline
    rcases hline with ((rfl | rfl) | ⟨x, -, rfl⟩) | rfl
    · exact .inl rfl
    · exact .inr ((indented_two.append _).append _)
    · exact .inr ((indented_four.append _).append _)
    · exact .inr hclosing
  | rawUnion hplan =>
    simp only [List.mem_append, List.mem_cons, List.mem_map, List.not_mem_nil, or_false] at hline
    rcases hline with ((((rfl | rfl) | ⟨x, -, rfl⟩) | rfl | rfl) | ⟨x, -, rfl⟩) | rfl
    · exact .inl rfl
    · exact .inr ((indented_two.append _).append _)
    · exact .inr (indented_four.append _)
    · exact .inr hclosing
    · exact .inr ((indented_two.append _).append _)
    · exact .inr ((((indented_four.append _).append _).append _).append _)
    · exact .inr hclosing

/-- The lines of a struct declare it, if its oneofs have a shape. -/
theorem MessageHead.declares_structSteps {m : MessageHead} (h : m.Planned) :
    Declares (Step.lines (m.structSteps scope)) (scope.resolve m.fullName) := by
  refine ⟨"struct", m.plainFields.map (·.line scope 1) ++
    (m.oneofs.map fun o => Step.lines (o.steps scope 1)).flatten, .inl rfl, ?_, ?_⟩
  · rw [List.forall_mem_append]
    constructor
    · intro line hline
      obtain ⟨f, -, rfl⟩ := List.mem_map.1 hline
      exact .inr (indented_two.append _)
    · intro line hline
      obtain ⟨block, hblock, hline⟩ := List.mem_flatten.1 hline
      obtain ⟨o, ho, rfl⟩ := List.mem_map.1 hblock
      exact (Oneof.writtenAs_of_plan (h o ho)).inner line hline
  · rw [lines_structSteps, String.append_assoc, String.append_assoc, List.append_assoc,
      List.append_assoc, List.append_assoc, List.append_assoc]
    exact List.infix_rfl

/-- **The text of a file declares every type it writes**, under the name that
is resolved in its scope. -/
theorem File.declares_of_writes {f : File} {base text : String} {version : Version}
    (h : f.source base version = .ok text) :
    ∃ lines, text = joinLines lines ∧
      ∀ name, f.Writes name → Declares lines (f.scope.resolve name) := by
  obtain ⟨hdraft, rfl⟩ := source_eq_ok_iff.1 h
  obtain ⟨-, hentries, hplans, -⟩ := draft_eq_none_iff.1 hdraft
  obtain ⟨hlines, -⟩ := of_draft_eq_none hdraft
  refine ⟨_, rfl, ?_⟩
  rw [hlines]
  -- the blocks of a message that is written stand in the lines of the draft
  have hblocks : ∀ m ∈ f.emitted, ∀ block ∈ m.blocks f.scope,
      Step.lines block <:+: f.declarationLines base version := by
    intro m hm block hblock
    obtain ⟨top, htop, hm⟩ := List.mem_flatMap.1 hm
    have htopSteps : top.steps f.scope <:+: f.messageSteps := by
      rw [messageSteps, List.flatMap_def]
      exact List.infix_of_mem_flatten (List.mem_map_of_mem htop)
    have hsteps := (top.infix_steps (hentries top htop) m hm block hblock).trans htopSteps
    exact (hsteps.trans (List.suffix_append _ _).isInfix).filterMap _
  intro name hname
  rcases hname with ⟨m, hm, rfl | ⟨e, he, rfl⟩⟩ | ⟨e, he, rfl⟩
  · have hplanned : m.Planned := fun o ho => hplans o (List.mem_flatMap.2 ⟨m, hm, ho⟩)
    refine (MessageHead.declares_structSteps hplanned).mono ?_
    refine (hblocks m hm _ List.mem_cons_self).trans ?_
    rw [List.append_assoc]
    exact (List.prefix_append _ _).isInfix
  · have hlinesOf : Step.lines (e.steps f.scope) = e.lines f.scope := Step.lines_map_line _
    refine e.declares_lines.mono ?_
    rw [← hlinesOf]
    refine (hblocks m hm _ (List.mem_cons_of_mem _ (List.mem_map_of_mem he))).trans ?_
    rw [List.append_assoc]
    exact (List.prefix_append _ _).isInfix
  · refine e.declares_lines.mono ?_
    have hown : e.lines f.scope <:+: f.enumLines := by
      rw [enumLines, List.flatMap_def]
      exact List.infix_of_mem_flatten (List.mem_map_of_mem he)
    exact hown.trans (List.suffix_append _ _).isInfix

/-! ## References -/

namespace Message

mutual

/-- The messages that are written are messages of the file. -/
theorem emitted_subset_heads : ∀ m : Message, m.emitted ⊆ m.heads
  | mk head nested => by
    rw [emitted, heads]
    exact List.cons_subset_cons head (emittedNested_subset_headsOf nested)

theorem emittedNested_subset_headsOf : ∀ ms : List Message, emittedNested ms ⊆ headsOf ms
  | [] => List.Subset.refl _
  | m :: rest => by
    rw [emittedNested, headsOf]
    refine List.append_subset.2 ⟨?_, ?_⟩
    · split
      · exact List.nil_subset _
      · exact List.subset_append_of_subset_left _ (emitted_subset_heads m)
    · exact List.subset_append_of_subset_right _ (emittedNested_subset_headsOf rest)

end

end Message

theorem File.emitted_subset_heads (f : File) : f.emitted ⊆ f.heads := by
  unfold emitted heads
  induction f.messages with
  | nil => exact List.Subset.refl _
  | cons m rest ih =>
    rw [List.flatMap_cons, Message.headsOf]
    exact List.append_subset.2 ⟨List.subset_append_of_subset_left _ m.emitted_subset_heads,
      List.subset_append_of_subset_right _ ih⟩

/-- The scope of a file is that of its package. -/
theorem FileDescriptor.scope_of_gives_load {d : FileDescriptor} {f : File}
    (h : d.load.Gives c f c') : f.scope = .ofPackage (d.package.given?.bind Verbatim.text?) := by
  obtain ⟨-, ms, -, rfl⟩ := gives_load.1 h
  rfl

/-- A field of a kind with named types refers to the type it names. -/
theorem FieldHead.reference?_of_kind {f : FieldHead} {name : String}
    (hkind : f.kind = .message ∨ f.kind = .enum) (htype : f.typeName = some name)
    (hname : name ≠ "") : f.reference? = some name := by
  have hfilter : f.typeName.filter (· ≠ "") = some name := by
    rw [htype, Option.filter_some, if_pos (decide_eq_true hname)]
  rcases hkind with hkind | hkind
  · simp only [reference?, hkind, hfilter]
  · simp only [reference?, hkind, hfilter]

theorem DistinctNames.loads_file {files : List FileDescriptor} (h : DistinctNames files)
    {loaded : Dictionary Verbatim File} (hloads : Loads files loaded) {d : FileDescriptor}
    (hd : d ∈ files) : ∃ c f c', d.load.Gives c f c' ∧ loaded.get? d.name = some f := by
  obtain ⟨before, after, rfl⟩ := List.append_of_mem hd
  obtain ⟨c, f, c', -, hload, hget⟩ := hloads.file h.name_not_mem_after
  exact ⟨c, f, c', hload, hget⟩

/-- **No reference is left dangling.** In files that load, are told apart by
their names and the names of their types, and obey the rule for maps, take a
field of a message that is written, or the key or the value of its entry, and
so on. The type it names is declared by a file of the request and is no map
entry. If that file is of the same package and has a text, the text declares
the type, as a struct or an enum, under the name by which the field is
spelled. -/
theorem no_dangling_references {files : List FileDescriptor}
    {loaded : Dictionary Verbatim File} (hloads : Loads files loaded)
    (hdistinct : DistinctNames files) (hrule : ObeysMapRule files) (hbare : BareEntries files)
    {d : FileDescriptor} (hd : d ∈ files) :
    ∃ f, loaded.get? d.name = some f ∧
      ∀ m ∈ f.emitted, ∀ field ∈ m.fields, ∀ x ∈ field.parts, ∀ typeName : String,
        (x.head.kind = .message ∨ x.head.kind = .enum) → x.head.typeName = some typeName →
        typeName ≠ "" →
        ∃ e ∈ files, typeName ∈ e.typeNames ∧
          ¬ IsEntryName (files.flatMap (·.sites)) typeName ∧
          ∃ g, loaded.get? e.name = some g ∧ (e.package = d.package →
            ∀ base version text, g.source base version = .ok text →
              ∃ lines, text = joinLines lines ∧
                Declares lines (x.head.baseSpelling f.scope)) := by
  obtain ⟨c, f, c', hf, hget⟩ := hdistinct.loads_file hloads hd
  refine ⟨f, hget, fun m hm field hfield x hx typeName hkind htype hname => ?_⟩
  have hreference := FieldHead.reference?_of_kind hkind htype hname
  obtain ⟨⟨e, he, hdeclared⟩, hentry⟩ :=
    hloads.declared hrule hget (f.emitted_subset_heads hm) hfield hx hreference
  obtain ⟨c₁, g, c₁', hg, hgetg⟩ := hdistinct.loads_file hloads he
  have hwrites : g.Writes typeName := by
    refine FileDescriptor.writes_of_gives_load hg (hbare e he) hdeclared fun hown => ?_
    exact hentry (hown.mono fun s hs => List.mem_flatMap.2 ⟨e, he, hs⟩)
  refine ⟨e, he, hdeclared, hentry, g, hgetg, fun hpackage base version text htext => ?_⟩
  obtain ⟨lines, hlines, hdeclares⟩ := File.declares_of_writes htext
  refine ⟨lines, hlines, ?_⟩
  have hscope : f.scope = g.scope := by
    rw [FileDescriptor.scope_of_gives_load hf, FileDescriptor.scope_of_gives_load hg, hpackage]
  rw [FieldHead.baseSpelling, hreference, hscope]
  exact hdeclares typeName hwrites

/-- Two files of a package. A message of the first has a map whose values are
of a type that is nested in a message of the second. -/
def shelfFiles : List FileDescriptor :=
  [{ name := "shelf.proto"
     package := "store"
     messages := [.mk
       { name := "Shelf"
         fields := [{ name := "books", code := 11, label := .repeated,
                      typeName := ".store.Shelf.BooksEntry" }] }
       [.mk
         { name := "BooksEntry"
           mapEntry := some true
           fields := [
             { name := "key", code := 9 },
             { name := "value", number := 2, code := 11, typeName := ".store.Library.Book" }] }
         []]] },
   { name := "library.proto"
     package := "store"
     messages := [.mk { name := "Library" } [.mk { name := "Book" } []]] }]

/-- The type of the values is declared where it is expected. -/
theorem no_dangling_references_map_value : ∃ loaded f g text,
    Loads shelfFiles loaded ∧ loaded.get? "shelf.proto" = some f ∧
    loaded.get? "library.proto" = some g ∧ g.source "odin" {} = .ok text ∧
    (f.emitted.flatMap (·.fields)).map (·.spelling f.scope) = ["map[string]Library_Book"] ∧
    (∃ lines, text = joinLines lines ∧ Declares lines "Library_Book") ∧
    text = "\n".intercalate [
      "// Auto-generated by odin-protoc-plugin (https://github.com/lordhippo/odin-protoc-plugin)",
      "// protoc version: 0.0.0",
      "// Use with the runtime odin-protobuf library (https://github.com/lordhippo/odin-protobuf)",
      "",
      "package odin_store",
      "",
      "Library :: struct \x7b",
      "\x7d",
      "",
      "Library_Book :: struct \x7b",
      "\x7d",
      ""] := by
  obtain ⟨loaded, hloads⟩ : ∃ loaded, Loads shelfFiles loaded := ⟨_, rfl⟩
  have hdistinct : DistinctNames shelfFiles := by decide +kernel
  have hrule : ObeysMapRule shelfFiles := by decide +kernel
  have hbare : BareEntries shelfFiles := by decide +kernel
  obtain ⟨f, hf, hreferences⟩ :=
    no_dangling_references hloads hdistinct hrule hbare List.mem_cons_self
  have hvalue : (f.emitted.flatMap (·.fields)).map (·.spelling f.scope) =
        ["map[string]Library_Book"] ∧
      ∃ m ∈ f.emitted, ∃ field ∈ m.fields, ∃ x ∈ field.parts, x.head.kind = .message ∧
        x.head.typeName = some "store.Library.Book" ∧
        x.head.baseSpelling f.scope = "Library_Book" := by
    cases hloads
    cases hf
    decide +kernel
  obtain ⟨hspelling, m, hm, field, hfield, x, hx, hkind, htype, hbase⟩ := hvalue
  obtain ⟨e, he, hdeclared, -, g, hg, htexts⟩ :=
    hreferences m hm field hfield x hx _ (.inl hkind) htype (by decide)
  have hdeclaring : ∀ e ∈ shelfFiles, "store.Library.Book" ∈ e.typeNames →
      e.name = "library.proto" ∧ e.package = "store" := by
    decide +kernel
  obtain ⟨hname, hpackage⟩ := hdeclaring e he hdeclared
  rw [hname] at hg
  have hdraft : (g.draft "odin" {}).2 = none := by
    cases hloads
    cases hg
    decide +kernel
  have htext := File.source_eq_ok_iff.2 ⟨hdraft, rfl⟩
  obtain ⟨lines, hlines, hdeclares⟩ := htexts hpackage "odin" {} _ htext
  rw [hbase] at hdeclares
  refine ⟨loaded, f, g, _, hloads, hf, hg, htext, hspelling, ⟨lines, hlines, hdeclares⟩, ?_⟩
  cases hloads
  cases hg
  decide +kernel

end OdinSchema
