import OdinSchema.Proofs.LoadFaults
import OdinSchema.Proofs.LoadedMessages
import OdinSchema.Proofs.SourceReading

/-!
# Maps are recognised

A map is described as a repeated message field whose type is a map entry, and
is made a map when the field is read. Whether it is depends on what is known
at that moment, in a dictionary that is shared by all files: the entry has to
be loaded before, and nothing else may be known by its name. Both are due to
the order of loading and to the rule for maps, by which the entry is nested in
the message of the field. So a field is a map exactly if its type is a map
entry, and then it has the key and the value of that entry
(`FieldDescriptor.Recognised`). No entry is left that a field could be spelled
by, and none is declared, so what is written is spelled from the names of other
types (`File.SpelledFrom`).
-/

namespace OdinSchema

open Load

/-! ## Fields -/

/-- A field that is a map exactly if its type is a map entry, and then has the
first two fields of the loaded entry for its key and value. -/
structure FieldDescriptor.Recognised (sites : List Site) (heads : List MessageHead)
    (x : FieldDescriptor) (y : Field) : Prop where
  describes : x.Describes y
  map_iff : y.head.kind = .map ↔
    x.kind = .message ∧ ∃ name, x.fullTypeName? = some name ∧ IsEntryName sites name
  entry : y.head.kind = .map → x.code = TypeCode.message ∧
    ∃ entry ∈ heads, entry.isMapEntry = true ∧ x.fullTypeName? = some entry.fullName ∧
      ∃ key value rest, entry.fields = key :: value :: rest ∧ y.entry? = some (key, value) ∧
        ∀ scope, y.spelling scope =
          "map[" ++ key.spelling scope ++ "]" ++ value.spelling scope

theorem Field.spelling_of_entry {y key value : Field} (h : y.entry? = some (key, value))
    (scope : Scope) :
    y.spelling scope = "map[" ++ key.spelling scope ++ "]" ++ value.spelling scope := by
  cases y with
  | single head => cases h
  | map head k v =>
    cases h
    rfl

/-- **A field is recognised as it is read**, if the entries nested in its
message are known, and of older ones none has the name of its type. -/
theorem Site.RefersByRule.recognised {sites : List Site} {heads : List MessageHead} {s : Site}
    {older entries : Dictionary String Message} {x : FieldDescriptor} {y : Field}
    {dialect : Verbatim} {location : Option Location} {oneofs : List Verbatim}
    (hrule : s.RefersByRule sites) (hx : x ∈ s.head.fields)
    (hown : ∀ name ∈ s.entryNames, name ∈ entries.keys)
    (hfrom : EntriesFrom older heads entries)
    (holder : ∀ name ∈ x.fullTypeName?, older.get? name = none)
    (hheads : ∀ m ∈ heads, m.isMapEntry = true → IsEntryName sites m.fullName)
    (h : x.toField dialect location oneofs entries = .ok y) : x.Recognised sites heads y := by
  rcases FieldDescriptor.toField_cases h with
    ⟨hnone, hentry, hkind⟩ | ⟨entry, key, value, rest, hsome, hfields, hentry, hkind⟩
  · have hnomap : y.head.kind ≠ .map := hkind ▸ x.kind_ne_map
    refine ⟨FieldDescriptor.describes_of_toField h, ⟨fun hmap => absurd hmap hnomap, ?_⟩,
      fun hmap => absurd hmap hnomap⟩
    rintro ⟨-, name, hname, hentry⟩
    have hfound := hrule.entryMessage?_ne_none (c := { entries }) hown hx hname hentry
    exact absurd hnone hfound
  · obtain ⟨⟨hmessage, -⟩, name, hname, hget⟩ := FieldDescriptor.entryMessage?_eq_some_iff.1 hsome
    have hknown : entry.head ∈ heads ∧ entry.head.isMapEntry = true ∧
        entry.head.fullName = name := by
      refine (hfrom name entry hget).resolve_left fun hget => ?_
      rw [holder name hname] at hget
      cases hget
    obtain ⟨hmem, hmap, rfl⟩ := hknown
    have hentryName := hheads entry.head hmem hmap
    refine ⟨FieldDescriptor.describes_of_toField h, iff_of_true hkind
      ⟨hmessage, _, hname, hentryName⟩, fun _ => ⟨(hrule x hx _ hname hentryName).2.2, ?_⟩⟩
    exact ⟨entry.head, hmem, hmap, hname, key, value, rest, hfields, hentry,
      y.spelling_of_entry hentry⟩

/-! ## Files -/

/-- **The maps of a file are recognised**, in all its messages. -/
theorem FileDescriptor.recognised_of_gives_load {before after : List FileDescriptor}
    {d : FileDescriptor} {f : File} {c c' : Catalog}
    (htypes : ((before ++ d :: after).flatMap (·.typeNames)).Nodup)
    (hrule : ObeysMapRule (before ++ d :: after)) (hbefore : (loadFiles before).Gives {} () c)
    (hload : d.load.Gives c f c') :
    List.Forall₂ (fun s m => (m.fullName = s.fullName ∧ m.isMapEntry = s.head.isMapEntry) ∧
      List.Forall₂ (FieldDescriptor.Recognised ((before ++ d :: after).flatMap (·.sites)) f.heads)
        s.head.fields m.fields) d.sites f.heads := by
  have hd : d ∈ before ++ d :: after := List.mem_append_right _ List.mem_cons_self
  have hmessages := (reads_of_gives_load hload).messages
  have hheads : ∀ m ∈ f.heads, m.isMapEntry = true →
      IsEntryName ((before ++ d :: after).flatMap (·.sites)) m.fullName := by
    intro m hm hmap
    obtain ⟨s, hs, entries, -, hread⟩ := exists_of_forall₂ hmessages hm
    exact ⟨s, List.mem_flatMap.2 ⟨d, hd, hs⟩, hread.isMapEntry ▸ hmap, hread.fullName.symm⟩
  have hnone := get?_eq_none_of_refers htypes hrule hbefore
  refine ((List.forall₂_and_left _ _).2 ⟨fun s hs => hs, hmessages⟩).imp fun s m hread => ?_
  obtain ⟨hs, entries, hfrom, hread⟩ := hread
  obtain ⟨path, hreads⟩ := hread.reads
  refine ⟨⟨hread.fullName, hread.isMapEntry⟩, ?_⟩
  refine ((List.forall₂_and_left _ _).2 ⟨fun x hx => hx, hreads.forall₂⟩).imp fun x y hfield => ?_
  obtain ⟨hx, location, hfield⟩ := hfield
  have hsite : s.RefersByRule ((before ++ d :: after).flatMap (·.sites)) := hrule.referred d hd s hs
  exact hsite.recognised hx hread.own hfrom (hnone s hs x hx) hheads hfield

/-! ## Names -/

/-- The full names of the enums of a file. -/
def FileDescriptor.enumNames (d : FileDescriptor) : List String :=
  d.enums.map (fun e => qualified [d.package, e.name]) ++
    d.sites.flatMap fun s => s.head.enums.map fun e => qualified (s.segments ++ [e.name])

/-- The types of files are their messages and their enums. -/
theorem perm_typeNames (files : List FileDescriptor) : (files.flatMap (·.typeNames)).Perm
    ((files.flatMap (·.sites)).map Site.fullName ++ files.flatMap (·.enumNames)) := by
  have hfile : ∀ d : FileDescriptor,
      d.typeNames.Perm (d.sites.map Site.fullName ++ d.enumNames) := by
    intro d
    have hsites := List.map_append_flatMap_perm d.sites Site.fullName
      fun s => s.head.enums.map fun e => qualified (s.segments ++ [e.name])
    refine (hsites.symm.append_left _).trans ?_
    rw [FileDescriptor.enumNames, ← List.append_assoc, ← List.append_assoc]
    exact List.perm_append_comm.append_right _
  rw [List.map_flatMap]
  exact (List.Perm.flatMap_left _ fun d _ => hfile d).trans
    (List.flatMap_append_perm files _ _).symm

section

variable {files : List FileDescriptor} (htypes : (files.flatMap (·.typeNames)).Nodup)

include htypes

/-- No enum has the name of a map entry. -/
theorem not_isEntryName_of_mem_enumNames {name : String}
    (h : name ∈ files.flatMap (·.enumNames)) :
    ¬ IsEntryName (files.flatMap (·.sites)) name := by
  rintro ⟨s, hs, -, rfl⟩
  have hdisjoint := (List.nodup_append.1 ((perm_typeNames files).nodup_iff.1 htypes)).2.2
  exact hdisjoint _ (List.mem_map_of_mem hs) _ h rfl

/-- No other message has the name of a map entry. -/
theorem not_isEntryName_of_mem_sites {s : Site} (hs : s ∈ files.flatMap (·.sites))
    (hentry : s.head.isMapEntry = false) :
    ¬ IsEntryName (files.flatMap (·.sites)) s.fullName := by
  rintro ⟨r, hr, hmap, hname⟩
  rw [distinctSites_of_nodup htypes r hr s hs hname, hentry] at hmap
  cases hmap

end

/-! ## Texts -/

/-- A declaration of a file that is spelled from the names of types with a
property: the type that is declared, and those that its fields, or the one
that an alias stands for, refer to. -/
inductive File.SpelledFrom (f : File) (p : String → Prop) : Decl → Prop where
  | struct {m : MessageHead} (hm : m ∈ f.emitted) (hname : p m.fullName)
      (hfields : ∀ y ∈ m.plainFields ++ m.oneofs.flatMap (·.members),
        ∀ part ∈ y.parts, ∀ type ∈ part.head.reference?, p type) :
      SpelledFrom f p (m.decl f.scope)
  | enum {e : EnumType} (he : e ∈ f.emitted.flatMap (·.enums) ++ f.enums)
      (hname : p e.fullName) : SpelledFrom f p (e.decl f.scope)
  | alias {m : MessageHead} {o : Oneof} {y : Field} {name : Verbatim} (hm : m ∈ f.emitted)
      (ho : o ∈ m.oneofs) (hy : y ∈ o.members) (hname : y.head.ownAlias? = some name)
      (htype : ∀ part ∈ y.parts, ∀ type ∈ part.head.reference?, p type) :
      SpelledFrom f p (.distinct name.shown (y.spelling f.scope))

namespace Message

mutual

/-- No map entry is written. -/
theorem isMapEntry_of_mem_emitted : ∀ m : Message, m.head.isMapEntry = false →
    ∀ head ∈ m.emitted, head.isMapEntry = false
  | mk head nested, h => by
    rw [emitted, List.forall_mem_cons]
    exact ⟨h, isMapEntry_of_mem_emittedNested nested⟩

theorem isMapEntry_of_mem_emittedNested : ∀ ms : List Message,
    ∀ head ∈ emittedNested ms, head.isMapEntry = false
  | [] => List.forall_mem_nil _
  | m :: rest => by
    rw [emittedNested, List.forall_mem_append]
    refine ⟨?_, isMapEntry_of_mem_emittedNested rest⟩
    cases hentry : m.head.isMapEntry with
    | true => exact List.forall_mem_nil _
    | false => exact isMapEntry_of_mem_emitted m hentry

end

end Message

/-- The members of a oneof are fields of its message. -/
theorem Site.ReadTo.mem_fields {context : FileContext} {entries : Dictionary String Message}
    {s : Site} {m : MessageHead} (h : s.ReadTo context entries m) {o : Oneof}
    (ho : o ∈ m.oneofs) {y : Field} (hy : y ∈ o.members) : y ∈ m.fields := by
  obtain ⟨path, hreads⟩ := h.reads
  have hloads : s.head.LoadsTo context path m := ⟨s.segments, entries, hreads, h.head_eq⟩
  obtain ⟨i, hi⟩ := List.mem_iff_getElem?.1 ho
  rw [(hloads.members_eq hi).1] at hy
  exact List.mem_of_mem_filter hy

/-- **What a file declares is spelled from types that are no map entries.** -/
theorem FileDescriptor.spelledFrom_of_gives_load {files : List FileDescriptor}
    {d : FileDescriptor} {f : File} {c c' : Catalog} (hd : d ∈ files)
    (hload : d.load.Gives c f c') (htypes : (files.flatMap (·.typeNames)).Nodup)
    (htop : ∀ m ∈ f.messages, m.head.isMapEntry = false)
    (hreferences : ∀ m ∈ f.heads, ∀ y ∈ m.fields, ∀ part ∈ y.parts,
      ∀ type ∈ part.head.reference?, ¬ IsEntryName (files.flatMap (·.sites)) type) :
    ∀ decl ∈ f.decls,
      f.SpelledFrom (fun type => ¬ IsEntryName (files.flatMap (·.sites)) type) decl := by
  have hread : ∀ m ∈ f.emitted, ∃ s ∈ d.sites, ∃ entries, s.ReadTo d.context entries m := by
    intro m hm
    obtain ⟨s, hs, entries, -, hread⟩ :=
      exists_of_forall₂ (reads_of_gives_load hload).messages (f.emitted_subset_heads hm)
    exact ⟨s, hs, entries, hread⟩
  refine File.forall_mem_decls (fun m hm => ?_) (fun e he => ?_) ?_
  · obtain ⟨s, hs, entries, hread⟩ := hread m hm
    refine .struct hm ?_ fun y hy => hreferences m (f.emitted_subset_heads hm) y ?_
    · have hentry : m.isMapEntry = false := by
        obtain ⟨top, htopMem, hm⟩ := List.mem_flatMap.1 hm
        exact top.isMapEntry_of_mem_emitted (htop top htopMem) m hm
      rw [hread.fullName]
      exact not_isEntryName_of_mem_sites htypes (List.mem_flatMap.2 ⟨d, hd, hs⟩)
        (hread.isMapEntry ▸ hentry)
    · rcases List.mem_append.1 hy with hplain | hmember
      · exact List.mem_of_mem_filter hplain
      · obtain ⟨o, ho, hy⟩ := List.mem_flatMap.1 hmember
        exact hread.mem_fields ho hy
  · refine .enum he (not_isEntryName_of_mem_enumNames htypes (List.mem_flatMap.2 ⟨d, hd, ?_⟩))
    rcases List.mem_append.1 he with hnested | hown
    · obtain ⟨m, hm, he⟩ := List.mem_flatMap.1 hnested
      obtain ⟨s, hs, entries, hread⟩ := hread m hm
      rw [hread.head_eq] at he
      obtain ⟨x, hx, rfl⟩ := List.mem_map.1 he
      exact List.mem_append_right _ (List.mem_flatMap.2 ⟨s, hs, List.mem_map_of_mem hx⟩)
    · obtain ⟨-, ms, -, rfl⟩ := gives_load.1 hload
      obtain ⟨x, hx, rfl⟩ := List.mem_map.1 hown
      exact List.mem_append_left _ (List.mem_map_of_mem hx)
  · intro m hm o ho y hy a ha
    obtain ⟨name, hname, rfl⟩ := Option.map_eq_some_iff.1 ha
    obtain ⟨s, -, entries, hread⟩ := hread m hm
    exact .alias hm ho hy hname
      (hreferences m (f.emitted_subset_heads hm) y (hread.mem_fields ho hy))

/-- **Maps are recognised exactly.** In a request that loads, with distinct
types and by the rule for maps, the messages of a loaded file stand beside
those of the last descriptor with its name. A field of theirs is a map exactly
if it is a message field and its type is a map entry of the request. Its key
and value are then the first two fields of the loaded entry, and it is spelled
as a map of their types. So the text of the file consists of declarations that
are spelled from the names of types that are no map entries. -/
theorem maps_recognised_exactly {files : List FileDescriptor}
    {loaded : Dictionary Verbatim File} {name : Verbatim} {f : File} (hloads : Loads files loaded)
    (htypes : (files.flatMap (·.typeNames)).Nodup) (hrule : ObeysMapRule files)
    (hf : loaded.get? name = some f) :
    ∃ (before : List FileDescriptor) (d : FileDescriptor) (after : List FileDescriptor),
      files = before ++ d :: after ∧ d.name = name ∧ name ∉ after.map (·.name) ∧
      List.Forall₂ (fun s m => (m.fullName = s.fullName ∧ m.isMapEntry = s.head.isMapEntry) ∧
        List.Forall₂ (FieldDescriptor.Recognised (files.flatMap (·.sites)) f.heads)
          s.head.fields m.fields) d.sites f.heads ∧
      ∀ base version text, f.source base version = .ok text →
        text = joinLines (f.preamble base version ++ f.decls.flatMap Decl.lines) ∧
        ∀ decl ∈ f.decls,
          f.SpelledFrom (fun type => ¬ IsEntryName (files.flatMap (·.sites)) type) decl := by
  obtain ⟨before, d, after, c, c', rfl, hname, hlast, hbefore, hload⟩ := hloads.exists_turn hf
  have hd : d ∈ before ++ d :: after := List.mem_append_right _ List.mem_cons_self
  refine ⟨before, d, after, rfl, hname, hlast,
    FileDescriptor.recognised_of_gives_load htypes hrule hbefore hload,
    fun base version text h => ?_⟩
  obtain ⟨-, htop, -⟩ := File.draft_eq_none_iff.1 (File.source_eq_ok_iff.1 h).1
  exact ⟨File.text_eq_decls h, FileDescriptor.spelledFrom_of_gives_load hd hload htypes htop
    fun m hm y hy part hpart type htype => (hloads.declared hrule hf hm hy hpart htype).2⟩

/-- Two files of one name. A message of the second has a map whose values are
maps, of which the inner entry is nested in the outer one, beside a repeated
field of a message type. -/
def nestedMapFiles : List FileDescriptor :=
  [{ name := "a.proto", messages := [.mk { name := "Other" } []] },
   { name := "a.proto"
     package := "p"
     messages := [.mk
       { name := "B"
         fields := [
           { name := "items", number := 1, code := 11, label := .repeated, typeName := ".p.B.E" },
           { name := "plain", number := 2, code := 11, label := .repeated, typeName := ".p.B" }] }
       [.mk
         { name := "E"
           mapEntry := some true
           fields := [
             { name := "key", number := 1, code := 9 },
             { name := "value", number := 2, code := 11, label := .repeated,
               typeName := ".p.B.E.F" }] }
         [.mk
           { name := "F"
             mapEntry := some true
             fields := [
               { name := "key", number := 1, code := 3 },
               { name := "value", number := 2, code := 11, typeName := ".p.B" }] }
           []]]] }]

/-- Both maps are recognised, and the text is spelled without their entries. -/
theorem maps_recognised_exactly_nested : ∃ loaded f text, Loads nestedMapFiles loaded ∧
    (nestedMapFiles.flatMap (·.typeNames)).Nodup ∧ ObeysMapRule nestedMapFiles ∧
    loaded.get? (.text "a.proto") = some f ∧
    (f.heads.flatMap (·.fields)).map (fun y => (y.head.kind, y.spelling f.scope)) =
      [(.map, "map[string]map[i64]B"), (.message, "[]B"), (.scalar, "string"),
        (.map, "map[i64]B"), (.scalar, "i64"), (.message, "B")] ∧
    f.source "odin" {} = .ok text ∧
    text = joinLines (f.preamble "odin" {} ++ f.decls.flatMap Decl.lines) ∧
    ∀ decl ∈ f.decls,
      f.SpelledFrom (fun type => ¬ IsEntryName (nestedMapFiles.flatMap (·.sites)) type) decl := by
  have htypes : (nestedMapFiles.flatMap (·.typeNames)).Nodup := by decide +kernel
  have hrule : ObeysMapRule nestedMapFiles := by decide +kernel
  obtain ⟨loaded, f, hloads, hget, hspellings, hdraft⟩ :
      ∃ loaded f, Loads nestedMapFiles loaded ∧ loaded.get? (.text "a.proto") = some f ∧
        (f.heads.flatMap (·.fields)).map (fun y => (y.head.kind, y.spelling f.scope)) =
          [(.map, "map[string]map[i64]B"), (.message, "[]B"), (.scalar, "string"),
            (.map, "map[i64]B"), (.scalar, "i64"), (.message, "B")] ∧
        (f.draft "odin" {}).2 = none :=
    exists_loaded_of_any (by decide +kernel)
  have htext := File.source_eq_ok_iff.2 ⟨hdraft, rfl⟩
  obtain ⟨-, -, -, -, -, -, -, hsource⟩ := maps_recognised_exactly hloads htypes hrule hget
  obtain ⟨hlines, hspelled⟩ := hsource "odin" {} _ htext
  exact ⟨loaded, f, _, hloads, htypes, hrule, hget, hspellings, htext, hlines, hspelled⟩

end OdinSchema
