import OdinSchema.Proofs.SourceReading

/-!
# The names that a text declares

Structs and enums are named for the types of a file, in the order of a walk
through its messages, and aliases for the overrides that the walk comes
across. The table of aliases keeps its aliases apart from each other, and
from nothing else. So a text in which types have distinct identifiers
declares every name once unless an alias is the identifier of a type
(`declared_names_distinct_iff`). There is one more way for bytes: the table
compares what is given, the text shows it, and bytes that are no text can
look like one.
-/

namespace OdinSchema

/-- The name that a declaration declares. -/
def Decl.name : Decl → String
  | struct name _ _ => name
  | enum name _ => name
  | distinct name _ => name

/-- The names of the types a message declares, what is nested in it left out:
its own, and those of its enums. -/
def MessageHead.typeNames (m : MessageHead) : List String :=
  m.fullName :: m.enums.map (·.fullName)

/-- The names of the types that the text of a file declares. -/
def File.writtenTypes (f : File) : List String :=
  f.emitted.flatMap (·.typeNames) ++ f.enums.map (·.fullName)

theorem File.mem_writtenTypes {f : File} {name : String} :
    name ∈ f.writtenTypes ↔ f.Writes name := by
  simp [writtenTypes, Writes, MessageHead.typeNames, eq_comm]

/-! ## The names of declarations -/

variable {scope : Scope}

theorem EnumType.map_name_decl (enums : List EnumType) :
    (enums.map (·.decl scope)).map Decl.name = (enums.map (·.fullName)).map scope.resolve := by
  rw [List.map_map, List.map_map]
  rfl

namespace Message

mutual

/-- **The declarations of a message are named for its types.** Those of its
own enums come last, after what is nested in it. -/
theorem map_name_decls : ∀ m : Message,
    ((m.decls scope).map Decl.name).Perm
      ((m.emitted.flatMap (·.typeNames)).map scope.resolve)
  | mk head nested => by
    rw [decls, emitted, List.flatMap_cons, MessageHead.typeNames, List.cons_append,
      List.map_cons, List.map_cons, List.map_append, List.map_append, EnumType.map_name_decl]
    refine List.Perm.cons _ (List.perm_append_comm.trans ?_)
    exact (map_name_nestedDecls nested).append_left _

theorem map_name_nestedDecls : ∀ ms : List Message,
    ((nestedDecls scope ms).map Decl.name).Perm
      (((emittedNested ms).flatMap (·.typeNames)).map scope.resolve)
  | [] => .refl _
  | m :: rest => by
    rw [nestedDecls, emittedNested, List.flatMap_append, List.map_append, List.map_append]
    refine List.Perm.append ?_ (map_name_nestedDecls rest)
    cases m.head.isMapEntry with
    | true => exact .refl _
    | false => exact map_name_decls m

end

end Message

namespace File

variable {f : File}

/-- **The declarations of a file are named for its types and its aliases.** -/
theorem map_name_decls (f : File) : (f.decls.map Decl.name).Perm
    (f.writtenTypes.map f.scope.resolve ++ f.aliases.map (·.1.shown)) := by
  have haliases : (f.aliases.map fun a => Decl.distinct a.1.shown a.2).map Decl.name =
      f.aliases.map (·.1.shown) := by
    rw [List.map_map]
    rfl
  have hmessages : ((f.messages.flatMap (·.decls f.scope)).map Decl.name).Perm
      ((f.emitted.flatMap (·.typeNames)).map f.scope.resolve) := by
    rw [emitted, List.flatMap_assoc, List.map_flatMap, List.map_flatMap]
    exact List.Perm.flatMap_left _ fun m _ => m.map_name_decls
  rw [decls, writtenTypes, List.map_append, List.map_append, List.map_append, haliases,
    EnumType.map_name_decl, List.append_assoc, List.append_assoc]
  exact hmessages.append List.perm_append_comm

/-- The aliases of a text are the entries of a table, so none is there
twice. -/
theorem nodup_aliases {base text : String} {version : Version}
    (h : f.source base version = .ok text) : (f.aliases.map Prod.fst).Nodup := by
  obtain ⟨-, -, -, hconsistent⟩ := draft_eq_none_iff.1 (source_eq_ok_iff.1 h).1
  rw [aliases, ← AliasTable.entries_bindAll hconsistent]
  exact Dictionary.nodup_keys _

end File

/-- **When the names that a text declares are distinct.** Let the types that
are written have distinct identifiers. Then the text, which is made up of
the lines of declarations and can be read as these where names are
identifiers, declares no name twice exactly if no alias is the identifier of
a type that is written and no two aliases look alike. -/
theorem declared_names_distinct_iff {f : File} {base text : String} {version : Version}
    (hnames : (f.writtenTypes.map f.scope.resolve).Nodup)
    (hsource : f.source base version = .ok text) :
    text = joinLines (f.preamble base version ++ f.decls.flatMap Decl.lines) ∧
    (f.WellNamed → isIdentifier base.toList = true → (readSource text).2 = f.decls) ∧
    ((f.decls.map Decl.name).Nodup ↔
      (∀ a ∈ f.aliases, ∀ name, f.Writes name → a.1.shown ≠ f.scope.resolve name) ∧
      ∀ a ∈ f.aliases, ∀ b ∈ f.aliases, a.1.shown = b.1.shown → a.1 = b.1) := by
  refine ⟨File.text_eq_decls hsource, ?_, ?_⟩
  · intro hwell hbase
    rw [hwell.readSource_eq hbase hsource]
  have hkeys := File.nodup_aliases hsource
  have hshown : (f.aliases.map (·.1.shown)).Nodup ↔
      ∀ a ∈ f.aliases, ∀ b ∈ f.aliases, a.1.shown = b.1.shown → a.1 = b.1 := by
    rw [List.nodup_map_iff_inj_on hkeys.of_map]
    refine forall₄_congr fun a ha b hb => imp_congr_right fun _ => ?_
    exact ⟨congrArg Prod.fst, fun h => List.inj_on_of_nodup_map hkeys ha hb h⟩
  rw [f.map_name_decls.nodup_iff, List.nodup_append, hshown]
  constructor
  · rintro ⟨-, hlook, happart⟩
    refine ⟨fun a ha name hwrites heq => ?_, hlook⟩
    exact happart _ (List.mem_map_of_mem (File.mem_writtenTypes.2 hwrites)) _
      (List.mem_map_of_mem ha) heq.symm
  · rintro ⟨happart, hlook⟩
    refine ⟨hnames, hlook, ?_⟩
    rintro _ htype _ halias rfl
    obtain ⟨name, hname, hresolve⟩ := List.mem_map.1 htype
    obtain ⟨a, ha, hshows⟩ := List.mem_map.1 halias
    exact happart a ha name (File.mem_writtenTypes.1 hname) (hshows.trans hresolve.symm)

/-- A message `Id`, and one with a variant that has the given alias. -/
def aliasedFiles (name : Verbatim) : List FileDescriptor :=
  [{ name := "a.proto"
     package := "p"
     messages := [
       .mk { name := "Id" } [],
       .mk
         { name := "Bar"
           oneofs := ["choice"]
           fields := [
             { name := "a", number := 1, code := 5, oneofIndex := some 0,
               odin := [Override.payload [(.typedef, name)]] },
             { name := "b", number := 2, code := 9, oneofIndex := some 0 }] }
         []] }]

/-- An alias with a name of its own is declared beside the types. -/
theorem declared_names_distinct_iff_own_alias : ∃ loaded f text,
    Loads (aliasedFiles "Key") loaded ∧ loaded.get? "a.proto" = some f ∧
    (f.writtenTypes.map f.scope.resolve).Nodup ∧ f.source "odin" {} = .ok text ∧
    (readSource text).2.map Decl.name = ["Id", "Bar", "Key"] ∧
    ∀ a ∈ f.aliases, ∀ name, f.Writes name → a.1.shown ≠ f.scope.resolve name := by
  obtain ⟨loaded, f, hloads, hf, hwell, hnames, hdraft, hdecls⟩ :
      ∃ loaded f, Loads (aliasedFiles "Key") loaded ∧ loaded.get? "a.proto" = some f ∧
        f.WellNamed ∧ (f.writtenTypes.map f.scope.resolve).Nodup ∧
        (f.draft "odin" {}).2 = none ∧ f.decls.map Decl.name = ["Id", "Bar", "Key"] :=
    exists_loaded_of_any (by decide +kernel)
  have htext := File.source_eq_ok_iff.2 ⟨hdraft, rfl⟩
  obtain ⟨-, hread, hiff⟩ := declared_names_distinct_iff hnames htext
  have happart := (hiff.1 (hdecls ▸ by decide)).1
  exact ⟨loaded, f, _, hloads, hf, hnames, htext, (hread hwell (by decide)) ▸ hdecls, happart⟩

/-- **An alias may be named as a message.** The text then declares the name
as a struct and again as a distinct type. -/
theorem declared_names_repeat_alias : ∃ loaded f text,
    Loads (aliasedFiles "Id") loaded ∧ loaded.get? "a.proto" = some f ∧
    (f.writtenTypes.map f.scope.resolve).Nodup ∧ f.source "odin" {} = .ok text ∧
    (readSource text).2.map Decl.name = ["Id", "Bar", "Id"] ∧
    ¬ (f.decls.map Decl.name).Nodup := by
  obtain ⟨loaded, f, hloads, hf, hwell, hnames, hdraft, hdecls⟩ :
      ∃ loaded f, Loads (aliasedFiles "Id") loaded ∧ loaded.get? "a.proto" = some f ∧
        f.WellNamed ∧ (f.writtenTypes.map f.scope.resolve).Nodup ∧
        (f.draft "odin" {}).2 = none ∧ f.decls.map Decl.name = ["Id", "Bar", "Id"] :=
    exists_loaded_of_any (by decide +kernel)
  have htext := File.source_eq_ok_iff.2 ⟨hdraft, rfl⟩
  have hread := hwell.readSource_eq (by decide) htext
  refine ⟨loaded, f, _, hloads, hf, hnames, htext, ?_, hdecls ▸ by decide⟩
  rw [hread]
  exact hdecls

end OdinSchema
