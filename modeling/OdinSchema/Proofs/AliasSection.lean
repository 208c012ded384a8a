import OdinSchema.Proofs.Drafting
import OdinSchema.Source

/-!
# Which files have a text, and its aliases

The aliases of a file are bound while its messages are written, and a
message far down can meet a binding made by the first. `File.emitted`
lists the messages that are written, in the order they are, and
`File.variants` the members of their tagged unions. In these words a file
has a text exactly if no message at its top is a map entry, every oneof has
a shape, and variants with the same alias have the same type; the aliases
of the text are then those of the variants, in the order of their first
use.
-/

namespace OdinSchema

/-! ## The messages that are written -/

mutual

/-- A message and, map entries left out, all that is nested in it. -/
def Message.emitted : Message → List MessageHead
  | .mk head nested => head :: Message.emittedNested nested

/-- The messages of a list that are no map entries, with all that is nested
in them. -/
def Message.emittedNested : List Message → List MessageHead
  | [] => []
  | message :: rest =>
    (if message.head.isMapEntry then [] else message.emitted) ++ Message.emittedNested rest

end

/-- The messages of a file that are written, in order. -/
def File.emitted (f : File) : List MessageHead :=
  f.messages.flatMap Message.emitted

/-- The oneofs of the messages that are written. -/
def File.oneofs (f : File) : List Oneof :=
  f.emitted.flatMap (·.oneofs)

/-- The variants of a oneof that becomes a tagged union. Any other has
none. -/
def Oneof.variants (o : Oneof) : List Field :=
  match o.plan with
  | .ok .tagged => o.members
  | _ => []

/-- The variants of all tagged unions of a file. -/
def File.variants (f : File) : List Field :=
  f.oneofs.flatMap Oneof.variants

/-- The alias of a variant with the type it has to stand for. -/
def Field.aliasUse? (scope : Scope) (f : Field) : Option (Verbatim × String) :=
  f.head.ownAlias?.map (·, f.spelling scope)

/-- The lines a file's text has in front of its aliases. -/
def File.declarationLines (base : String) (version : Version) (f : File) : List String :=
  Step.lines (f.preambleSteps base version ++ f.messageSteps)

/-! ## Their steps -/

variable {scope : Scope}

/-- A variant binds its alias to its type. -/
theorem Field.bindings_variantSteps (indent : String) (f : Field) :
    Step.bindings (f.variantSteps scope indent) = (f.aliasUse? scope).toList := by
  rw [variantSteps, aliasUse?]
  cases f.head.ownAlias? <;> rfl

theorem Field.unrefused_variantSteps (indent : String) (f : Field) :
    Step.Unrefused (f.variantSteps scope indent) := by
  rw [variantSteps]
  cases f.head.ownAlias? <;> simp [Step.refusal?]

/-- A oneof binds the aliases of its variants, and none if it becomes a raw
union. -/
theorem Oneof.bindings_steps (depth : Int) (o : Oneof) :
    Step.bindings (o.steps scope depth) = o.variants.filterMap (·.aliasUse? scope) := by
  rw [steps, variants]
  cases o.plan with
  | error refusal => rfl
  | ok plan =>
    cases plan with
    | tagged =>
      simp [Step.bindings_flatMap, Field.bindings_variantSteps, List.filterMap_eq_flatMap_toList]
    | raw type => simp

/-- A oneof is refused exactly if it has no shape. -/
theorem Oneof.unrefused_steps {depth : Int} {o : Oneof} :
    Step.Unrefused (o.steps scope depth) ↔ ∃ plan, o.plan = .ok plan := by
  rw [steps]
  cases o.plan with
  | error refusal => simp [Step.refusal?]
  | ok plan =>
    cases plan with
    | tagged => simp [Step.unrefused_flatMap, Field.unrefused_variantSteps, Step.refusal?]
    | raw type => simp [Step.refusal?]

/-- The aliases that messages ask for, with the types these have to stand
for. -/
def aliasUses (scope : Scope) (heads : List MessageHead) : List (Verbatim × String) :=
  ((heads.flatMap (·.oneofs)).flatMap Oneof.variants).filterMap (·.aliasUse? scope)

@[simp] theorem aliasUses_append (xs ys : List MessageHead) :
    aliasUses scope (xs ++ ys) = aliasUses scope xs ++ aliasUses scope ys := by
  simp [aliasUses]

theorem aliasUses_flatMap {α : Type} (xs : List α) (f : α → List MessageHead) :
    aliasUses scope (xs.flatMap f) = xs.flatMap fun x => aliasUses scope (f x) := by
  simp [aliasUses, List.flatMap_assoc, List.filterMap_flatMap]

theorem aliasUses_cons (head : MessageHead) (rest : List MessageHead) :
    aliasUses scope (head :: rest) = aliasUses scope [head] ++ aliasUses scope rest :=
  aliasUses_append [head] rest

/-- A message all of whose oneofs have a shape. -/
def MessageHead.Planned (head : MessageHead) : Prop :=
  ∀ o ∈ head.oneofs, ∃ plan, o.plan = .ok plan

namespace MessageHead

theorem structSteps_eq (head : MessageHead) : head.structSteps scope =
    [.line "", .line (scope.resolve head.fullName ++ " :: struct \x7b")] ++
      (head.plainFields.map (·.line scope 1)).map .line ++
      head.oneofs.flatMap (·.steps scope 1) ++ [.line "\x7d"] := by
  rw [structSteps, List.map_map]
  rfl

theorem bindings_structSteps (head : MessageHead) :
    Step.bindings (head.structSteps scope) = aliasUses scope [head] := by
  simp [-List.map_map, structSteps_eq, Step.bindings_flatMap, Oneof.bindings_steps, aliasUses,
    List.filterMap_flatMap]

theorem unrefused_structSteps {head : MessageHead} :
    Step.Unrefused (head.structSteps scope) ↔ head.Planned := by
  simp [-List.map_map, structSteps_eq, Step.unrefused_flatMap, Oneof.unrefused_steps, Planned,
    Step.refusal?]

end MessageHead

theorem EnumType.bindings_steps (enums : List EnumType) :
    Step.bindings (enums.flatMap (·.steps scope)) = [] := by
  simp [Step.bindings_flatMap, EnumType.steps]

theorem EnumType.unrefused_steps (enums : List EnumType) :
    Step.Unrefused (enums.flatMap (·.steps scope)) := by
  simp [Step.unrefused_flatMap, EnumType.steps]

namespace Message

mutual

/-- What a message binds, it binds for the messages that are written with
it, in their order. -/
theorem bindings_steps : ∀ m : Message, m.head.isMapEntry = false →
    Step.bindings (m.steps scope) = aliasUses scope m.emitted
  | mk head nested, hentry => by
    have hhead : head.isMapEntry = false := hentry
    rw [steps, hhead, emitted, aliasUses_cons]
    simp [MessageHead.bindings_structSteps, EnumType.bindings_steps, bindings_nestedSteps nested]

theorem bindings_nestedSteps : ∀ ms : List Message,
    Step.bindings (nestedSteps scope ms) = aliasUses scope (emittedNested ms)
  | [] => rfl
  | m :: rest => by
    rw [nestedSteps, emittedNested, Step.bindings_append, aliasUses_append,
      bindings_nestedSteps rest]
    cases hentry : m.head.isMapEntry with
    | true => rfl
    | false => simp [bindings_steps m hentry]

end

mutual

/-- A message is refused for a oneof of a message that is written with
it, and for nothing else. -/
theorem unrefused_steps : ∀ m : Message, m.head.isMapEntry = false →
    (Step.Unrefused (m.steps scope) ↔ ∀ head ∈ m.emitted, head.Planned)
  | mk head nested, hentry => by
    have hhead : head.isMapEntry = false := hentry
    rw [steps, hhead, emitted, List.forall_mem_cons]
    simp [MessageHead.unrefused_structSteps, EnumType.unrefused_steps,
      unrefused_nestedSteps nested]

theorem unrefused_nestedSteps : ∀ ms : List Message,
    Step.Unrefused (nestedSteps scope ms) ↔ ∀ head ∈ emittedNested ms, head.Planned
  | [] => by simp [nestedSteps, emittedNested]
  | m :: rest => by
    rw [nestedSteps, emittedNested, Step.unrefused_append, List.forall_mem_append,
      unrefused_nestedSteps rest]
    cases hentry : m.head.isMapEntry with
    | true => simp
    | false => simp [unrefused_steps m hentry]

end

/-- A map entry cannot be written by itself. -/
theorem not_unrefused_steps {m : Message} (hentry : m.head.isMapEntry = true) :
    ¬ Step.Unrefused (m.steps scope) := by
  obtain ⟨head, nested⟩ := m
  have hhead : head.isMapEntry = true := hentry
  rw [steps, hhead]
  simp [Step.refusal?]

end Message

/-! ## The text of a file -/

namespace File

variable {base : String} {version : Version} {f : File}

/-- The preamble is refused exactly for a package that is no text. -/
theorem unrefused_preambleSteps : Step.Unrefused (f.preambleSteps base version) ↔
    ∀ package ∈ f.package, ∃ text, package = .text text := by
  rw [preambleSteps, packageStep]
  cases f.package with
  | none => simp [-List.map_cons, Step.refusal?]
  | some package => cases package <;> simp [-List.map_cons, Step.refusal?]

theorem bindings_preambleSteps : Step.bindings (f.preambleSteps base version) = [] := by
  rw [preambleSteps, packageStep]
  cases f.package with
  | none => simp [-List.map_cons]
  | some package => cases package <;> simp [-List.map_cons, Step.bindings, Step.binding?]

theorem bindings_messageSteps (h : ∀ m ∈ f.messages, m.head.isMapEntry = false) :
    Step.bindings f.messageSteps = aliasUses f.scope f.emitted := by
  rw [messageSteps, emitted, Step.bindings_flatMap, aliasUses_flatMap]
  exact List.flatMap_congr fun m hm => m.bindings_steps (h m hm)

theorem unrefused_messageSteps : Step.Unrefused f.messageSteps ↔
    (∀ m ∈ f.messages, m.head.isMapEntry = false) ∧ ∀ o ∈ f.oneofs, ∃ plan, o.plan = .ok plan := by
  have hplanned : (∀ o ∈ f.oneofs, ∃ plan, o.plan = .ok plan) ↔
      ∀ m ∈ f.messages, ∀ head ∈ m.emitted, head.Planned := by
    simp only [oneofs, emitted, List.forall_mem_flatMap, MessageHead.Planned]
  rw [messageSteps, Step.unrefused_flatMap, hplanned]
  constructor
  · intro h
    have hentries : ∀ m ∈ f.messages, m.head.isMapEntry = false := fun m hm =>
      Bool.eq_false_iff.2 fun hentry => Message.not_unrefused_steps hentry (h m hm)
    exact ⟨hentries, fun m hm => (m.unrefused_steps (hentries m hm)).1 (h m hm)⟩
  · rintro ⟨hentries, hheads⟩ m hm
    exact (m.unrefused_steps (hentries m hm)).2 (hheads m hm)

/-- A file has a text exactly if its draft gets to its end. -/
theorem source_eq_ok_iff {text : String} : f.source base version = .ok text ↔
    (f.draft base version).2 = none ∧ f.finish (f.draft base version).1 = text := by
  rw [source]
  rcases f.draft base version with ⟨draft, _ | refusal⟩ <;> simp

/-- The uses of aliases are consistent exactly if variants with the same
alias have the same type. -/
theorem consistent_aliasUses : AliasTable.Consistent .empty (aliasUses f.scope f.emitted) ↔
    ∀ x ∈ f.variants, ∀ y ∈ f.variants, ∀ name, x.head.ownAlias? = some name →
      y.head.ownAlias? = some name → x.spelling f.scope = y.spelling f.scope := by
  constructor
  · rintro ⟨-, hagree⟩ x hx y hy name hxname hyname
    have hmem : ∀ z ∈ f.variants, z.head.ownAlias? = some name →
        (name, z.spelling f.scope) ∈ aliasUses f.scope f.emitted := fun z hz hname =>
      List.mem_filterMap.2 ⟨z, hz, by simp [Field.aliasUse?, hname]⟩
    exact hagree _ (hmem x hx hxname) _ (hmem y hy hyname) rfl
  · intro h
    refine ⟨by simp [AliasTable.Admits], fun a ha b hb hname => ?_⟩
    obtain ⟨x, hx, hxuse⟩ := List.mem_filterMap.1 ha
    obtain ⟨y, hy, hyuse⟩ := List.mem_filterMap.1 hb
    obtain ⟨name, hxname, rfl⟩ := Option.map_eq_some_iff.1 hxuse
    obtain ⟨name', hyname, rfl⟩ := Option.map_eq_some_iff.1 hyuse
    have hsame : name = name' := hname
    exact h x hx y hy name hxname (hsame ▸ hyname)

/-- A file's text exists under exactly four conditions. -/
theorem draft_eq_none_iff : (f.draft base version).2 = none ↔
    (∀ package ∈ f.package, ∃ text, package = .text text) ∧
      (∀ m ∈ f.messages, m.head.isMapEntry = false) ∧
      (∀ o ∈ f.oneofs, ∃ plan, o.plan = .ok plan) ∧
      AliasTable.Consistent .empty (aliasUses f.scope f.emitted) := by
  rw [draft, Draft.perform_eq_none_iff, Step.unrefused_append, unrefused_preambleSteps,
    unrefused_messageSteps, Step.bindings_append, bindings_preambleSteps, List.nil_append]
  -- the bindings are those of the variants only once no map entry is at the top
  constructor
  · rintro ⟨⟨hpackage, hentries, hplans⟩, hconsistent⟩
    rw [bindings_messageSteps hentries] at hconsistent
    exact ⟨hpackage, hentries, hplans, hconsistent⟩
  · rintro ⟨hpackage, hentries, hplans, hconsistent⟩
    rw [bindings_messageSteps hentries]
    exact ⟨⟨hpackage, hentries, hplans⟩, hconsistent⟩

/-- What the draft of a file leaves, if it gets to its end. -/
theorem of_draft_eq_none (h : (f.draft base version).2 = none) :
    (f.draft base version).1.lines = f.declarationLines base version ∧
      (f.draft base version).1.aliases =
        AliasTable.bindAll .empty (aliasUses f.scope f.emitted) := by
  obtain ⟨-, hentries, -, -⟩ := draft_eq_none_iff.1 h
  obtain ⟨hlines, haliases⟩ := Draft.of_perform_eq_none h
  rw [Step.bindings_append, bindings_preambleSteps, List.nil_append,
    bindings_messageSteps hentries] at haliases
  exact ⟨hlines, haliases⟩

theorem map_fst_aliasUses :
    (aliasUses f.scope f.emitted).map Prod.fst = f.variants.filterMap (·.head.ownAlias?) := by
  have hfst : ∀ x : Field, (x.aliasUse? f.scope).map Prod.fst = x.head.ownAlias? := fun x => by
    rw [Field.aliasUse?]
    cases x.head.ownAlias? <;> rfl
  rw [aliasUses, List.map_filterMap]
  simp only [hfst]
  rfl

end File

/-- **A file has a text exactly if** its package is a text, where it has
one, no message at its top is a map entry, every oneof of a message that is
written has a shape, and variants of tagged unions with the same alias have
the same type. **The text then declares each alias of these variants once**,
in the order of first use and for the type of all variants that use it,
between the messages and the enums. -/
theorem source_exists_iff_and_alias_section (f : File) (base : String) (version : Version) :
    ((∃ text, f.source base version = .ok text) ↔
      (∀ package ∈ f.package, ∃ text, package = .text text) ∧
        (∀ m ∈ f.messages, m.head.isMapEntry = false) ∧
        (∀ o ∈ f.oneofs, ∃ plan, o.plan = .ok plan) ∧
        ∀ x ∈ f.variants, ∀ y ∈ f.variants, ∀ name, x.head.ownAlias? = some name →
          y.head.ownAlias? = some name → x.spelling f.scope = y.spelling f.scope) ∧
      ∀ text, f.source base version = .ok text →
        ∃ aliases : List (Verbatim × String),
          text = joinLines (f.declarationLines base version ++
            aliases.map (fun a => a.1.shown ++ " :: distinct " ++ a.2) ++ f.enumLines) ∧
          aliases.map Prod.fst = (f.variants.filterMap (·.head.ownAlias?)).eraseDups ∧
          ∀ a ∈ aliases, ∀ x ∈ f.variants, x.head.ownAlias? = some a.1 →
            x.spelling f.scope = a.2 := by
  rw [← File.consistent_aliasUses, ← File.draft_eq_none_iff]
  refine ⟨⟨?_, ?_⟩, ?_⟩
  · rintro ⟨text, htext⟩
    exact (File.source_eq_ok_iff.1 htext).1
  · intro hdraft
    exact ⟨_, File.source_eq_ok_iff.2 ⟨hdraft, rfl⟩⟩
  · intro text htext
    obtain ⟨hdraft, rfl⟩ := File.source_eq_ok_iff.1 htext
    obtain ⟨hlines, haliases⟩ := File.of_draft_eq_none hdraft
    obtain ⟨-, -, -, hconsistent⟩ := File.draft_eq_none_iff.1 hdraft
    refine ⟨(f.draft base version).1.aliases.entries, ?_, ?_, ?_⟩
    · rw [File.finish, hlines]
      rfl
    · rw [haliases, ← File.map_fst_aliasUses]
      exact AliasTable.keys_bindAll [] (aliasUses f.scope f.emitted) rfl
    · intro a ha x hx hname
      have hbound := AliasTable.get?_bindAll hconsistent
        (List.mem_filterMap.2 ⟨x, hx, by rw [Field.aliasUse?, hname]; rfl⟩)
      rw [← haliases] at hbound
      have hentry := Dictionary.mem_entries_iff.1 ha
      exact Option.some.inj (hbound.symm.trans hentry)

/-- A file in which a message and the message nested in it use one alias.
Between them stands a oneof that repeats a type, whose alias is not
declared. -/
def sharedAliasFile : File where
  name := "shared.proto"
  enums := [{ name := "Kind", fullName := "Kind", values := [{ name := "NONE", number := 0 }] }]
  messages := [.mk
    { name := "Outer"
      fullName := "Outer"
      oneofs := [
        { name := "value"
          fullName := "Outer.value"
          members := [
            .single { name := "id", code := 5, override := some { typedef := some "Id" } },
            .single { name := "text", code := 9 }] },
        { name := "pair"
          fullName := "Outer.pair"
          members := [
            .single { name := "left", code := 5 },
            .single { name := "right", code := 5 },
            .single { name := "label", code := 9, override := some { typedef := some "Label" } }] }] }
    [.mk
      { name := "Inner"
        fullName := "Outer.Inner"
        oneofs := [
          { name := "value"
            fullName := "Outer.Inner.value"
            members := [
              .single { name := "name", code := 9, override := some { typedef := some "Name" } },
              .single { name := "id", code := 5, override := some { typedef := some "Id" } }] }] }
      []]]

theorem source_exists_iff_and_alias_section_shared :
    ∃ text, sharedAliasFile.source "odin" {} = .ok text ∧
      (∃ aliases : List (Verbatim × String),
        text = joinLines (sharedAliasFile.declarationLines "odin" {} ++
          aliases.map (fun a => a.1.shown ++ " :: distinct " ++ a.2) ++
          sharedAliasFile.enumLines) ∧
        aliases.map Prod.fst = ["Id", "Name"]) ∧
      text = "\n".intercalate [
        "// Auto-generated by odin-protoc-plugin (https://github.com/lordhippo/odin-protoc-plugin)",
        "// protoc version: 0.0.0",
        "// Use with the runtime odin-protobuf library (https://github.com/lordhippo/odin-protobuf)",
        "",
        "package odin",
        "",
        "Outer :: struct \x7b",
        "",
        "  value: union \x7b",
        "    Id,",
        "    string,",
        "  \x7d,",
        "",
        "  pair: struct #raw_union \x7b",
        "    left : i32 `id:\"1\" type:\"5\"`,",
        "    right : i32 `id:\"1\" type:\"5\"`,",
        "    label : string `id:\"1\" type:\"9\"`,",
        "  \x7d,",
        "  pair_variant: enum \x7b",
        "    left = 0,",
        "    right = 1,",
        "    label = 2,",
        "  \x7d,",
        "\x7d",
        "",
        "Outer_Inner :: struct \x7b",
        "",
        "  value: union \x7b",
        "    Name,",
        "    Id,",
        "  \x7d,",
        "\x7d",
        "Id :: distinct i32",
        "Name :: distinct string",
        "",
        "Kind :: enum \x7b",
        "  NONE = 0,",
        "\x7d",
        ""] := by
  have hdraft : (sharedAliasFile.draft "odin" {}).2 = none := by decide +kernel
  have htext := File.source_eq_ok_iff.2 ⟨hdraft, rfl⟩
  obtain ⟨aliases, hlines, hnames, -⟩ :=
    (source_exists_iff_and_alias_section sharedAliasFile "odin" {}).2 _ htext
  refine ⟨_, htext, ⟨aliases, hlines, hnames.trans ?_⟩, ?_⟩
  · decide +kernel
  · decide +kernel

end OdinSchema
