import Mathlib.Data.List.Induction
import OdinSchema.Proofs.AliasSection

/-!
# The order of messages

The messages of a file are written one after the other against one table of
aliases, and the first binding that the table does not admit ends the text.
Still nothing but order hangs on the order of the messages. Whether a file
has a text is a condition on its messages as a collection
(`File.draft_eq_none_iff`), the lines a message adds are its own whatever was
written before it (`Message.lines_perform`), and the aliases of a text are
the uses of aliases without repeats (`AliasTable.entries_bindAll`).
-/

namespace OdinSchema

/-! ## The aliases of a table -/

/-- Items without repeats are the same items after a permutation. -/
theorem perm_eraseDups {α : Type} [BEq α] [LawfulBEq α] {xs ys : List α} (h : xs.Perm ys) :
    xs.eraseDups.Perm ys.eraseDups := by
  have hnodup : ∀ zs : List α, zs.eraseDups.Nodup := by
    intro zs
    induction zs using List.reverseRecOn with
    | nil => simp
    | append_singleton zs z ih =>
      rw [eraseDups_concat]
      split
      · exact ih
      · rename_i hfresh
        refine ih.append (List.nodup_singleton z) ?_
        rw [List.disjoint_singleton, List.mem_eraseDups]
        exact hfresh
  rw [List.perm_ext_iff_of_nodup (hnodup xs) (hnodup ys)]
  intro x
  rw [List.mem_eraseDups, List.mem_eraseDups]
  exact h.mem_iff

namespace AliasTable

variable {table : AliasTable} {xs ys : List (Verbatim × String)}

theorem consistent_perm (h : xs.Perm ys) : table.Consistent xs ↔ table.Consistent ys := by
  have himp : ∀ {xs ys : List (Verbatim × String)}, xs.Perm ys → table.Consistent xs →
      table.Consistent ys := by
    intro xs ys h hconsistent
    exact ⟨fun a ha => hconsistent.admits a (h.mem_iff.2 ha),
      fun a ha b hb => hconsistent.agree a (h.mem_iff.2 ha) b (h.mem_iff.2 hb)⟩
  exact ⟨himp h, himp h.symm⟩

/-- A table whose entries are bindings without repeats stays one when
consistent bindings are made in it. -/
theorem entries_bindAll_of_entries (xs : List (Verbatim × String))
    (hentries : table.entries = xs.eraseDups) (hconsistent : table.Consistent ys) :
    (table.bindAll ys).entries = (xs ++ ys).eraseDups := by
  induction ys generalizing table xs with
  | nil => rw [List.append_nil, ← hentries]; rfl
  | cons a rest ih =>
    obtain ⟨hadmits, hrest⟩ := consistent_cons_iff.1 hconsistent
    have hmem : a ∈ table.entries ↔ a ∈ xs := by rw [hentries, List.mem_eraseDups]
    have hstep : (table.define a.1 a.2).2.entries = (xs ++ [a]).eraseDups := by
      rw [eraseDups_concat, ← hentries]
      by_cases hkey : a.1 ∈ table.keys
      · -- a known alias stands for the type it is asked for, so nothing is new
        obtain ⟨bound, hbound⟩ := Dictionary.mem_keys_iff.1 hkey
        rw [hadmits bound hbound] at hbound
        rw [Dictionary.snd_define_of_mem hkey,
          if_pos (hmem.1 (Dictionary.mem_entries_iff.2 hbound))]
      · have hfresh : a ∉ xs := fun ha => hkey (List.mem_map_of_mem (hmem.2 ha))
        rw [if_neg hfresh, Dictionary.define, dif_neg hkey]
        rfl
    rw [bindAll_cons, ih _ hstep hrest, List.append_assoc]
    rfl

/-- **The entries of a table are its bindings without repeats**, if these
are consistent. -/
theorem entries_bindAll (h : Consistent .empty xs) :
    (bindAll .empty xs).entries = xs.eraseDups :=
  entries_bindAll_of_entries [] rfl h

end AliasTable

/-! ## The parts of a text -/

/-- The lines a message adds to a text, with all that is nested in it. -/
def Message.block (scope : Scope) (m : Message) : List String :=
  Step.lines (m.steps scope)

/-- **A message adds its block to whatever was written before it.** -/
theorem Message.lines_perform {scope : Scope} {m : Message} {draft : Draft}
    (h : (draft.perform (m.steps scope)).2 = none) :
    (draft.perform (m.steps scope)).1.lines = draft.lines ++ m.block scope :=
  (Draft.of_perform_eq_none h).1

namespace File

variable {base text : String} {version : Version} {f : File}

/-- The identifier of the package a file's text belongs to. -/
def packageName (base : String) (f : File) : String :=
  packageIdentifier base (f.package.bind Verbatim.text?)

/-- The lines in front of the declarations of a file. -/
def preamble (base : String) (version : Version) (f : File) : List String :=
  header version ++ ["", "package " ++ f.packageName base]

/-- The aliases that the variants of a file ask for, with the types they
stand for, in the order of first use. -/
def aliases (f : File) : List (Verbatim × String) :=
  (aliasUses f.scope f.emitted).eraseDups

/-- The lines that declare aliases. -/
def aliasLines (f : File) : List String :=
  f.aliases.map fun a => aliasLine a.1 a.2

theorem lines_preambleSteps (h : ∀ package ∈ f.package, ∃ text, package = .text text) :
    Step.lines (f.preambleSteps base version) = f.preamble base version := by
  rw [preambleSteps, preamble, packageName, packageStep, Step.lines_append, Step.lines_map_line]
  cases hpackage : f.package with
  | none => rfl
  | some package =>
    obtain ⟨text, rfl⟩ := h package hpackage
    rfl

/-- **The text of a file**: what stands in front of the declarations, the
blocks of the messages, the aliases and the enums. -/
theorem text_of_source (h : f.source base version = .ok text) :
    text = joinLines (f.preamble base version ++ f.messages.flatMap (·.block f.scope) ++
      f.aliasLines ++ f.enumLines) := by
  obtain ⟨hdraft, rfl⟩ := source_eq_ok_iff.1 h
  obtain ⟨hpackage, -, -, hconsistent⟩ := draft_eq_none_iff.1 hdraft
  obtain ⟨hlines, haliases⟩ := of_draft_eq_none hdraft
  have hblocks : f.declarationLines base version =
      f.preamble base version ++ f.messages.flatMap (·.block f.scope) := by
    rw [declarationLines, Step.lines_append, lines_preambleSteps hpackage, messageSteps,
      Step.lines_flatMap]
    rfl
  have hentries : (f.draft base version).1.aliases.lines = f.aliasLines := by
    rw [haliases, AliasTable.lines, AliasTable.entries_bindAll hconsistent]
    rfl
  rw [finish, hlines, hentries, hblocks]

end File

/-! ## Permuted messages -/

section

variable {f : File} {messages : List Message} (h : messages.Perm f.messages)

include h

theorem File.emitted_perm : ({ f with messages } : File).emitted.Perm f.emitted :=
  h.flatMap_right _

theorem File.aliasUses_perm :
    (aliasUses f.scope ({ f with messages } : File).emitted).Perm (aliasUses f.scope f.emitted) :=
  (((File.emitted_perm h).flatMap_right _).flatMap_right _).filterMap _

/-- **A file has a text whatever the order of its messages.** -/
theorem File.draft_eq_none_perm {base : String} {version : Version} :
    (({ f with messages } : File).draft base version).2 = none ↔
      (f.draft base version).2 = none := by
  have hmessages : (∀ m ∈ messages, m.head.isMapEntry = false) ↔
      ∀ m ∈ f.messages, m.head.isMapEntry = false :=
    forall_congr' fun m => imp_congr_left h.mem_iff
  have honeofs : (∀ o ∈ ({ f with messages } : File).oneofs, ∃ plan, o.plan = .ok plan) ↔
      ∀ o ∈ f.oneofs, ∃ plan, o.plan = .ok plan :=
    forall_congr' fun o => imp_congr_left ((File.emitted_perm h).flatMap_right _).mem_iff
  rw [File.draft_eq_none_iff, File.draft_eq_none_iff, hmessages, honeofs]
  exact and_congr_right fun _ => and_congr_right fun _ => and_congr_right fun _ =>
    AliasTable.consistent_perm (File.aliasUses_perm h)

theorem File.aliasLines_perm : ({ f with messages } : File).aliasLines.Perm f.aliasLines :=
  (perm_eraseDups (File.aliasUses_perm h)).map _

end

/-- **Only order hangs on the order of messages.** A file with its messages
permuted has a text exactly if the file itself has one. The two texts have
the same lines in front of the declarations, the same block for each message
and the same enums, and the aliases of one are a permutation of those of the
other. The block of a message is what writing the message adds, to its end,
to whatever was written before. -/
theorem source_of_permuted_messages (f : File) (messages : List Message)
    (h : messages.Perm f.messages) (base : String) (version : Version) :
    ((∃ text, ({ f with messages } : File).source base version = .ok text) ↔
      ∃ text, f.source base version = .ok text) ∧
    (∀ text text', f.source base version = .ok text →
      ({ f with messages } : File).source base version = .ok text' →
      ∃ aliases aliases' : List String, aliases'.Perm aliases ∧
        text = joinLines (f.preamble base version ++ f.messages.flatMap (·.block f.scope) ++
          aliases ++ f.enumLines) ∧
        text' = joinLines (f.preamble base version ++ messages.flatMap (·.block f.scope) ++
          aliases' ++ f.enumLines)) ∧
    ∀ m ∈ messages, ∀ draft : Draft, (draft.perform (m.steps f.scope)).2 = none →
      (draft.perform (m.steps f.scope)).1.lines = draft.lines ++ m.block f.scope := by
  refine ⟨⟨?_, ?_⟩, ?_, ?_⟩
  · rintro ⟨text, htext⟩
    have hdraft := (File.source_eq_ok_iff.1 htext).1
    exact ⟨_, File.source_eq_ok_iff.2 ⟨(File.draft_eq_none_perm h).1 hdraft, rfl⟩⟩
  · rintro ⟨text, htext⟩
    have hdraft := (File.source_eq_ok_iff.1 htext).1
    exact ⟨_, File.source_eq_ok_iff.2 ⟨(File.draft_eq_none_perm h).2 hdraft, rfl⟩⟩
  · intro text text' htext htext'
    exact ⟨_, _, File.aliasLines_perm h, File.text_of_source htext, File.text_of_source htext'⟩
  · intro m _ draft hperform
    exact Message.lines_perform hperform

/-- A file of two messages that share an alias, after each of them has asked
for one of its own. -/
def pairedAliasFile : File where
  name := "paired.proto"
  messages := ["First", "Second"].map fun (name : String) => .mk
    { name := name
      fullName := name
      oneofs := [
        { name := "value"
          fullName := name ++ ".value"
          members := [
            .single { name := "own", code := 9, override := some { typedef := some name } },
            .single { name := "id", code := 5, override := some { typedef := some "Id" } }] }] } []

/-- With the messages turned round the text is there, and so are its blocks
and its aliases, in another order. -/
theorem source_of_permuted_messages_turned :
    let turned : File := { pairedAliasFile with messages := pairedAliasFile.messages.reverse }
    let preamble : List String := [
      "// Auto-generated by odin-protoc-plugin (https://github.com/lordhippo/odin-protoc-plugin)",
      "// protoc version: 0.0.0",
      "// Use with the runtime odin-protobuf library (https://github.com/lordhippo/odin-protobuf)",
      "",
      "package odin"]
    let block (name : String) : List String :=
      ["", name ++ " :: struct \x7b", "", "  value: union \x7b", "    " ++ name ++ ",", "    Id,",
        "  \x7d,", "\x7d"]
    ∃ text, turned.source "odin" {} = .ok text ∧
      pairedAliasFile.aliases.map (·.1.shown) = ["First", "Id", "Second"] ∧
      turned.aliases.map (·.1.shown) = ["Second", "Id", "First"] ∧
      pairedAliasFile.source "odin" {} = .ok ("\n".intercalate (preamble ++ block "First" ++
        block "Second" ++ ["First :: distinct string", "Id :: distinct i32",
          "Second :: distinct string", ""])) ∧
      text = "\n".intercalate (preamble ++ block "Second" ++ block "First" ++
        ["Second :: distinct string", "Id :: distinct i32", "First :: distinct string", ""]) := by
  intro turned preamble block
  have hdraft : (pairedAliasFile.draft "odin" {}).2 = none := by decide +kernel
  have htext := File.source_eq_ok_iff.2 ⟨hdraft, rfl⟩
  obtain ⟨text, hturned⟩ := (source_of_permuted_messages pairedAliasFile _
    (List.reverse_perm _) "odin" {}).1.2 ⟨_, htext⟩
  obtain ⟨-, rfl⟩ := File.source_eq_ok_iff.1 hturned
  refine ⟨_, hturned, by decide +kernel, by decide +kernel, ?_, by decide +kernel⟩
  exact File.source_eq_ok_iff.2 ⟨hdraft, by decide +kernel⟩

end OdinSchema
