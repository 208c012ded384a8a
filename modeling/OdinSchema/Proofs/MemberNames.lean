import Mathlib.Data.List.Flatten
import OdinSchema.Proofs.SourceReading

/-!
# The members of a struct

A struct has its plain fields and its oneofs as members, and their names are
those of the schema, where they are distinct. A raw union brings one member
more, the enum that tells its fields apart. It is named after the oneof,
whatever else has that name. So the members of a struct have distinct names
unless that enum is named as a plain field or as a oneof, and two such enums
never meet (`struct_member_names_distinct_iff`).

The names are read from the lines of the struct (`memberName?`): a member
starts on a line that is indented once, and the lines inside it are indented
further.
-/

namespace OdinSchema

/-! ## Members and their lines -/

/-- The name of the member that starts on a line of a struct, if one does. -/
def memberName? (line : String) : Option String :=
  let name := (readName (unindented 2 line)).1
  if name = "" then none else some name

/-- The names of the members that a oneof brings. -/
def OneofBody.memberNames (name : String) : OneofBody → List String
  | union _ => [name]
  | rawUnion _ _ => [name, name ++ "_variant"]

/-- The name of the enum beside a oneof, if the oneof becomes a raw union. -/
def Oneof.discriminant? (o : Oneof) : Option String :=
  match o.plan with
  | .ok (.raw _) => some (o.name.shown ++ "_variant")
  | _ => none

/-- The names of the members of a message's struct, in their order. -/
def MessageHead.memberNames (m : MessageHead) : List String :=
  m.plainFields.map (·.head.name.shown) ++
    m.oneofs.flatMap fun o => o.name.shown :: o.discriminant?.toList

theorem Verbatim.IsIdentifier.shown_ne_empty {v : Verbatim} (h : v.IsIdentifier) :
    v.shown ≠ "" := by
  intro hempty
  rw [IsIdentifier, hempty] at h
  exact absurd h (by decide)

/-- The name at the start of what is indented is that of a member, if there
is one. -/
theorem memberName?_append (line : String) : memberName? ("  " ++ line) =
    if (readName line).1 = "" then none else some (readName line).1 := by
  have hline : unindented 2 ("  " ++ line) = line := unindented_append "  " line
  rw [memberName?, hline]

theorem memberName?_of_isWord {name rest : String} (hword : IsWord name) (hne : name ≠ "")
    {c : Char} {cs : List Char} (hrest : rest.toList = c :: cs)
    (hc : continuesIdentifier c = false) : memberName? ("  " ++ (name ++ rest)) = some name := by
  rw [memberName?_append, readName_append hword rest hrest hc, if_neg hne]

/-- A line inside of a oneof starts with no name. -/
theorem memberName?_inner (text : String) : memberName? ("    " ++ text) = none := by
  have htwice : "    " ++ text = "  " ++ ("" ++ ("  " ++ text)) := by
    rw [String.empty_append, ← String.append_assoc]
    rfl
  have hempty : IsWord "" := fun c hc => absurd hc List.not_mem_nil
  rw [htwice, memberName?_append,
    readName_append hempty ("  " ++ text) String.toList_append (by decide), if_pos rfl]

/-- **A tagged union is one member, and a raw union two.** -/
theorem OneofBody.filterMap_memberName? {name : String} (hword : IsWord name) (hne : name ≠ "")
    (body : OneofBody) : (body.lines name).filterMap memberName? = body.memberNames name := by
  have hinner : ∀ {α : Type} (xs : List α) (text : α → String),
      (xs.map fun x => "    " ++ text x).filterMap memberName? = [] := by
    intro α xs text
    rw [List.filterMap_eq_nil_iff, List.forall_mem_map]
    exact fun x _ => memberName?_inner (text x)
  have hclosing : memberName? "  \x7d," = none := by decide
  cases body with
  | union variants =>
    have hopening : memberName? ("  " ++ name ++ ": union \x7b") = some name := by
      rw [String.append_assoc]
      exact memberName?_of_isWord hword hne rfl (by decide)
    have hvariants := hinner variants (· ++ ",")
    simp only [← String.append_assoc] at hvariants
    rw [lines, List.filterMap_cons_some hopening, List.filterMap_append, hvariants,
      List.filterMap_cons_none hclosing]
    rfl
  | rawUnion fields numbers =>
    have hopening : memberName? ("  " ++ name ++ ": struct #raw_union \x7b") = some name := by
      rw [String.append_assoc]
      exact memberName?_of_isWord hword hne rfl (by decide)
    have hvariant : memberName? ("  " ++ name ++ "_variant: enum \x7b") =
        some (name ++ "_variant") := by
      have hsplit : "  " ++ name ++ "_variant: enum \x7b" =
          "  " ++ ((name ++ "_variant") ++ ": enum \x7b") := by
        rw [String.append_assoc, String.append_assoc]
        rfl
      rw [hsplit]
      refine memberName?_of_isWord ?_ ?_ rfl (by decide)
      · rw [IsWord, String.toList_append, List.forall_mem_append]
        exact ⟨hword, continuesIdentifier_of_isIdentifier (by decide)⟩
      · exact fun hempty => hne (String.append_eq_empty_iff.1 hempty).1
    have hfields := hinner fields fun x => x
    rw [lines, List.filterMap_cons_some hopening, List.filterMap_append, hfields,
      List.nil_append, List.filterMap_cons_none hclosing, List.filterMap_cons_some hvariant,
      List.filterMap_append, hinner numbers, List.filterMap_cons_none hclosing]
    rfl

variable {scope : Scope}

theorem Oneof.memberNames_body (o : Oneof) :
    (o.body scope).memberNames o.name.shown = o.name.shown :: o.discriminant?.toList := by
  rw [body, discriminant?]
  cases o.plan with
  | error refusal => rfl
  | ok plan => cases plan <;> rfl

theorem Field.memberName?_declaration {f : Field} (h : f.head.name.IsIdentifier) :
    memberName? ("  " ++ f.declaration scope) = some f.head.name.shown := by
  rw [declaration, String.append_assoc, String.append_assoc, String.append_assoc,
    String.append_assoc]
  exact memberName?_of_isWord h.isWord h.shown_ne_empty String.toList_append (by decide)

namespace MessageHead

variable {m : MessageHead}

/-- **The members of a struct, read from its lines.** -/
theorem filterMap_memberName? (hfields : ∀ f ∈ m.plainFields, f.head.name.IsIdentifier)
    (honeofs : ∀ o ∈ m.oneofs, o.name.IsIdentifier) :
    (structLines (m.plainFields.map (·.declaration scope))
      (m.oneofs.map fun o => (o.name.shown, o.body scope))).filterMap memberName? =
      m.memberNames := by
  have hplain : ((m.plainFields.map (·.declaration scope)).map ("  " ++ ·)).filterMap memberName? =
      m.plainFields.map (·.head.name.shown) := by
    rw [List.map_map, List.filterMap_map, ← List.filterMap_eq_map]
    refine List.filterMap_congr fun f hf => ?_
    simp only [Function.comp_apply, Field.memberName?_declaration (hfields f hf)]
  have honeof : ∀ o ∈ m.oneofs, ("" :: (o.body scope).lines o.name.shown).filterMap memberName? =
      o.name.shown :: o.discriminant?.toList := by
    intro o ho
    have hempty : memberName? "" = none := by decide
    rw [List.filterMap_cons_none hempty, ← o.memberNames_body]
    exact OneofBody.filterMap_memberName? (honeofs o ho).isWord (honeofs o ho).shown_ne_empty _
  rw [structLines, List.filterMap_append, hplain, List.flatMap_map, List.filterMap_flatMap,
    memberNames, List.flatMap_congr honeof]

/-- The lines inside of a struct are empty or indented. -/
theorem inner_structLines (fields : List String) (oneofs : List (String × OneofBody)) :
    ∀ line ∈ structLines fields oneofs, line = "" ∨ Indented line := by
  rw [structLines, List.forall_mem_append, List.forall_mem_map, List.forall_mem_flatMap]
  refine ⟨fun f _ => .inr (indented_two.append f), fun o _ => ?_⟩
  rw [List.forall_mem_cons]
  exact ⟨.inl rfl, fun line hline => .inr (o.2.indented_lines o.1 line hline)⟩

/-- **When the names of members are distinct**, if those of plain fields and
oneofs are: no enum beside a raw union is named as one of these. -/
theorem nodup_memberNames_iff
    (h : (m.plainFields.map (·.head.name.shown) ++ m.oneofs.map (·.name.shown)).Nodup) :
    m.memberNames.Nodup ↔ ∀ o ∈ m.oneofs, ∀ name ∈ o.discriminant?,
      name ∉ m.plainFields.map (·.head.name.shown) ++ m.oneofs.map (·.name.shown) := by
  have hperm : m.memberNames.Perm
      ((m.plainFields.map (·.head.name.shown) ++ m.oneofs.map (·.name.shown)) ++
        m.oneofs.flatMap (·.discriminant?.toList)) := by
    rw [memberNames, List.append_assoc]
    exact ((List.map_append_flatMap_perm _ _ _).append_left _).symm
  have hdiscriminants : (m.oneofs.flatMap (·.discriminant?.toList)).Nodup := by
    -- names with the same ending are as distinct as what is in front of it
    have hnames : ((m.oneofs.map (·.name.shown)).map (· ++ "_variant")).Nodup :=
      h.of_append_right.map fun x y => (String.append_left_inj "_variant").1
    refine hnames.sublist ?_
    rw [List.map_map, List.map_eq_flatMap]
    refine List.Sublist.flatMap_right _ fun o _ => ?_
    rw [Oneof.discriminant?]
    split
    · exact List.Sublist.refl _
    · exact List.nil_sublist _
  rw [hperm.nodup_iff, List.nodup_append]
  constructor
  · rintro ⟨-, -, happart⟩ o ho name hname hmem
    exact happart name hmem name (List.mem_flatMap.2 ⟨o, ho, Option.mem_toList.2 hname⟩) rfl
  · intro happart
    refine ⟨h, hdiscriminants, ?_⟩
    rintro name hmem _ hdiscriminant rfl
    obtain ⟨o, ho, hname⟩ := List.mem_flatMap.1 hdiscriminant
    exact happart o ho name (Option.mem_toList.1 hname) hmem

end MessageHead

/-- **When the members of a struct have distinct names.** Let the fields and
the oneofs of a message have distinct identifiers as names. If the message is
written, its struct is the first block of its lines, and the names of its
members, as they are read from the block, are those of the plain fields and
of the oneofs and, after the name of each raw union, that of the enum beside
it. They are distinct exactly if no such enum is named as a plain field or as
a oneof. -/
theorem struct_member_names_distinct_iff {scope : Scope} {draft : Draft} {m : Message}
    (hidentifiers : ∀ name ∈ m.head.fields.map (·.head.name) ++ m.head.oneofs.map (·.name),
      name.IsIdentifier)
    (hdistinct : (m.head.fields.map (·.head.name.shown) ++
      m.head.oneofs.map (·.name.shown)).Nodup)
    (h : (draft.perform (m.steps scope)).2 = none) :
    (∃ body rest, (draft.perform (m.steps scope)).1.lines =
        draft.lines ++ ["", scope.resolve m.head.fullName ++ " :: struct \x7b"] ++ body ++
          ["\x7d"] ++ rest ∧
      (∀ line ∈ body, line = "" ∨ Indented line) ∧
      body.filterMap memberName? = m.head.memberNames) ∧
    (m.head.memberNames.Nodup ↔ ∀ o ∈ m.head.oneofs, ∀ name ∈ o.discriminant?,
      name ∉ m.head.plainFields.map (·.head.name.shown) ++ m.head.oneofs.map (·.name.shown)) := by
  have hunrefused := (Draft.perform_eq_none_iff.1 h).1
  have hentry : m.head.isMapEntry = false :=
    Bool.eq_false_iff.2 fun hentry => Message.not_unrefused_steps hentry hunrefused
  rw [Message.unrefused_steps m hentry] at hunrefused
  obtain ⟨head, nested⟩ := m
  have hhead : head.isMapEntry = false := hentry
  rw [Message.emitted, List.forall_mem_cons] at hunrefused
  have hplain : head.plainFields.Sublist head.fields := List.filter_sublist
  rw [List.forall_mem_append, List.forall_mem_map, List.forall_mem_map] at hidentifiers
  refine ⟨⟨structLines (head.plainFields.map (·.declaration scope))
      (head.oneofs.map fun o => (o.name.shown, o.body scope)),
    Step.lines (Message.nestedSteps scope nested ++ head.enums.flatMap (·.steps scope)),
    ?_, MessageHead.inner_structLines _ _, ?_⟩, ?_⟩
  · rw [Message.lines_perform h, Message.block, Message.steps, hhead, if_neg Bool.false_ne_true,
      List.append_assoc, Step.lines_append, MessageHead.lines_eq hunrefused.1]
    simp [MessageHead.decl, Decl.lines, blockLines, Message.head]
  · exact MessageHead.filterMap_memberName?
      (fun f hf => hidentifiers.1 f (hplain.subset hf)) hidentifiers.2
  · exact MessageHead.nodup_memberNames_iff
      (hdistinct.sublist ((hplain.map _).append_right _))

/-- A message with a raw union, a tagged union and a plain field of the given
name. -/
def discriminatedFiles (name : Verbatim) : List FileDescriptor :=
  [{ name := "a.proto"
     messages := [.mk
       { name := "M"
         oneofs := ["x", "y"]
         fields := [
           { name := "a", number := 1, code := 5, oneofIndex := some 0 },
           { name := "b", number := 2, code := 5, oneofIndex := some 0 },
           { name := "c", number := 3, code := 5, oneofIndex := some 1 },
           { name := "d", number := 4, code := 9, oneofIndex := some 1 },
           { name, number := 5, code := 5 }] }
       []] }]

/-- The enum beside the raw union has a name of its own. -/
theorem struct_member_names_distinct_iff_own_name : ∃ loaded f, ∃ m : Message,
    Loads (discriminatedFiles "n") loaded ∧ loaded.get? "a.proto" = some f ∧ m ∈ f.messages ∧
    (({} : Draft).perform (m.steps f.scope)).2 = none ∧
    m.head.memberNames = ["n", "x", "x_variant", "y"] ∧
    ∀ o ∈ m.head.oneofs, ∀ name ∈ o.discriminant?,
      name ∉ m.head.plainFields.map (·.head.name.shown) ++ m.head.oneofs.map (·.name.shown) := by
  obtain ⟨loaded, f, hloads, hf, m, hm, hidentifiers, hdistinct, hperform, hmembers⟩ :
      ∃ loaded f, Loads (discriminatedFiles "n") loaded ∧ loaded.get? "a.proto" = some f ∧
        ∃ m ∈ f.messages,
          (∀ name ∈ m.head.fields.map (·.head.name) ++ m.head.oneofs.map (·.name),
            name.IsIdentifier) ∧
          (m.head.fields.map (·.head.name.shown) ++ m.head.oneofs.map (·.name.shown)).Nodup ∧
          (({} : Draft).perform (m.steps f.scope)).2 = none ∧
          m.head.memberNames = ["n", "x", "x_variant", "y"] :=
    exists_loaded_of_any (by decide +kernel)
  have hiff := (struct_member_names_distinct_iff hidentifiers hdistinct hperform).2
  exact ⟨loaded, f, m, hloads, hf, hm, hperform, hmembers, hiff.1 (hmembers ▸ by decide)⟩

/-- **The enum beside a raw union may be named as a field.** The message is
written, with two members of that name. -/
theorem struct_member_names_repeat : ∃ loaded f,
    Loads (discriminatedFiles "x_variant") loaded ∧ loaded.get? "a.proto" = some f ∧
    ∃ m ∈ f.messages,
      (∀ name ∈ m.head.fields.map (·.head.name) ++ m.head.oneofs.map (·.name),
        name.IsIdentifier) ∧
      (m.head.fields.map (·.head.name.shown) ++ m.head.oneofs.map (·.name.shown)).Nodup ∧
      (({} : Draft).perform (m.steps f.scope)).2 = none ∧
      (({} : Draft).perform (m.steps f.scope)).1.lines.filterMap memberName? =
        ["x_variant", "x", "x_variant", "y"] ∧
      ¬ m.head.memberNames.Nodup :=
  exists_loaded_of_any (by decide +kernel)

end OdinSchema
