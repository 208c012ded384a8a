import OdinSchema.Proofs.Address
import OdinSchema.Proofs.VariantClash

/-!
# Every field is written once

A field belongs to a oneof by the position it gives, which may count from
the end; it carries the name of that oneof, and the oneof lists it as a
member. These are three records of one fact, made in different passes, and a
struct is written from two of them: plain fields are those without a name,
the other fields are written by the oneofs that list them. The fields of a
message are its plain fields and the members of its oneofs, none left out and
none twice (`MessageDescriptorHead.LoadsTo.perm_fields`), so a struct has
each of them once.
-/

namespace OdinSchema

/-! ## Positions and classes -/

/-- A position among so many items is given by itself, or counted from the
end. -/
theorem position?_eq_some_iff {count i : Nat} {index : Int} :
    position? count index = some i ↔
      i < count ∧ (index = (i : Int) ∨ index = (i : Int) - (count : Int)) := by
  unfold position?
  split
  · split
    · rw [Option.some.injEq]
      omega
    · constructor
      · nofun
      · omega
  · split
    · rw [Option.some.injEq]
      omega
    · constructor
      · nofun
      · omega

/-- Items divided into classes by a key are all there, none twice. -/
theorem perm_flatMap_filter {α κ : Type} [DecidableEq κ] (key : α → κ) {items : List α}
    {keys : List κ} (hnodup : keys.Nodup) (hkeys : ∀ x ∈ items, key x ∈ keys) :
    (keys.flatMap fun k => items.filter fun x => key x = k).Perm items := by
  induction keys generalizing items with
  | nil =>
    have hnone : items = [] :=
      List.eq_nil_iff_forall_not_mem.2 fun x hx => List.not_mem_nil (hkeys x hx)
    rw [hnone]
    exact .refl _
  | cons k keys ih =>
    obtain ⟨hfresh, hrest⟩ := List.nodup_cons.1 hnodup
    -- the classes of the other keys are those of the items without the first
    have hothers : (keys.flatMap fun j => items.filter fun x => key x = j) =
        keys.flatMap fun j => (items.filter fun x => !decide (key x = k)).filter
          fun x => key x = j := by
      refine List.flatMap_congr fun j hj => ?_
      rw [List.filter_filter]
      refine List.filter_congr fun x _ => ?_
      by_cases hx : key x = j
      · have hne : j ≠ k := fun hjk => hfresh (hjk ▸ hj)
        simp [hx, hne]
      · simp [hx]
    have hcovered : ∀ x ∈ items.filter (fun x => !decide (key x = k)), key x ∈ keys := by
      intro x hx
      obtain ⟨hmem, hne⟩ := List.mem_filter.1 hx
      exact (List.mem_cons.1 (hkeys x hmem)).resolve_left (by simpa using hne)
    rw [List.flatMap_cons, hothers]
    exact ((ih hrest hcovered).append_left _).trans
      (List.filter_append_perm (fun x => decide (key x = k)) items)

/-! ## The oneofs of a loaded message -/

/-- A field names the oneof at its position, and none if it gives none. -/
theorem FieldDescriptor.oneof?_eq_ok_iff {d : FieldDescriptor} {oneofs : List Verbatim}
    {o : Option Verbatim} : d.oneof? oneofs = .ok o ↔
      (d.oneofIndex = none ∧ o = none) ∨
        ∃ index i name, d.oneofIndex = some index ∧ position? oneofs.length index = some i ∧
          oneofs[i]? = some name ∧ o = some name := by
  unfold oneof?
  cases d.oneofIndex with
  | none => simp [eq_comm]
  | some index =>
    cases hposition : position? oneofs.length index with
    | none => simp [hposition]
    | some i =>
      cases hname : oneofs[i]? with
      | none => simp [hposition, hname]
      | some name => simp [hposition, hname, eq_comm]

theorem length_foldl_assignMember (fields : List Field) (oneofs : List Oneof) :
    (fields.foldl assignMember oneofs).length = oneofs.length := by
  induction fields generalizing oneofs with
  | nil => rfl
  | cons f rest ih => rw [List.foldl_cons, ih, length_assignMember]

namespace MessageDescriptorHead.LoadsTo

variable {context : FileContext} {path : List Int} {d : MessageDescriptorHead} {m : MessageHead}
variable (h : d.LoadsTo context path m)

include h

theorem isMapEntry : m.isMapEntry = d.isMapEntry := by
  obtain ⟨segments, entries, -, hm⟩ := h
  rw [hm]
  rfl

theorem length_oneofs : m.oneofs.length = d.oneofs.length := by
  obtain ⟨segments, entries, -, hm⟩ := h
  rw [hm, assemble, length_foldl_assignMember, List.length_map]

/-- **The oneofs of a message** are those of its descriptor, each with the
fields at its position. -/
theorem getElem?_oneofs (i : Nat) : m.oneofs[i]? = d.oneofs[i]?.map fun name =>
    { name, fullName := m.fullName ++ "." ++ name.shown,
      members := m.fields.filter fun f => f.oneofPosition? m.oneofs.length = some i } := by
  have hlength := h.length_oneofs
  obtain ⟨segments, entries, -, hm⟩ := h
  rw [hlength]
  rw [hm]
  simp only [assemble, getElem?_foldl_assignMember, List.getElem?_map, List.length_map,
    Option.map_map, Function.comp_def, List.nil_append]

/-- The field at a position keeps what the descriptor at that position
gives. -/
theorem places (position : Nat) : Option.Rel (fun x f => x.Places d.oneofs
      (locate context.placements (path ++ [2, (position : Int)])) f)
    d.fields[position]? m.fields[position]? := by
  obtain ⟨segments, entries, hreads, -⟩ := h
  have hrel := hreads.getElem? position
  rw [Nat.zero_add] at hrel
  generalize d.fields[position]? = x, m.fields[position]? = f at hrel ⊢
  cases hrel with
  | none => exact .none
  | some hfield => exact .some (FieldDescriptor.places_of_toField hfield)

theorem exists_places {f : Field} (hf : f ∈ m.fields) :
    ∃ x ∈ d.fields, ∃ location, x.Places d.oneofs location f := by
  obtain ⟨position, hposition⟩ := List.mem_iff_getElem?.1 hf
  have hrel := h.places position
  rw [hposition] at hrel
  generalize hx : d.fields[position]? = x at hrel
  cases hrel with
  | some hplaces => exact ⟨_, List.mem_of_getElem? hx, _, hplaces⟩

/-- A field gives no position and names no oneof, or names the oneof at the
position it gives. -/
theorem oneof_cases {f : Field} (hf : f ∈ m.fields) :
    (f.head.oneofIndex = none ∧ f.head.oneof = none) ∨
      ∃ i o, f.oneofPosition? m.oneofs.length = some i ∧ m.oneofs[i]? = some o ∧
        f.head.oneof = some o.name := by
  obtain ⟨x, -, location, hplaces⟩ := h.exists_places hf
  rcases FieldDescriptor.oneof?_eq_ok_iff.1 hplaces.oneof with
    ⟨hindex, hnone⟩ | ⟨index, i, name, hindex, hposition, hname, hsome⟩
  · exact .inl ⟨hplaces.oneofIndex.trans hindex, hnone⟩
  · refine .inr ⟨i, _, ?_, by rw [h.getElem?_oneofs, hname, Option.map_some], hsome⟩
    rw [Field.oneofPosition?, hplaces.oneofIndex, hindex, Option.bind_some, h.length_oneofs,
      hposition]

/-- A field names no oneof exactly if it gives no position. -/
theorem oneof_isNone {f : Field} (hf : f ∈ m.fields) :
    f.head.oneof.isNone = f.head.oneofIndex.isNone := by
  rcases h.oneof_cases hf with ⟨hindex, hnone⟩ | ⟨i, o, hposition, -, hsome⟩
  · simp [hindex, hnone]
  · obtain ⟨index, hindex, -⟩ := Option.bind_eq_some_iff.1 hposition
    simp [hindex, hsome]

/-- The members of a oneof are the fields that give its position, by itself
or counted from the end, and they carry its name. -/
theorem members_eq {i : Nat} {o : Oneof} (ho : m.oneofs[i]? = some o) :
    o.members = m.fields.filter (fun f => f.head.oneofIndex = some (i : Int) ∨
        f.head.oneofIndex = some ((i : Int) - (m.oneofs.length : Int))) ∧
      ∀ f ∈ o.members, f.head.oneof = some o.name := by
  have hi : i < m.oneofs.length := (List.getElem?_eq_some_iff.1 ho).1
  have hoi := ho
  rw [h.getElem?_oneofs, Option.map_eq_some_iff] at hoi
  obtain ⟨name, -, rfl⟩ := hoi
  refine ⟨List.filter_congr fun f _ => ?_, fun f hf => ?_⟩
  · rw [decide_eq_decide, Field.oneofPosition?]
    cases f.head.oneofIndex with
    | none => simp
    | some index =>
      rw [Option.bind_some, position?_eq_some_iff, Option.some.injEq, Option.some.injEq]
      exact and_iff_right hi
  · obtain ⟨hmem, hposition⟩ := List.mem_filter.1 hf
    rcases h.oneof_cases hmem with ⟨hindex, -⟩ | ⟨j, o', hposition', ho', hname⟩
    · simp [Field.oneofPosition?, hindex] at hposition
    · have hij : i = j :=
        Option.some.inj ((of_decide_eq_true hposition).symm.trans hposition')
      rw [hij, ho'] at ho
      rw [hname, Option.some.inj ho]

/-- The members of all oneofs are the fields divided by position. -/
theorem flatMap_members : m.oneofs.flatMap (·.members) =
    ((List.range m.oneofs.length).map some).flatMap fun i =>
      m.fields.filter fun f => f.oneofPosition? m.oneofs.length = i := by
  have hmembers : m.oneofs.map (·.members) = (List.range m.oneofs.length).map fun i =>
      m.fields.filter fun f => f.oneofPosition? m.oneofs.length = some i := by
    refine List.ext_getElem? fun i => ?_
    rw [List.getElem?_map, List.getElem?_map]
    by_cases hi : i < m.oneofs.length
    · rw [h.getElem?_oneofs, List.getElem?_range hi, Option.map_map]
      rw [List.getElem?_eq_getElem (h.length_oneofs ▸ hi)]
      rfl
    · rw [List.getElem?_eq_none (by omega), List.getElem?_eq_none (by simpa using hi)]
      rfl
  rw [List.flatMap_def, hmembers, List.flatMap_map, ← List.flatMap_def]

/-- **The fields of a message are its plain fields and the members of its
oneofs**, none left out and none twice. -/
theorem perm_fields : m.fields.Perm
    (m.fields.filter (·.head.oneofIndex.isNone) ++ m.oneofs.flatMap (·.members)) := by
  have hclasses : (none :: (List.range m.oneofs.length).map some).Nodup := by
    rw [List.nodup_cons]
    exact ⟨by simp, List.nodup_range.map fun i j hij => Option.some.inj hij⟩
  have hkeys : ∀ f ∈ m.fields, f.oneofPosition? m.oneofs.length ∈
      none :: (List.range m.oneofs.length).map some := by
    intro f hf
    rcases h.oneof_cases hf with ⟨hindex, -⟩ | ⟨i, o, hposition, ho, -⟩
    · simp [Field.oneofPosition?, hindex]
    · have hi : i < m.oneofs.length := (List.getElem?_eq_some_iff.1 ho).1
      simp [hposition, hi]
  have hperm := perm_flatMap_filter (Field.oneofPosition? m.oneofs.length) hclasses hkeys
  have hplain : (m.fields.filter fun f => f.oneofPosition? m.oneofs.length = none) =
      m.fields.filter (·.head.oneofIndex.isNone) := by
    refine List.filter_congr fun f hf => ?_
    rcases h.oneof_cases hf with ⟨hindex, -⟩ | ⟨i, o, hposition, -, -⟩
    · simp [Field.oneofPosition?, hindex]
    · obtain ⟨index, hindex, -⟩ := Option.bind_eq_some_iff.1 hposition
      simp [hposition, hindex]
  rw [List.flatMap_cons, hplain, ← h.flatMap_members] at hperm
  exact hperm.symm

/-- The fields of a message are those of its descriptor, in order. -/
theorem forall₂_places : List.Forall₂ (fun x f => ∃ location, x.Places d.oneofs location f)
    d.fields m.fields := by
  obtain ⟨segments, entries, hreads, -⟩ := h
  have hfst : (d.fields.zipIdx 0).map Prod.fst = d.fields := List.zipIdx_map_fst 0 d.fields
  rw [← hfst, List.forall₂_map_left_iff]
  exact hreads.imp fun x f hfield => ⟨_, FieldDescriptor.places_of_toField hfield⟩

/-- The oneofs of a message are those of its descriptor, in order. -/
theorem map_name_oneofs : m.oneofs.map (·.name) = d.oneofs := by
  refine List.ext_getElem? fun i => ?_
  rw [List.getElem?_map, h.getElem?_oneofs, Option.map_map]
  exact Option.map_id'

end MessageDescriptorHead.LoadsTo

/-! ## The lines of a struct -/

variable {scope : Scope}

/-- The lines that number members count them from the start. -/
theorem discriminants_eq (indent : String) (start : Nat) (members : List Field) :
    discriminants indent start members = (members.zipIdx start).map fun x =>
      indent ++ x.1.head.name.shown ++ " = " ++ toString x.2 ++ "," := by
  induction members generalizing start with
  | nil => rfl
  | cons member rest ih => rw [discriminants, ih, List.zipIdx_cons, List.map_cons]

/-- A raw union adds its lines behind an empty one. -/
theorem Oneof.lines_steps_of_raw {o : Oneof} {type : Verbatim} (h : o.plan = .ok (.raw type))
    (depth : Int) : Step.lines (o.steps scope depth) = "" :: o.rawLines scope depth := by
  rw [steps, h]
  exact congrArg _ (Step.lines_map_line _)

/-- A variant is spelled by the name its option gives, and by its type if it
gives none. -/
theorem Field.variantSpelling_eq (x : Field) : x.variantSpelling scope =
    (x.head.overrideName?.map Verbatim.shown).getD (x.spelling scope) := by
  cases hname : x.head.overrideName? with
  | none => exact variantSpelling_of_no_name hname
  | some name => exact variantSpelling_of_name hname

/-- The lines of a oneof in a struct. A member is one variant of a tagged
union, or it is one field of a raw union and one value of the enum beside it,
which is its position. -/
inductive Oneof.WrittenAs (scope : Scope) (o : Oneof) : List String → Prop where
  | union (h : o.plan = .ok .tagged) : WrittenAs scope o
      (["", "  " ++ o.name.shown ++ ": union \x7b"] ++
        o.members.map (fun x =>
          "    " ++ (x.head.overrideName?.map Verbatim.shown).getD (x.spelling scope) ++ ",") ++
        ["  \x7d,"])
  | rawUnion {type : Verbatim} (h : o.plan = .ok (.raw type)) : WrittenAs scope o
      (["", "  " ++ o.name.shown ++ ": struct #raw_union \x7b"] ++
        o.members.map (fun x => "    " ++
          (x.head.name.shown ++ " : " ++ x.spelling scope ++ " `" ++ x.tag ++ "`,")) ++
        ["  \x7d,", "  " ++ o.name.shown ++ "_variant: enum \x7b"] ++
        o.members.zipIdx.map (fun x =>
          "    " ++ x.1.head.name.shown ++ " = " ++ toString x.2 ++ ",") ++ ["  \x7d,"])

/-- A oneof with a shape is written in one of the two ways. -/
theorem Oneof.writtenAs_of_plan {o : Oneof} (h : ∃ plan, o.plan = .ok plan) :
    o.WrittenAs scope (Step.lines (o.steps scope 1)) := by
  have hone : indentation 1 = "  " := rfl
  have htwo : indentation 2 = "    " := rfl
  have hfour : "  " ++ "  " = "    " := rfl
  obtain ⟨plan, hplan⟩ := h
  cases plan with
  | tagged =>
    rw [lines_steps_of_tagged hplan, hone]
    simp only [hfour, Field.variantSpelling_eq]
    exact .union hplan
  | raw type =>
    rw [lines_steps_of_raw hplan, rawLines, discriminants_eq]
    simp only [hone, hfour]
    exact .rawUnion hplan

/-- The lines of a struct: its plain fields, then its oneofs. -/
theorem MessageHead.lines_structSteps (m : MessageHead) : Step.lines (m.structSteps scope) =
    ["", scope.resolve m.fullName ++ " :: struct \x7b"] ++
      m.plainFields.map (·.line scope 1) ++
      (m.oneofs.map fun o => Step.lines (o.steps scope 1)).flatten ++ ["\x7d"] := by
  rw [structSteps_eq, ← List.flatMap_def]
  simp only [Step.lines_append, Step.lines_map_line, Step.lines_flatMap]
  rfl

/-- **Every field of a message is written once.** For every message that a
loaded request describes, the members of its `i`-th oneof are the fields that
give the position `i`, by itself or counted from the end, in their order, and
they carry the name of that oneof. A struct that is written for the message
has one line for each field without a oneof, in their order, and after them
the oneofs, of which each has one variant, or one field and one numbered
value, for each of its members. Together these are the fields that are
described, none left out and none twice. -/
theorem fields_written_once {before after : List FileDescriptor} {d : FileDescriptor}
    {loaded : Dictionary Verbatim File} (hloads : Loads (before ++ d :: after) loaded)
    (hlast : d.name ∉ after.map (·.name)) {a : MessageAddress} {described : MessageDescriptor}
    (hdescribed : d.message? a = some described) :
    ∃ f m, loaded.get? d.name = some f ∧ f.message? a = some m ∧
      List.Forall₂ (fun x y => y.head.name = x.name ∧ y.head.number = x.number ∧
        y.head.oneofIndex = x.oneofIndex) described.head.fields m.head.fields ∧
      m.head.oneofs.map (·.name) = described.head.oneofs ∧
      (∀ (i : Nat) (o : Oneof), m.head.oneofs[i]? = some o →
        o.members = m.head.fields.filter (fun y => y.head.oneofIndex = some (i : Int) ∨
          y.head.oneofIndex = some ((i : Int) - (m.head.oneofs.length : Int))) ∧
        ∀ y ∈ o.members, y.head.oneof = some o.name) ∧
      (m.head.isMapEntry = false → ∀ (scope : Scope) (draft : Draft),
        (draft.perform (m.steps scope)).2 = none →
        m.head.fields.Perm (m.head.fields.filter (·.head.oneofIndex.isNone) ++
          m.head.oneofs.flatMap (·.members)) ∧
        ∃ blocks rest, List.Forall₂ (Oneof.WrittenAs scope) m.head.oneofs blocks ∧
          (draft.perform (m.steps scope)).1.lines = draft.lines ++
            ["", scope.resolve m.head.fullName ++ " :: struct \x7b"] ++
            (m.head.fields.filter (·.head.oneofIndex.isNone)).map
              (fun y => "  " ++
                (y.head.name.shown ++ " : " ++ y.spelling scope ++ " `" ++ y.tag ++ "`,")) ++
            blocks.flatten ++ ["\x7d"] ++ rest) := by
  obtain ⟨c, f, c', -, hf, hget⟩ := hloads.file hlast
  have hrel := FileDescriptor.loads_message hf a
  rw [hdescribed] at hrel
  generalize hm : f.message? a = found at hrel
  cases hrel with
  | @some _ m hloadsTo =>
    refine ⟨f, m, hget, hm, ?_, hloadsTo.map_name_oneofs, fun i o => hloadsTo.members_eq, ?_⟩
    · exact hloadsTo.forall₂_places.imp fun x y ⟨location, hplaces⟩ =>
        ⟨hplaces.name, hplaces.number, hplaces.oneofIndex⟩
    intro hentry scope draft hperform
    refine ⟨hloadsTo.perm_fields, m.head.oneofs.map fun o => Step.lines (o.steps scope 1), ?_⟩
    obtain ⟨head, nested⟩ := m
    have hsteps : (Message.mk head nested).steps scope = head.structSteps scope ++
        (Message.nestedSteps scope nested ++ head.enums.flatMap (·.steps scope)) := by
      have hhead : head.isMapEntry = false := hentry
      rw [Message.steps, hhead, List.append_assoc]
      rfl
    have hplain : head.plainFields = head.fields.filter (·.head.oneofIndex.isNone) :=
      List.filter_congr fun y hy => hloadsTo.oneof_isNone hy
    rw [hsteps] at hperform
    refine ⟨Step.lines (Message.nestedSteps scope nested ++ head.enums.flatMap (·.steps scope)),
      ?_, ?_⟩
    · -- the oneofs have a shape, as the struct is written to its end
      have hplanned := (Draft.perform_eq_none_iff.1 hperform).1
      rw [Step.unrefused_append, MessageHead.unrefused_structSteps] at hplanned
      rw [List.forall₂_map_right_iff]
      exact List.forall₂_same.2 fun o ho => Oneof.writtenAs_of_plan (hplanned.1 o ho)
    · rw [hsteps, (Draft.of_perform_eq_none hperform).1, Step.lines_append,
        MessageHead.lines_structSteps, hplain]
      simp only [List.append_assoc]
      rfl

/-- A message with a plain field and two oneofs, of which the last is given
by its position and from the end. -/
def countedFile : FileDescriptor where
  name := "a.proto"
  messages := [.mk { name := "M", oneofs := ["first", "last"], fields := [
    { name := "b", number := 1, code := 5, oneofIndex := some (-1) },
    { name := "a", number := 2, code := 5 },
    { name := "c", number := 3, code := 9, oneofIndex := some 0 },
    { name := "d", number := 4, code := 17, oneofIndex := some 1 }] } []]

/-- The fields of the last oneof are found together, though one of them
counts from the end. -/
theorem fields_written_once_from_end : ∃ loaded f m, Loads [countedFile] loaded ∧
    loaded.get? countedFile.name = some f ∧ f.message? { top := 0 } = some m ∧
    m.head.oneofs.map (fun o => o.members.map (·.head.name.shown)) = [["c"], ["b", "d"]] ∧
    (({} : Draft).perform (m.steps ⟨none⟩)).2 = none ∧
    m.head.fields.Perm (m.head.fields.filter (·.head.oneofIndex.isNone) ++
      m.head.oneofs.flatMap (·.members)) ∧
    (({} : Draft).perform (m.steps ⟨none⟩)).1.lines = [
      "",
      "M :: struct \x7b",
      "  a : i32 `id:\"2\" type:\"5\"`,",
      "",
      "  first: union \x7b",
      "    string,",
      "  \x7d,",
      "",
      "  last: struct #raw_union \x7b",
      "    b : i32 `id:\"1\" type:\"5\"`,",
      "    d : i32 `id:\"4\" type:\"17\"`,",
      "  \x7d,",
      "  last_variant: enum \x7b",
      "    b = 0,",
      "    d = 1,",
      "  \x7d,",
      "\x7d"] := by
  obtain ⟨loaded, hloads⟩ : ∃ loaded, Loads [countedFile] loaded := ⟨_, rfl⟩
  have hsplit : Loads ([] ++ countedFile :: []) loaded := hloads
  obtain ⟨f, m, hget, hm, -, -, -, hwritten⟩ :=
    fields_written_once hsplit (by simp) (a := { top := 0 }) rfl
  cases hloads
  cases hget
  cases hm
  have hperm := (hwritten (by decide +kernel) ⟨none⟩ {} (by decide +kernel)).1
  refine ⟨_, _, _, rfl, rfl, rfl, ?_, ?_, hperm, ?_⟩ <;> decide +kernel

end OdinSchema
