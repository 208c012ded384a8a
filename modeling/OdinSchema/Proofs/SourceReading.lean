import Mathlib.Data.List.Perm.Basic
import OdinSchema.Proofs.Listing
import OdinSchema.Proofs.MessageOrder

/-!
# Texts determine their declarations

`File.decls` lists what a file declares: each message, followed by the
messages and then the enums nested in it, then the aliases and the enums of
the file. A text is the lines of this list (`File.text_eq_decls`), and if the
names of a file are identifiers, and what it overrides fits on a line, the
list can be read from the text. So no two such files have the same text, unless
they declare the same.
-/

namespace OdinSchema

/-! ## The declarations of a file -/

/-- What a oneof is in the struct of its message. -/
def Oneof.body (scope : Scope) (o : Oneof) : OneofBody :=
  match o.plan with
  | .ok (.raw _) =>
    .rawUnion (o.members.map (·.declaration scope))
      (o.members.zipIdx.map fun x => (x.1.head.name.shown, (x.2 : Int)))
  | _ => .union (o.members.map (·.variantSpelling scope))

/-- The declaration of an enum. -/
def EnumType.decl (scope : Scope) (e : EnumType) : Decl :=
  .enum (scope.resolve e.fullName) (e.values.map fun v => (v.name.shown, v.number))

/-- The declaration of a message, what is nested in it left out. -/
def MessageHead.decl (scope : Scope) (m : MessageHead) : Decl :=
  .struct (scope.resolve m.fullName) (m.plainFields.map (·.declaration scope))
    (m.oneofs.map fun o => (o.name.shown, o.body scope))

mutual

/-- The declarations of a message and of all that is nested in it. -/
def Message.decls (scope : Scope) : Message → List Decl
  | .mk head nested =>
    head.decl scope :: (Message.nestedDecls scope nested ++ head.enums.map (·.decl scope))

/-- The declarations of nested messages, map entries left out. -/
def Message.nestedDecls (scope : Scope) : List Message → List Decl
  | [] => []
  | message :: rest =>
    (if message.head.isMapEntry then [] else message.decls scope) ++
      Message.nestedDecls scope rest

end

/-- The declarations of a file. -/
def File.decls (f : File) : List Decl :=
  f.messages.flatMap (·.decls f.scope) ++ f.aliases.map (fun a => .distinct a.1.shown a.2) ++
    f.enums.map (·.decl f.scope)

/-- Whether a declaration is a struct. -/
def Decl.isStruct : Decl → Bool
  | struct _ _ _ => true
  | _ => false

/-- Whether a declaration is an enum. -/
def Decl.isEnum : Decl → Bool
  | enum _ _ => true
  | _ => false

/-! ## Their lines -/

variable {scope : Scope}

theorem Oneof.lines_steps_of_plan {o : Oneof} (h : ∃ plan, o.plan = .ok plan) :
    Step.lines (o.steps scope 1) = "" :: (o.body scope).lines o.name.shown := by
  have hwritten : o.WrittenAs scope (Step.lines (o.steps scope 1)) := writtenAs_of_plan h
  generalize Step.lines (o.steps scope 1) = lines at hwritten
  cases hwritten with
  | union hplan => simp [body, hplan, OneofBody.lines, Field.variantSpelling_eq]
  | rawUnion hplan =>
    have hrepr : ∀ n : Nat, (n : Int).repr = n.repr := fun _ => rfl
    simp [body, hplan, OneofBody.lines, Field.declaration, numberText, Function.comp_def,
      String.append_assoc, hrepr]

theorem EnumType.lines_eq (e : EnumType) : e.lines scope = (e.decl scope).lines := by
  simp [lines, decl, Decl.lines, blockLines, valueLines, numberText, String.append_assoc]

theorem MessageHead.lines_eq {m : MessageHead} (h : m.Planned) :
    Step.lines (m.structSteps scope) = (m.decl scope).lines := by
  have honeofs : (m.oneofs.map fun o => Step.lines (o.steps scope 1)) =
      m.oneofs.map fun o => "" :: (o.body scope).lines o.name.shown :=
    List.map_congr_left fun o ho => o.lines_steps_of_plan (h o ho)
  have hfields : m.plainFields.map (·.line scope 1) =
      (m.plainFields.map (·.declaration scope)).map ("  " ++ ·) := by
    rw [List.map_map]
    rfl
  rw [lines_structSteps, honeofs, hfields, decl, Decl.lines, blockLines, structLines,
    List.flatMap_map, List.flatMap_def]
  simp

namespace Message

mutual

/-- **What is written of a message are the lines of its declarations.** -/
theorem lines_eq_decls : ∀ m : Message, m.head.isMapEntry = false →
    (∀ head ∈ m.emitted, head.Planned) → m.block scope = (m.decls scope).flatMap Decl.lines
  | mk head nested, hentry, hplanned => by
    have hhead : head.isMapEntry = false := hentry
    rw [emitted, List.forall_mem_cons] at hplanned
    have henums : Step.lines (head.enums.flatMap (·.steps scope)) =
        (head.enums.map (·.decl scope)).flatMap Decl.lines := by
      rw [Step.lines_flatMap, List.flatMap_map]
      refine List.flatMap_congr fun e _ => ?_
      rw [EnumType.steps, Step.lines_map_line, EnumType.lines_eq]
    rw [block, steps, hhead, if_neg Bool.false_ne_true, Step.lines_append, Step.lines_append,
      MessageHead.lines_eq hplanned.1, lines_nestedSteps nested hplanned.2, henums, decls,
      List.flatMap_cons, List.flatMap_append, List.append_assoc]

theorem lines_nestedSteps : ∀ ms : List Message, (∀ head ∈ emittedNested ms, head.Planned) →
    Step.lines (nestedSteps scope ms) = (nestedDecls scope ms).flatMap Decl.lines
  | [], _ => rfl
  | m :: rest, hplanned => by
    rw [emittedNested, List.forall_mem_append] at hplanned
    rw [nestedSteps, nestedDecls, Step.lines_append, List.flatMap_append,
      lines_nestedSteps rest hplanned.2]
    cases hentry : m.head.isMapEntry with
    | true => rfl
    | false =>
      rw [hentry] at hplanned
      exact congrArg (· ++ _) (lines_eq_decls m hentry hplanned.1)

end

end Message

/-- **A text is the lines of the declarations**, after what stands in front
of them. -/
theorem File.text_eq_decls {f : File} {base text : String} {version : Version}
    (h : f.source base version = .ok text) :
    text = joinLines (f.preamble base version ++ f.decls.flatMap Decl.lines) := by
  obtain ⟨-, hentries, hplans, -⟩ := draft_eq_none_iff.1 (source_eq_ok_iff.1 h).1
  have hplanned : ∀ m ∈ f.messages, ∀ head ∈ m.emitted, head.Planned := fun m hm head hhead o ho =>
    hplans o (List.mem_flatMap.2 ⟨head, List.mem_flatMap.2 ⟨m, hm, hhead⟩, ho⟩)
  have hmessages : f.messages.flatMap (·.block f.scope) =
      (f.messages.flatMap (·.decls f.scope)).flatMap Decl.lines := by
    rw [List.flatMap_assoc]
    exact List.flatMap_congr fun m hm => m.lines_eq_decls (hentries m hm) (hplanned m hm)
  have haliases : f.aliasLines =
      (f.aliases.map fun a => Decl.distinct a.1.shown a.2).flatMap Decl.lines := by
    rw [aliasLines, List.flatMap_map]
    exact List.map_eq_flatMap
  have henums : f.enumLines = (f.enums.map (·.decl f.scope)).flatMap Decl.lines := by
    rw [enumLines, List.flatMap_map]
    exact List.flatMap_congr fun e _ => e.lines_eq
  rw [text_of_source h, hmessages, haliases, henums, decls, List.flatMap_append,
    List.flatMap_append]
  simp only [List.append_assoc]

namespace Message

mutual

/-- The structs of a message are those of the messages that are written with
it, in their order. -/
theorem filter_isStruct_decls : ∀ m : Message,
    (m.decls scope).filter Decl.isStruct = m.emitted.map (·.decl scope)
  | mk head nested => by
    have henums : (head.enums.map (·.decl scope)).filter Decl.isStruct = [] := by
      simp [EnumType.decl, Decl.isStruct]
    rw [decls, List.filter_cons_of_pos rfl, List.filter_append, henums, List.append_nil,
      filter_isStruct_nestedDecls nested, emitted, List.map_cons]

theorem filter_isStruct_nestedDecls : ∀ ms : List Message,
    (nestedDecls scope ms).filter Decl.isStruct = (emittedNested ms).map (·.decl scope)
  | [] => rfl
  | m :: rest => by
    rw [nestedDecls, emittedNested, List.filter_append, List.map_append,
      filter_isStruct_nestedDecls rest]
    cases m.head.isMapEntry with
    | true => rfl
    | false => exact congrArg (· ++ _) (filter_isStruct_decls m)

end

mutual

/-- The enums of a message are those of the messages that are written with
it. -/
theorem filter_isEnum_decls : ∀ m : Message,
    ((m.decls scope).filter Decl.isEnum).Perm
      ((m.emitted.flatMap (·.enums)).map (·.decl scope))
  | mk head nested => by
    have henums : (head.enums.map (·.decl scope)).filter Decl.isEnum =
        head.enums.map (·.decl scope) := by
      simp [EnumType.decl, Decl.isEnum]
    rw [decls, List.filter_cons_of_neg Bool.false_ne_true, List.filter_append, henums, emitted,
      List.flatMap_cons, List.map_append]
    exact List.perm_append_comm.trans ((filter_isEnum_nestedDecls nested).append_left _)

theorem filter_isEnum_nestedDecls : ∀ ms : List Message,
    ((nestedDecls scope ms).filter Decl.isEnum).Perm
      (((emittedNested ms).flatMap (·.enums)).map (·.decl scope))
  | [] => .refl _
  | m :: rest => by
    rw [nestedDecls, emittedNested, List.filter_append, List.flatMap_append, List.map_append]
    refine List.Perm.append ?_ (filter_isEnum_nestedDecls rest)
    cases m.head.isMapEntry with
    | true => exact .refl _
    | false => exact filter_isEnum_decls m

end

end Message

namespace File

variable {f : File}

/-- **Every message that is written is declared by one struct**, in the same
order. -/
theorem filter_isStruct_decls :
    f.decls.filter Decl.isStruct = f.emitted.map (·.decl f.scope) := by
  have haliases :
      (f.aliases.map fun a => Decl.distinct a.1.shown a.2).filter Decl.isStruct = [] := by
    rw [List.filter_eq_nil_iff, List.forall_mem_map]
    exact fun a _ => Bool.false_ne_true
  have henums : (f.enums.map (·.decl f.scope)).filter Decl.isStruct = [] := by
    simp [EnumType.decl, Decl.isStruct]
  rw [decls, List.filter_append, List.filter_append, haliases, henums, List.append_nil,
    List.append_nil, List.filter_flatMap, emitted, List.map_flatMap]
  exact List.flatMap_congr fun m _ => m.filter_isStruct_decls

/-- **Every enum that is written is declared once.** -/
theorem filter_isEnum_decls : (f.decls.filter Decl.isEnum).Perm
    ((f.emitted.flatMap (·.enums) ++ f.enums).map (·.decl f.scope)) := by
  have haliases : (f.aliases.map fun a => Decl.distinct a.1.shown a.2).filter Decl.isEnum = [] := by
    rw [List.filter_eq_nil_iff, List.forall_mem_map]
    exact fun a _ => Bool.false_ne_true
  have henums : (f.enums.map (·.decl f.scope)).filter Decl.isEnum =
      f.enums.map (·.decl f.scope) := by
    simp [EnumType.decl, Decl.isEnum]
  rw [decls, List.filter_append, List.filter_append, haliases, henums, List.append_nil,
    List.filter_flatMap, emitted, List.flatMap_assoc, List.map_append, List.map_flatMap]
  exact (List.Perm.flatMap_left _ fun m _ => m.filter_isEnum_decls).append_right _

end File

namespace Message

variable {p : Decl → Prop}

mutual

/-- What is declared with a message are the messages that are written with it,
and their enums. -/
theorem forall_mem_decls : ∀ m : Message,
    (∀ head ∈ m.emitted, p (head.decl scope) ∧ ∀ e ∈ head.enums, p (e.decl scope)) →
    ∀ d ∈ m.decls scope, p d
  | mk head nested, h => by
    rw [emitted, List.forall_mem_cons] at h
    rw [decls, List.forall_mem_cons, List.forall_mem_append, List.forall_mem_map]
    exact ⟨h.1.1, forall_mem_nestedDecls nested h.2, h.1.2⟩

theorem forall_mem_nestedDecls : ∀ ms : List Message,
    (∀ head ∈ emittedNested ms, p (head.decl scope) ∧ ∀ e ∈ head.enums, p (e.decl scope)) →
    ∀ d ∈ nestedDecls scope ms, p d
  | [], _ => List.forall_mem_nil _
  | m :: rest, h => by
    rw [emittedNested, List.forall_mem_append] at h
    rw [nestedDecls, List.forall_mem_append]
    refine ⟨?_, forall_mem_nestedDecls rest h.2⟩
    cases hentry : m.head.isMapEntry with
    | true => exact List.forall_mem_nil _
    | false =>
      rw [hentry] at h
      exact forall_mem_decls m h.1

end

end Message

/-- **What a file declares** are the messages that are written, their enums
and its own, and the aliases of members of their oneofs. -/
theorem File.forall_mem_decls {f : File} {p : Decl → Prop}
    (hstruct : ∀ m ∈ f.emitted, p (m.decl f.scope))
    (henum : ∀ e ∈ f.emitted.flatMap (·.enums) ++ f.enums, p (e.decl f.scope))
    (halias : ∀ m ∈ f.emitted, ∀ o ∈ m.oneofs, ∀ x ∈ o.members, ∀ a ∈ x.aliasUse? f.scope,
      p (.distinct a.1.shown a.2)) : ∀ d ∈ f.decls, p d := by
  rw [List.forall_mem_append, List.forall_mem_flatMap] at henum
  rw [decls, List.forall_mem_append, List.forall_mem_append, List.forall_mem_flatMap,
    List.forall_mem_map, List.forall_mem_map]
  refine ⟨⟨fun m hm => m.forall_mem_decls fun head hhead => ?_, fun a ha => ?_⟩, henum.2⟩
  · have hmem : head ∈ f.emitted := List.mem_flatMap.2 ⟨m, hm, hhead⟩
    exact ⟨hstruct head hmem, henum.1 head hmem⟩
  · obtain ⟨x, hx, huse⟩ := List.mem_filterMap.1 (List.mem_eraseDups.1 ha)
    obtain ⟨o, ho, hmember⟩ := List.mem_flatMap.1 hx
    obtain ⟨m, hm, ho⟩ := List.mem_flatMap.1 ho
    have hmember : x ∈ o.members := by
      rw [Oneof.variants] at hmember
      split at hmember
      · exact hmember
      · exact absurd hmember List.not_mem_nil
    exact halias m hm o ho x hmember a huse

/-! ## Names -/

/-- A name that is an identifier. -/
def Verbatim.IsIdentifier (v : Verbatim) : Prop :=
  isIdentifier v.shown.toList = true

/-- A dotted name whose segments are identifiers. A dot may stand in front
of it. -/
def IsDotted (name : String) : Prop :=
  ∀ segment ∈ (dropDot name.toList).splitOn '.', isIdentifier segment = true

theorem continuesIdentifier_of_isIdentifier {cs : List Char} (h : isIdentifier cs = true) :
    ∀ c ∈ cs, continuesIdentifier c = true := by
  cases cs with
  | nil => exact fun c hc => absurd hc List.not_mem_nil
  | cons first rest =>
    rw [isIdentifier, Bool.and_eq_true] at h
    rw [List.forall_mem_cons]
    refine ⟨?_, List.all_eq_true.1 h.2⟩
    have hstart := h.1
    rw [startsIdentifier, Bool.or_eq_true] at hstart
    rw [continuesIdentifier, Bool.or_eq_true, Char.isAlphanum, Bool.or_eq_true]
    exact hstart.imp_left .inl

theorem Verbatim.IsIdentifier.isWord {v : Verbatim} (h : v.IsIdentifier) : IsWord v.shown :=
  continuesIdentifier_of_isIdentifier h

/-- A character of joined texts is one of the texts', or of what joins
them. -/
theorem mem_intercalate {α : Type} {separator : List α} {parts : List (List α)} {a : α}
    (h : a ∈ separator.intercalate parts) : a ∈ separator ∨ ∃ part ∈ parts, a ∈ part := by
  induction parts with
  | nil => simp at h
  | cons part rest ih =>
    cases rest with
    | nil => exact .inr ⟨part, List.mem_cons_self, by simpa using h⟩
    | cons next rest =>
      rw [List.intercalate_cons_cons, List.mem_append, List.mem_append] at h
      rcases h with (hpart | hseparator) | hrest
      · exact .inr ⟨part, List.mem_cons_self, hpart⟩
      · exact .inl hseparator
      · exact (ih hrest).imp_right fun ⟨p, hp, ha⟩ => ⟨p, List.mem_cons_of_mem _ hp, ha⟩

theorem IsDotted.continuesIdentifier {name : String} (h : IsDotted name) :
    ∀ c ∈ dropDot name.toList, c = '.' ∨ continuesIdentifier c = true := by
  intro c hc
  have hjoined : c ∈ ['.'].intercalate ((dropDot name.toList).splitOn '.') := by
    rw [List.intercalate_splitOn]
    exact hc
  rcases mem_intercalate hjoined with hdot | ⟨segment, hsegment, hchar⟩
  · exact .inl (List.mem_singleton.1 hdot)
  · exact .inr (continuesIdentifier_of_isIdentifier (h segment hsegment) c hchar)

/-- A dotted name is declared under a name without dots. -/
theorem IsDotted.isWord_flatten {name : String} (h : IsDotted name) (package : Option String) :
    IsWord (flatten package name) := by
  intro c hc
  rw [flatten, String.toList_ofList, List.mem_map] at hc
  obtain ⟨a, ha, rfl⟩ := hc
  have hkept : ∀ package chars : List Char, relativeTo package chars ⊆ chars := by
    intro package chars
    rw [relativeTo]
    split
    · exact List.Subset.refl _
    · cases hprefix : (package ++ ['.']).isPrefixOf? chars with
      | none => exact List.Subset.refl _
      | some rest =>
        exact List.isPrefixOf?_eq_some_iff_append_eq.1 hprefix ▸ List.subset_append_right _ _
  split
  · decide
  · exact (h.continuesIdentifier a (hkept _ _ ha)).resolve_left ‹_›

/-- A field whose name is an identifier, that refers to types by dotted names
and whose override fits on a line. -/
structure Field.WellNamed (f : Field) : Prop where
  name : f.head.name.IsIdentifier
  types : ∀ part ∈ f.parts, ∀ type ∈ part.head.reference?, IsDotted type
  override : ∀ o ∈ f.head.override, ∀ v ∈ o.external.toList ++ o.typedef.toList,
    SingleLine v.shown

/-- An enum whose names are identifiers. -/
structure EnumType.WellNamed (e : EnumType) : Prop where
  fullName : IsDotted e.fullName
  values : ∀ v ∈ e.values, v.name.IsIdentifier

/-- A message whose names are identifiers, what is nested in it left out. -/
structure MessageHead.WellNamed (m : MessageHead) : Prop where
  fullName : IsDotted m.fullName
  fields : ∀ x ∈ m.plainFields, x.WellNamed
  oneofs : ∀ o ∈ m.oneofs, o.name.IsIdentifier ∧ ∀ x ∈ o.members, x.WellNamed
  enums : ∀ e ∈ m.enums, e.WellNamed

/-- A file whose names are identifiers. -/
structure File.WellNamed (f : File) : Prop where
  package : ∀ name ∈ f.package.bind Verbatim.text?, name ≠ "" → IsDotted name
  messages : ∀ m ∈ f.emitted, m.WellNamed
  enums : ∀ e ∈ f.enums, e.WellNamed

instance (v : Verbatim) : Decidable v.IsIdentifier :=
  inferInstanceAs (Decidable (isIdentifier v.shown.toList = true))

instance (name : String) : Decidable (IsDotted name) :=
  inferInstanceAs (Decidable (∀ segment ∈ (dropDot name.toList).splitOn '.',
    isIdentifier segment = true))

instance (f : Field) : Decidable f.WellNamed :=
  decidable_of_iff (f.head.name.IsIdentifier ∧
    (∀ part ∈ f.parts, ∀ type ∈ part.head.reference?, IsDotted type) ∧
    ∀ o ∈ f.head.override, ∀ v ∈ o.external.toList ++ o.typedef.toList, SingleLine v.shown)
  ⟨fun ⟨hname, htypes, hoverride⟩ => ⟨hname, htypes, hoverride⟩,
    fun ⟨hname, htypes, hoverride⟩ => ⟨hname, htypes, hoverride⟩⟩

instance (e : EnumType) : Decidable e.WellNamed :=
  decidable_of_iff (IsDotted e.fullName ∧ ∀ v ∈ e.values, v.name.IsIdentifier)
  ⟨fun ⟨hname, hvalues⟩ => ⟨hname, hvalues⟩, fun ⟨hname, hvalues⟩ => ⟨hname, hvalues⟩⟩

instance (m : MessageHead) : Decidable m.WellNamed :=
  decidable_of_iff (IsDotted m.fullName ∧ (∀ x ∈ m.plainFields, x.WellNamed) ∧
    (∀ o ∈ m.oneofs, o.name.IsIdentifier ∧ ∀ x ∈ o.members, x.WellNamed) ∧
    ∀ e ∈ m.enums, e.WellNamed)
  ⟨fun ⟨hname, hfields, honeofs, henums⟩ => ⟨hname, hfields, honeofs, henums⟩,
    fun ⟨hname, hfields, honeofs, henums⟩ => ⟨hname, hfields, honeofs, henums⟩⟩

instance (f : File) : Decidable f.WellNamed :=
  decidable_of_iff ((∀ name ∈ f.package.bind Verbatim.text?, name ≠ "" → IsDotted name) ∧
    (∀ m ∈ f.emitted, m.WellNamed) ∧ ∀ e ∈ f.enums, e.WellNamed)
  ⟨fun ⟨hpackage, hmessages, henums⟩ => ⟨hpackage, hmessages, henums⟩,
    fun ⟨hpackage, hmessages, henums⟩ => ⟨hpackage, hmessages, henums⟩⟩

/-! ## What is written of them -/

/-- A text without blanks and line breaks. -/
def Blankless (text : String) : Prop :=
  ∀ c ∈ text.toList, c ≠ ' ' ∧ c ≠ '\n'

-- by a run through the text; there is another instance, by a run through all characters
instance (text : String) : Decidable (Blankless text) :=
  List.decidableBAll (fun c => c ≠ ' ' ∧ c ≠ '\n') text.toList

@[simp] theorem blankless_append {a b : String} :
    Blankless (a ++ b) ↔ Blankless a ∧ Blankless b := by
  simp only [Blankless, String.toList_append, List.forall_mem_append]

theorem IsWord.blankless {name : String} (h : IsWord name) : Blankless name := by
  intro c hc
  constructor
  · rintro rfl
    exact absurd (h _ hc) (by decide)
  · rintro rfl
    exact absurd (h _ hc) (by decide)

theorem Blankless.singleLine {text : String} (h : Blankless text) : SingleLine text :=
  fun hbreak => (h _ hbreak).2 rfl

theorem TypeCode.blankless_builtin (code : TypeCode) : Blankless code.builtin := by
  unfold builtin
  split <;> decide

/-- Types are spelled without blanks. -/
theorem Field.blankless_spelling {f : Field}
    (h : ∀ part ∈ f.parts, ∀ type ∈ part.head.reference?, IsDotted type) :
    Blankless (f.spelling scope) := by
  induction f with
  | single head =>
    have hbase : Blankless (head.baseSpelling scope) := by
      rw [FieldHead.baseSpelling]
      cases hreference : head.reference? with
      | none => exact head.code.blankless_builtin
      | some type =>
        have hdotted := h _ (List.mem_singleton.2 rfl) type hreference
        exact (hdotted.isWord_flatten _).blankless
    rw [spelling]
    split
    · exact blankless_append.2 ⟨by decide, hbase⟩
    · exact hbase
  | map head key value ihkey ihvalue =>
    rw [parts, List.forall_mem_cons, List.forall_mem_append] at h
    rw [spelling, blankless_append, blankless_append, blankless_append]
    exact ⟨⟨⟨by decide, ihkey h.2.1⟩, by decide⟩, ihvalue h.2.2⟩

theorem singleLine_tagEntry {key value : String} (hkey : SingleLine key)
    (hvalue : SingleLine value) : SingleLine (tagEntry key value) := by
  simp only [tagEntry, singleLine_append]
  exact ⟨⟨⟨hkey, by decide⟩, hvalue⟩, by decide⟩

theorem Field.singleLine_tag (f : Field) : SingleLine f.tag := by
  have hentries : ∀ entry ∈ f.tagEntries, SingleLine entry := by
    have hnumber : ∀ (key : String) (n : Int), SingleLine key →
        SingleLine (tagEntry key (toString n)) := fun key n hkey =>
      singleLine_tagEntry hkey (singleLine_toString n)
    rw [tagEntries, List.forall_mem_append, List.forall_mem_append]
    refine ⟨⟨?_, ?_⟩, ?_⟩
    · simp only [List.forall_mem_cons]
      exact ⟨hnumber _ _ (by decide), hnumber _ _ (by decide), List.forall_mem_nil _⟩
    · split
      · simp only [List.forall_mem_cons]
        refine ⟨singleLine_tagEntry (by decide) ?_, List.forall_mem_nil _⟩
        split <;> decide
      · exact List.forall_mem_nil _
    · split
      · simp only [List.forall_mem_cons]
        exact ⟨hnumber _ _ (by decide), hnumber _ _ (by decide), List.forall_mem_nil _⟩
      · exact List.forall_mem_nil _
  intro hbreak
  rw [tag, String.toList_intercalate] at hbreak
  rcases mem_intercalate hbreak with hblank | ⟨chars, hchars, hmem⟩
  · exact absurd hblank (by decide)
  · obtain ⟨entry, hentry, rfl⟩ := List.mem_map.1 hchars
    exact hentries entry hentry hmem

namespace Field.WellNamed

variable {f : Field} (h : f.WellNamed)

include h

theorem singleLine_declaration : SingleLine (f.declaration scope) := by
  simp only [declaration, singleLine_append]
  exact ⟨⟨⟨⟨⟨h.name.isWord.singleLine, by decide⟩, (blankless_spelling h.types).singleLine⟩,
    by decide⟩, f.singleLine_tag⟩, by decide⟩

theorem singleLine_variantSpelling : SingleLine (f.variantSpelling scope) := by
  have hspelling : SingleLine (f.spelling scope) := (blankless_spelling h.types).singleLine
  rw [variantSpelling]
  cases hoverride : f.head.override with
  | none => exact hspelling
  | some override =>
    have hnames := h.override override hoverride
    rcases override with ⟨_ | external, _ | typedef⟩
    · exact hspelling
    · exact hnames typedef List.mem_cons_self
    · exact hnames external List.mem_cons_self
    · exact hnames external List.mem_cons_self

/-- An alias of a field is declared in one line. -/
theorem readable_aliasUse {a : Verbatim × String} (ha : f.aliasUse? scope = some a) :
    (Decl.distinct a.1.shown a.2).Readable := by
  obtain ⟨name, hname, rfl⟩ := Option.map_eq_some_iff.1 ha
  have hblankless : Blankless (f.spelling scope) := blankless_spelling h.types
  refine ⟨?_, hblankless.singleLine, fun hblank => (hblankless _ hblank).1 rfl⟩
  rw [FieldHead.ownAlias?] at hname
  split at hname
  · exact h.override _ ‹_› name (List.mem_append_right _ (Option.mem_toList.2 hname))
  · cases hname

end Field.WellNamed

theorem EnumType.WellNamed.readable {e : EnumType} (h : e.WellNamed) :
    (e.decl scope).Readable := by
  refine ⟨h.fullName.isWord_flatten _, ?_⟩
  rw [List.forall_mem_map]
  exact fun v hv => (h.values v hv).isWord

theorem Oneof.readable_body {o : Oneof} (h : ∀ x ∈ o.members, x.WellNamed) :
    (o.body scope).Readable := by
  rw [body]
  split
  · refine ⟨?_, ?_⟩
    · rw [List.forall_mem_map]
      exact fun x hx => (h x hx).singleLine_declaration
    · rw [List.forall_mem_map]
      exact fun x hx => (h x.1 (List.fst_mem_of_mem_zipIdx hx)).name.isWord
  · rw [OneofBody.Readable, List.forall_mem_map]
    exact fun x hx => (h x hx).singleLine_variantSpelling

theorem MessageHead.WellNamed.readable {m : MessageHead} (h : m.WellNamed) :
    (m.decl scope).Readable := by
  refine ⟨h.fullName.isWord_flatten _, ?_, ?_⟩
  · rw [List.forall_mem_map]
    exact fun x hx => (h.fields x hx).singleLine_declaration
  · rw [List.forall_mem_map]
    exact fun o ho => ⟨(h.oneofs o ho).1.isWord, o.readable_body (h.oneofs o ho).2⟩

namespace File.WellNamed

variable {f : File} (h : f.WellNamed)

include h

/-- **What a well named file declares can be read.** -/
theorem readable_decls : ∀ d ∈ f.decls, d.Readable := by
  refine forall_mem_decls (fun m hm => (h.messages m hm).readable) (fun e he => ?_) ?_
  · rcases List.mem_append.1 he with he | he
    · obtain ⟨m, hm, he⟩ := List.mem_flatMap.1 he
      exact ((h.messages m hm).enums e he).readable
    · exact (h.enums e he).readable
  · intro m hm o ho x hx a ha
    exact (((h.messages m hm).oneofs o ho).2 x hx).readable_aliasUse ha

theorem isWord_packageName {base : String} (hbase : isIdentifier base.toList = true) :
    IsWord (f.packageName base) := by
  have hbase : IsWord base := continuesIdentifier_of_isIdentifier hbase
  rw [packageName, packageIdentifier]
  cases hpackage : (f.package.bind Verbatim.text?).filter (· ≠ "") with
  | none => exact hbase
  | some package =>
    obtain ⟨hname, hempty⟩ := Option.filter_eq_some_iff.1 hpackage
    have hflat := (h.package package hname (of_decide_eq_true hempty)).isWord_flatten none
    intro c hc
    simp only [String.toList_append, List.mem_append] at hc
    rcases hc with (hc | hc) | hc
    · exact hbase c hc
    · rw [List.mem_singleton.1 hc]
      decide
    · exact hflat c hc

end File.WellNamed

theorem singleLine_header (version : Version) : ∀ line ∈ header version, SingleLine line := by
  have hversion : SingleLine version.text := by
    simp only [Version.text, singleLine_append]
    exact ⟨⟨⟨⟨singleLine_toString _, by decide⟩, singleLine_toString _⟩, by decide⟩,
      singleLine_toString _⟩
  simp only [header, List.forall_mem_cons, singleLine_append]
  exact ⟨by decide, ⟨by decide, hversion⟩, by decide, List.forall_mem_nil _⟩

/-- The text of a well named file is read as its package and its
declarations. -/
theorem File.WellNamed.readSource_eq {f : File} {base text : String} {version : Version}
    (h : f.WellNamed) (hbase : isIdentifier base.toList = true)
    (hsource : f.source base version = .ok text) :
    readSource text = (f.packageName base, f.decls) := by
  have hpreamble : ∀ line ∈ f.preamble base version, SingleLine line := by
    simp only [preamble, List.forall_mem_append, List.forall_mem_cons, singleLine_append]
    exact ⟨singleLine_header version, by decide,
      ⟨by decide, (h.isWord_packageName hbase).singleLine⟩, List.forall_mem_nil _⟩
  have hdecls : ∀ line ∈ f.decls.flatMap Decl.lines, SingleLine line := by
    rw [List.forall_mem_flatMap]
    exact fun d hd => (h.readable_decls d hd).singleLine
  have hlines : linesOf text = f.preamble base version ++ f.decls.flatMap Decl.lines := by
    rw [text_eq_decls hsource]
    exact linesOf_joinLines (List.forall_mem_append.2 ⟨hpreamble, hdecls⟩)
  have hdrop : (linesOf text).drop 5 = f.decls.flatMap Decl.lines := by
    rw [hlines]
    rfl
  have hpackage : (linesOf text).getD 4 "" = "package " ++ f.packageName base := by
    rw [hlines]
    rfl
  rw [readSource, hdrop, hpackage, unindented_append, readDecls_lines h.readable_decls]

/-- **The text of a file determines its declarations.** If the names of a file
are identifiers and its overrides are free of line breaks, its text is read
back as its package and its declarations. These have one struct for each
message that is written, in the same order, and one enum for each enum. Such
files with the same text have the same package and the same declarations,
whatever the version in front of them. -/
theorem source_determines_declarations {f : File} {base text : String} {version : Version}
    (h : f.WellNamed) (hbase : isIdentifier base.toList = true)
    (hsource : f.source base version = .ok text) :
    readSource text = (f.packageName base, f.decls) ∧
      f.decls.filter Decl.isStruct = f.emitted.map (·.decl f.scope) ∧
      (f.decls.filter Decl.isEnum).Perm
        ((f.emitted.flatMap (·.enums) ++ f.enums).map (·.decl f.scope)) ∧
      ∀ (g : File) (otherBase : String) (otherVersion : Version), g.WellNamed →
        isIdentifier otherBase.toList = true → g.source otherBase otherVersion = .ok text →
        g.packageName otherBase = f.packageName base ∧ g.decls = f.decls := by
  have hread := h.readSource_eq hbase hsource
  refine ⟨hread, f.filter_isStruct_decls, f.filter_isEnum_decls, ?_⟩
  intro g otherBase otherVersion hg hotherBase hother
  have hsame := (hg.readSource_eq hotherBase hother).symm.trans hread
  exact Prod.mk.inj hsame

/-- A file whose overrides look like parts of a listing: an alias named as a
declaration of an alias, and a variant named as the end of its union. A map
entry and an enum are nested in its message. -/
def disguisedFile : File where
  name := "disguised.proto"
  package := some "a.b"
  messages := [.mk
    { name := "M"
      fullName := "a.b.M"
      fields := [.map { name := "n", code := 11, kind := .map, cardinality := .repeated }
        (.single { name := "key", code := 9 })
        (.single { name := "value", code := 14, kind := .enum, typeName := some "a.b.M.E" })]
      oneofs := [
        { name := "kind"
          fullName := "a.b.M.kind"
          members := [
            .single
              { name := "x", code := 5, override := some { typedef := some "A :: distinct B" } },
            .single { name := "y", code := 9, override := some { external := some "  \x7d," } }] },
        { name := "pair"
          fullName := "a.b.M.pair"
          members := [.single { name := "l", code := 5 }, .single { name := "r", code := 5 }] }]
      enums := [{ name := "E", fullName := "a.b.M.E", values := [⟨"LOW", -1⟩] }] }
    [.mk { name := "NEntry", fullName := "a.b.M.NEntry", isMapEntry := true } []]]

theorem source_determines_declarations_disguised :
    ∃ text, disguisedFile.source "odin" {} = .ok text ∧ readSource text = ("odin_a_b",
      [.struct "M" ["n : map[string]M_E `id:\"1\" type:\"11\" key_type:\"9\" value_type:\"14\"`,"]
        [("kind", .union ["A :: distinct B", "  \x7d,"]),
          ("pair", .rawUnion ["l : i32 `id:\"1\" type:\"5\"`,", "r : i32 `id:\"1\" type:\"5\"`,"]
            [("l", 0), ("r", 1)])],
      .enum "M_E" [("LOW", -1)],
      .distinct "A :: distinct B" "i32"]) := by
  have hnames : disguisedFile.WellNamed := by decide +kernel
  have hdraft : (disguisedFile.draft "odin" {}).2 = none := by decide +kernel
  have htext := File.source_eq_ok_iff.2 ⟨hdraft, rfl⟩
  refine ⟨_, htext, (source_determines_declarations hnames (by decide) htext).1.trans ?_⟩
  decide +kernel

end OdinSchema
