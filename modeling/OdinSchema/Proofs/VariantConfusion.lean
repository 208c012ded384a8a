import OdinSchema.Proofs.VariantClash

/-!
# Variants taken for one another

A oneof whose members are written differently should become a tagged union,
and the scan that decides so compares keys. A key can be coarser than a
spelling: all enums and groups share the empty one, a message has its full
name, and none tells a repeated field from a single one. So members that are
written differently may be taken for one type. `Confusion` lists the ways,
and `tagged_iff_no_confusion` says that there is no other: where none of
them occurs, different spellings do give a tagged union.
-/

namespace OdinSchema

/-! ## Names without dots -/

/-- A name without dots lies in no package and is its own identifier. -/
theorem Scope.resolve_of_no_dot (scope : Scope) {name : String} (h : '.' ∉ name.toList) :
    scope.resolve name = name := by
  have hdrop : dropDot name.toList = name.toList := by
    unfold dropDot
    split
    · rename_i rest heq
      exact absurd (heq ▸ List.mem_cons_self) h
    · rfl
  have hrelative : ∀ package, relativeTo package name.toList = name.toList := by
    intro package
    unfold relativeTo
    split
    · rfl
    · have hnone : (package ++ ['.']).isPrefixOf? name.toList = none := by
        rw [← Option.not_isSome_iff_eq_none, List.isSome_isPrefixOf?_eq_isPrefixOf,
          List.isPrefixOf_iff_prefix]
        intro hstarts
        exact h (hstarts.subset (by simp))
      rw [hnone, Option.getD_none]
  have hmap : name.toList.map (fun c => if c = '.' then '_' else c) = name.toList := by
    refine (List.map_congr_left fun c hc => if_neg ?_).trans (List.map_id' _)
    exact fun hdot => h (hdot ▸ hc)
  rw [resolve, flatten, hdrop, hrelative, hmap, String.ofList_toList]

/-- No builtin type has a dot in its name. -/
theorem TypeCode.no_dot_builtin (code : TypeCode) : '.' ∉ code.builtin.toList := by
  unfold builtin
  split <;> decide

/-! ## Keys of types -/

/-- The key of a member's type where no option overrides it: the full name
of a message, the builtin type of anything else. -/
def FieldHead.typeKey (f : FieldHead) : String :=
  if f.code = TypeCode.message then f.typeName.getD "" else f.code.builtin

/-- A member without a key: its option sets nothing, or it has none and is
an enum, a group or a message without a name. -/
def FieldHead.Unkeyed (f : FieldHead) : Prop :=
  f.overrideName? = none ∧ (f.override = none → f.typeKey = "")

namespace FieldHead

variable {f : FieldHead}

theorem variantKey_of_no_override (h : f.override = none) : f.variantKey = .text f.typeKey := by
  simp only [variantKey, typeKey, h]
  split <;> rfl

theorem overrideName?_of_no_override (h : f.override = none) : f.overrideName? = none := by
  rw [overrideName?, h, Option.bind_none]

/-- An override that passes its own check gives no empty name. -/
theorem overrideName?_ne_empty (h : f.overrideFault? = none) :
    f.overrideName? ≠ some (.text "") := by
  intro hname
  obtain ⟨override, hoverride, hname⟩ := Option.bind_eq_some_iff.1 hname
  rw [overrideFault?, hoverride, Option.bind_some, Override.fault?] at h
  by_cases hexternal : override.external = some (.text "")
  · simp [hexternal] at h
  · have htypedef : override.typedef = some (.text "") := by
      cases hset : override.external with
      | none => simpa [hset] using hname
      | some name =>
        rw [hset] at hname hexternal
        exact absurd hname hexternal
    simp [hexternal, htypedef] at h

/-- A member has the empty key exactly if it is unkeyed. -/
theorem variantKey_eq_empty_iff (h : f.overrideFault? = none) :
    f.variantKey = "" ↔ f.Unkeyed := by
  cases hname : f.overrideName? with
  | some name =>
    have hne : name ≠ "" := fun hempty => overrideName?_ne_empty h (hempty ▸ hname)
    rw [variantKey_of_name hname]
    simp [Unkeyed, hname, hne]
  | none =>
    cases hoverride : f.override with
    | none =>
      rw [variantKey_of_no_override hoverride]
      simp [Unkeyed, hname, hoverride]
    | some override =>
      have hunset : (override.external <|> override.typedef) = none := by
        rwa [overrideName?, hoverride, Option.bind_some] at hname
      have hkey : f.variantKey = "" := by
        unfold variantKey
        rw [hoverride]
        simp only [Override.key, hunset, Option.getD_none]
      simp [Unkeyed, hname, hoverride, hkey]

/-- A key that is not empty is the name of an override or the key of a
type. -/
theorem variantKey_cases (h : f.overrideFault? = none) (hkey : f.variantKey ≠ "") :
    (∃ name, f.overrideName? = some name) ∨ f.override = none := by
  by_contra hcases
  rw [not_or, not_exists] at hcases
  refine hkey ((variantKey_eq_empty_iff h).2 ⟨?_, fun hnone => absurd hnone hcases.2⟩)
  exact Option.eq_none_iff_forall_ne_some.2 hcases.1

end FieldHead

/-- A single member with a type key is written as the identifier of that
key, be it a message or a builtin. -/
theorem FieldDescriptor.Describes.spelling_eq_resolve {d : FieldDescriptor} {x : Field}
    {scope : Scope} (h : d.Describes x) (hsingle : x.head.cardinality ≠ .repeated)
    (hkey : x.head.typeKey ≠ "") : x.spelling scope = scope.resolve x.head.typeKey := by
  rw [h.spelling_eq hsingle]
  unfold FieldHead.typeKey at hkey ⊢
  by_cases hcode : x.head.code = TypeCode.message
  · rw [if_pos hcode, h.typeName_of_message hsingle hcode] at hkey ⊢
    cases htype : x.head.reference? with
    | none => exact absurd (by rw [htype, Option.getD_none]) hkey
    | some type => rw [FieldHead.baseSpelling_of_reference htype, Option.getD_some]
  · rw [if_neg hcode] at hkey ⊢
    have hnone : x.head.reference? = none := by
      by_contra hsome
      obtain ⟨type, htype⟩ := Option.ne_none_iff_exists'.1 hsome
      exact hkey (h.builtin_of_reference hsingle htype)
    rw [FieldHead.baseSpelling_of_no_reference hnone,
      scope.resolve_of_no_dot (TypeCode.no_dot_builtin _)]

/-! ## Confusion -/

variable {scope : Scope} {x y : Field}

/-- The ways a member `x` of a oneof is taken for the type of another member
`y`, though the two may be written differently. -/
inductive Confusion (x y : Field) : Prop where
  /-- Neither has a key. -/
  | unkeyed (hx : x.head.Unkeyed) (hy : y.head.Unkeyed)
  /-- The override of `x` gives the full name of the message `y`. -/
  | qualified {type : String} (hx : x.head.overrideName? = some (.text type))
      (hy : y.head.override = none) (hcode : y.head.code = TypeCode.message)
      (htype : y.head.typeName = some type)
  /-- `y` is repeated, and `x` has the type of its elements or is given that
  name. -/
  | elements (hy : y.head.override = none) (hrepeated : y.head.cardinality = .repeated)
      (hx : x.head.overrideName? = some (.text y.head.typeKey) ∨
        x.head.override = none ∧ x.head.typeKey = y.head.typeKey)

/-- Confused members have one key. -/
theorem Confusion.variantKey_eq (h : Confusion x y) (hxfault : x.head.overrideFault? = none)
    (hyfault : y.head.overrideFault? = none) : x.head.variantKey = y.head.variantKey := by
  cases h with
  | unkeyed hx hy =>
    rw [(FieldHead.variantKey_eq_empty_iff hxfault).2 hx,
      (FieldHead.variantKey_eq_empty_iff hyfault).2 hy]
  | qualified hx hy hcode htype =>
    rw [FieldHead.variantKey_of_name hx, FieldHead.variantKey_of_no_override hy,
      FieldHead.typeKey, if_pos hcode, htype, Option.getD_some]
  | elements hy hrepeated hx =>
    rw [FieldHead.variantKey_of_no_override hy]
    rcases hx with hx | ⟨hx, htype⟩
    · rw [FieldHead.variantKey_of_name hx]
    · rw [FieldHead.variantKey_of_no_override hx, htype]

section

variable {d e : FieldDescriptor} (he : e.Describes y)

include he

/-- An override that gives another member's key, and not its spelling,
confuses the two. -/
theorem confusion_of_name {name : Verbatim} (hx : x.head.overrideName? = some name)
    (hy : y.head.override = none) (hkey : name = .text y.head.typeKey)
    (hempty : y.head.typeKey ≠ "")
    (hspelling : x.variantSpelling scope ≠ y.variantSpelling scope) : Confusion x y := by
  subst hkey
  by_cases hcode : y.head.code = TypeCode.message
  · have htype : y.head.typeName = some y.head.typeKey := by
      unfold FieldHead.typeKey at hempty ⊢
      rw [if_pos hcode] at hempty ⊢
      cases htype : y.head.typeName with
      | none => exact absurd (by rw [htype, Option.getD_none]) hempty
      | some type => rw [Option.getD_some]
    exact .qualified hx hy hcode htype
  · by_cases hrepeated : y.head.cardinality = .repeated
    · exact .elements hy hrepeated (.inl hx)
    · -- a single builtin is written as its key, which is the name given to `x`
      refine absurd ?_ hspelling
      have hbuiltin : y.head.typeKey = y.head.code.builtin := if_neg hcode
      rw [Field.variantSpelling_of_name hx,
        Field.variantSpelling_of_no_name (FieldHead.overrideName?_of_no_override hy),
        he.spelling_eq_resolve hrepeated hempty,
        scope.resolve_of_no_dot (hbuiltin ▸ TypeCode.no_dot_builtin _)]
      rfl

variable (hd : d.Describes x)

include hd

/-- **Members with one key are confused** if they are written
differently. -/
theorem confusion_of_variantKey_eq (hxfault : x.head.overrideFault? = none)
    (hyfault : y.head.overrideFault? = none)
    (hspelling : x.variantSpelling scope ≠ y.variantSpelling scope)
    (hkeys : x.head.variantKey = y.head.variantKey) : Confusion x y ∨ Confusion y x := by
  by_cases hempty : x.head.variantKey = ""
  · refine .inl (.unkeyed ((FieldHead.variantKey_eq_empty_iff hxfault).1 hempty) ?_)
    exact (FieldHead.variantKey_eq_empty_iff hyfault).1 (hkeys ▸ hempty)
  have htypeKey : ∀ z : Field, z.head.override = none → z.head.variantKey = x.head.variantKey →
      z.head.typeKey ≠ "" := by
    intro z hz hkey hnil
    rw [FieldHead.variantKey_of_no_override hz, hnil] at hkey
    exact hempty hkey.symm
  rcases FieldHead.variantKey_cases hxfault hempty with ⟨name, hx⟩ | hx
  · rcases FieldHead.variantKey_cases hyfault (hkeys ▸ hempty) with ⟨other, hy⟩ | hy
    · -- two overrides with one name are written alike
      rw [FieldHead.variantKey_of_name hx, FieldHead.variantKey_of_name hy] at hkeys
      rw [Field.variantSpelling_of_name hx, Field.variantSpelling_of_name hy, hkeys] at hspelling
      exact absurd rfl hspelling
    · refine .inl (confusion_of_name he hx hy ?_ (htypeKey y hy hkeys.symm) hspelling)
      rwa [FieldHead.variantKey_of_name hx, FieldHead.variantKey_of_no_override hy] at hkeys
  · rcases FieldHead.variantKey_cases hyfault (hkeys ▸ hempty) with ⟨other, hy⟩ | hy
    · refine .inr (confusion_of_name hd hy hx ?_ (htypeKey x hx rfl) (Ne.symm hspelling))
      rwa [FieldHead.variantKey_of_name hy, FieldHead.variantKey_of_no_override hx,
        eq_comm] at hkeys
    · have htype : x.head.typeKey = y.head.typeKey := by
        rw [FieldHead.variantKey_of_no_override hx, FieldHead.variantKey_of_no_override hy] at hkeys
        exact Verbatim.text.inj hkeys
      by_cases hyrepeated : y.head.cardinality = .repeated
      · exact .inl (.elements hy hyrepeated (.inr ⟨hx, htype⟩))
      by_cases hxrepeated : x.head.cardinality = .repeated
      · exact .inr (.elements hx hxrepeated (.inr ⟨hy, htype.symm⟩))
      -- two single members of one type are written alike
      refine absurd ?_ hspelling
      rw [Field.variantSpelling_of_no_name (FieldHead.overrideName?_of_no_override hx),
        Field.variantSpelling_of_no_name (FieldHead.overrideName?_of_no_override hy),
        hd.spelling_eq_resolve hxrepeated (htypeKey x hx rfl),
        he.spelling_eq_resolve hyrepeated (htypeKey y hy hkeys.symm), htype]

end

/-- **Members that are written differently give a tagged union exactly if no
two of them are confused.** This holds of every oneof that is loaded, in
every scope, if no override is set to an empty name. -/
theorem tagged_iff_no_confusion {files : List FileDescriptor} {name : Verbatim} {o : Oneof}
    (ho : o ∈ loadedOneofs files name) (scope : Scope)
    (hfaults : ∀ x ∈ o.members, x.head.overrideFault? = none)
    (hspellings : (o.members.map (·.variantSpelling scope)).Nodup) :
    o.plan = .ok .tagged ↔
      ∀ x ∈ o.members, ∀ y ∈ o.members, x ≠ y → ¬ Confusion x y := by
  have hdescribes := describes_of_mem_loadedOneofs ho
  rw [Oneof.plan_eq_tagged_iff]
  constructor
  · rintro ⟨-, hkeys⟩ x hx y hy hne hconfusion
    have hkey := hconfusion.variantKey_eq (hfaults x hx) (hfaults y hy)
    exact hne (List.inj_on_of_nodup_map hkeys hx hy hkey)
  · intro hconfusion
    refine ⟨hfaults, ?_⟩
    rw [List.Nodup, List.pairwise_map] at hspellings ⊢
    -- at different positions the spellings differ, so one key means a confusion
    refine hspellings.imp_of_mem fun {x y} hx hy hspelling hkey => ?_
    obtain ⟨d, hd⟩ := hdescribes x hx
    obtain ⟨e, he⟩ := hdescribes y hy
    have hne : x ≠ y := fun hsame => hspelling (by rw [hsame])
    rcases confusion_of_variantKey_eq he hd (hfaults x hx) (hfaults y hy) hspelling hkey with h | h
    · exact hconfusion x hx y hy hne h
    · exact hconfusion y hy x hx (Ne.symm hne) h

/-- A file with two enums, a message of its own and a message that has one
oneof with the given members. -/
def choiceFile (members : List FieldDescriptor) : FileDescriptor where
  name := "a.proto"
  package := "p"
  dialect := "proto3"
  enums := [
    { name := "Color", values := [⟨"RED", 0⟩] },
    { name := "Size", values := [⟨"SMALL", 0⟩] }]
  messages := [.mk { name := "Point" } [],
    .mk { name := "Pick", oneofs := ["choice"], fields := members } []]

/-- A member of the oneof by its name and number, its type code and its
type. -/
def choiceMember (name : String) (number : Int) (code : TypeCode) (type : String) :
    FieldDescriptor where
  name := name
  number := number
  code := code
  typeName := type
  oneofIndex := some 0

/-- The oneof of the file, loaded. -/
def choiceOneof (members : List FieldHead) : Oneof where
  name := "choice"
  fullName := "p.Pick.choice"
  members := members.map .single

/-- A text, a message and an enum are told apart. -/
theorem tagged_iff_no_confusion_one_enum :
    let o := choiceOneof [
      { name := "text", number := 1, code := 9, oneof := some "choice", oneofIndex := some 0 },
      { name := "point", number := 2, code := 11, kind := .message, typeName := some "p.Point",
        oneof := some "choice", oneofIndex := some 0 },
      { name := "color", number := 3, code := 14, kind := .enum, typeName := some "p.Color",
        oneof := some "choice", oneofIndex := some 0 }]
    let files := [choiceFile [choiceMember "text" 1 9 "", choiceMember "point" 2 11 ".p.Point",
      choiceMember "color" 3 14 ".p.Color"]]
    o ∈ loadedOneofs files "a.proto" ∧ o.plan = .ok .tagged ∧
      ∀ x ∈ o.members, ∀ y ∈ o.members, x ≠ y → ¬ Confusion x y := by
  intro o files
  have ho : o ∈ loadedOneofs files "a.proto" := by decide +kernel
  exact ⟨ho, rfl, (tagged_iff_no_confusion ho (.ofPackage (some "p")) (by decide +kernel)
    (by decide +kernel)).1 rfl⟩

/-- **Two enums are taken for one another.** They are written differently,
no option is set, and the oneof becomes a raw union. -/
theorem two_enums_not_tagged :
    let o := choiceOneof [
      { name := "color", number := 1, code := 14, kind := .enum, typeName := some "p.Color",
        oneof := some "choice", oneofIndex := some 0 },
      { name := "size", number := 2, code := 14, kind := .enum, typeName := some "p.Size",
        oneof := some "choice", oneofIndex := some 0 }]
    let files := [choiceFile [choiceMember "color" 1 14 ".p.Color",
      choiceMember "size" 2 14 ".p.Size"]]
    o ∈ loadedOneofs files "a.proto" ∧
      (∀ x ∈ o.members, x.head.overrideFault? = none) ∧
      (o.members.map (·.variantSpelling (.ofPackage (some "p")))).Nodup ∧
      o.plan = .ok (.raw "") := by
  refine ⟨?_, ?_, ?_, rfl⟩ <;> decide +kernel

end OdinSchema
