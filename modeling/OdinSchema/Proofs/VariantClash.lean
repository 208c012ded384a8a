import OdinSchema.Proofs.AliasSection
import OdinSchema.Proofs.Provenance

/-!
# Variants of one spelling

A oneof becomes a tagged union if the keys of its members differ, and keys
are not what is written: a key holds a full name where the spelling drops
the package, and an enum, a group or an option that sets nothing leaves no
key at all. So the variants of a tagged union may repeat a spelling. `Clash`
lists the ways this happens, and `tagged_spellings_distinct_iff` says that
there is no other.
-/

namespace OdinSchema

/-! ## Keys -/

namespace Plan

variable {forced : Bool} {seen : List Verbatim} {x : Field} {rest : List Field}

/-- A fresh key is seen from then on. -/
theorem scan_of_fresh (hfault : x.head.overrideFault? = none)
    (hfresh : x.head.variantKey ∉ seen) : scan forced seen (x :: rest) =
      scan (forced || x.head.override.isSome) (x.head.variantKey :: seen) rest := by
  simp only [scan, hfault, if_neg hfresh]

/-- A key that is seen again rules a tagged union out. -/
theorem scan_of_seen (hfault : x.head.overrideFault? = none) (hseen : x.head.variantKey ∈ seen) :
    scan forced seen (x :: rest) ≠ .ok .tagged := by
  simp only [scan, hfault, if_pos hseen]
  split <;> simp

/-- The scan finds a tagged union exactly if no override is set to an empty
name and no key occurs twice, those seen before included. -/
theorem scan_eq_tagged_iff {members : List Field} :
    scan forced seen members = .ok .tagged ↔
      (∀ x ∈ members, x.head.overrideFault? = none) ∧
        (members.map (·.head.variantKey)).Nodup ∧
        ∀ x ∈ members, x.head.variantKey ∉ seen := by
  induction members generalizing forced seen with
  | nil => simp [scan]
  | cons x rest ih =>
    rw [List.forall_mem_cons, List.map_cons, List.nodup_cons, List.forall_mem_cons]
    cases hfault : x.head.overrideFault? with
    | some fault => simp [scan, hfault]
    | none =>
      by_cases hseen : x.head.variantKey ∈ seen
      · simp [scan_of_seen hfault hseen, hseen]
      · rw [scan_of_fresh hfault hseen, ih]
        -- the key of `x` is new: that no later key repeats it is the same
        -- as that every later key differs from the seen ones
        simp only [List.mem_cons, not_or, List.mem_map, not_exists, not_and]
        constructor
        · rintro ⟨hfaults, hnodup, hkeys⟩
          exact ⟨⟨trivial, hfaults⟩, ⟨fun y hy => (hkeys y hy).1, hnodup⟩, hseen,
            fun y hy => (hkeys y hy).2⟩
        · rintro ⟨⟨-, hfaults⟩, ⟨hfresh, hnodup⟩, -, hkeys⟩
          exact ⟨hfaults, hnodup, fun y hy => ⟨hfresh y hy, hkeys y hy⟩⟩

end Plan

theorem Oneof.plan_eq_tagged_iff {o : Oneof} : o.plan = .ok .tagged ↔
    (∀ x ∈ o.members, x.head.overrideFault? = none) ∧
      (o.members.map (·.head.variantKey)).Nodup := by
  simp [plan, Plan.scan_eq_tagged_iff]

/-- The name an override gives a member, if it gives one. -/
def FieldHead.overrideName? (f : FieldHead) : Option Verbatim :=
  f.override.bind fun override => override.external <|> override.typedef

namespace FieldHead

variable {f : FieldHead}

theorem variantKey_of_name {name : Verbatim} (h : f.overrideName? = some name) :
    f.variantKey = name := by
  obtain ⟨override, hoverride, hname⟩ := Option.bind_eq_some_iff.1 h
  rw [variantKey, hoverride]
  simp only [Override.key, hname, Option.getD_some]

end FieldHead

/-- A type code that stands for named types has no builtin. -/
theorem FieldDescriptor.builtin_of_kind {d : FieldDescriptor} (h : d.kind ≠ .scalar) :
    d.code.builtin = "" := by
  rw [kind] at h
  split at h
  · rename_i hcode
    rw [hcode]
    rfl
  · split at h
    · rename_i hcode
      rcases hcode with hcode | hcode <;> rw [hcode] <;> rfl
    · exact absurd rfl h

namespace FieldDescriptor.Describes

variable {d : FieldDescriptor} {x : Field} {scope : Scope}

/-- A field that is not repeated is no map. -/
theorem entry?_eq_none (h : d.Describes x) (hsingle : x.head.cardinality ≠ .repeated) :
    x.entry? = none := by
  by_contra hentry
  exact hsingle (h.cardinality.trans (h.label hentry))

/-- The spelling of a field that is not repeated is that of its type. -/
theorem spelling_eq (h : d.Describes x) (hsingle : x.head.cardinality ≠ .repeated) :
    x.spelling scope = x.head.baseSpelling scope := by
  cases x with
  | single head => exact if_neg hsingle
  | map head key value => exact absurd (h.entry?_eq_none hsingle) nofun

/-- A field that refers to a type has no builtin. -/
theorem builtin_of_reference (h : d.Describes x) (hsingle : x.head.cardinality ≠ .repeated)
    {type : String} (htype : x.head.reference? = some type) : x.head.code.builtin = "" := by
  rw [h.code]
  refine builtin_of_kind fun hscalar => ?_
  rw [FieldHead.reference?, h.kind (h.entry?_eq_none hsingle), hscalar] at htype
  cases htype

/-- A message field refers to the type it names. -/
theorem typeName_of_message (h : d.Describes x) (hsingle : x.head.cardinality ≠ .repeated)
    (hcode : x.head.code = TypeCode.message) :
    x.head.typeName.getD "" = x.head.reference?.getD "" := by
  have hkind : x.head.kind = .message := by
    rw [h.kind (h.entry?_eq_none hsingle), FieldDescriptor.kind, ← h.code, hcode]
    rfl
  rw [FieldHead.reference?, hkind]
  cases x.head.typeName with
  | none => rfl
  | some name => by_cases hname : name = "" <;> simp [Option.filter, hname]

/-- Without a name from its override, a member has no key or the key of its
type. -/
theorem variantKey_cases (h : d.Describes x) (hsingle : x.head.cardinality ≠ .repeated)
    (hname : x.head.overrideName? = none) : x.head.variantKey = "" ∨
      x.head.variantKey = .text (x.head.reference?.getD x.head.code.builtin) := by
  rw [FieldHead.variantKey]
  cases hoverride : x.head.override with
  | some override =>
    rw [FieldHead.overrideName?, hoverride, Option.bind_some] at hname
    left
    simp only [Override.key, hname, Option.getD_none]
  | none =>
    by_cases hcode : x.head.code = TypeCode.message
    · simp only [hcode, if_true, h.typeName_of_message hsingle hcode]
      exact Or.inr rfl
    · simp only [hcode, if_false]
      cases htype : x.head.reference? with
      | none => exact Or.inr rfl
      | some type =>
        -- an enum or a group: its key is the builtin it does not have
        rw [h.builtin_of_reference hsingle htype]
        exact Or.inl rfl

end FieldDescriptor.Describes

/-! ## Spellings -/

variable {scope : Scope} {x y : Field}

theorem Field.variantSpelling_of_name {name : Verbatim} (h : x.head.overrideName? = some name) :
    x.variantSpelling scope = name.shown := by
  obtain ⟨override, hoverride, hname⟩ := Option.bind_eq_some_iff.1 h
  simp only [variantSpelling, hoverride, hname, Option.map_some, Option.getD_some]

theorem Field.variantSpelling_of_no_name (h : x.head.overrideName? = none) :
    x.variantSpelling scope = x.spelling scope := by
  rw [variantSpelling]
  cases hoverride : x.head.override with
  | none => rfl
  | some override =>
    rw [FieldHead.overrideName?, hoverride, Option.bind_some] at h
    simp only [h, Option.map_none, Option.getD_none]

/-- The ways a member `x` of a oneof comes to be written like another member
`y`, though their keys differ. -/
inductive Clash (scope : Scope) (x y : Field) : Prop where
  /-- The override of `x` gives it the spelling of `y`. -/
  | named {name : Verbatim} (hx : x.head.overrideName? = some name)
      (hy : y.head.overrideName? ≠ some name) (hspelling : name.shown = y.variantSpelling scope)
  /-- Both have one type, for which `x` has no key: its option sets nothing,
  or it is an enum or a group. -/
  | unkeyed (hx : x.head.overrideName? = none) (hy : y.head.overrideName? = none)
      (hxkey : x.head.variantKey = "") (hykey : y.head.variantKey ≠ "")
      (hreference : x.head.reference? = y.head.reference?)
      (hbuiltin : x.head.reference? = none → x.head.code.builtin = y.head.code.builtin)
  /-- The type of `x` is declared under the name of the builtin type of `y`. -/
  | builtin {type : String} (hx : x.head.overrideName? = none) (hy : y.head.overrideName? = none)
      (hxtype : x.head.reference? = some type) (hytype : y.head.reference? = none)
      (hresolve : scope.resolve type = y.head.code.builtin)

/-- No member clashes with itself. -/
theorem Clash.irrefl : ¬ Clash scope x x := by
  rintro (⟨hx, hy, -⟩ | ⟨-, -, hxkey, hykey, -, -⟩ | ⟨-, -, hxtype, hytype, -⟩)
  · exact hy hx
  · exact hykey hxkey
  · rw [hxtype] at hytype
    cases hytype

theorem FieldHead.baseSpelling_of_reference {f : FieldHead} {type : String}
    (h : f.reference? = some type) : f.baseSpelling scope = scope.resolve type := by
  simp only [baseSpelling, h]

theorem FieldHead.baseSpelling_of_no_reference {f : FieldHead} (h : f.reference? = none) :
    f.baseSpelling scope = f.code.builtin := by
  simp only [baseSpelling, h]

section

variable {d e : FieldDescriptor} (hd : d.Describes x) (he : e.Describes y)
variable (hxsingle : x.head.cardinality ≠ .repeated) (hysingle : y.head.cardinality ≠ .repeated)

include hd he hxsingle hysingle

/-- Members that clash are written alike. -/
theorem Clash.variantSpelling_eq (h : Clash scope x y) :
    x.variantSpelling scope = y.variantSpelling scope := by
  cases h with
  | named hx hy hspelling => rw [Field.variantSpelling_of_name hx, hspelling]
  | unkeyed hx hy hxkey hykey hreference hbuiltin =>
    rw [Field.variantSpelling_of_no_name hx, Field.variantSpelling_of_no_name hy,
      hd.spelling_eq hxsingle, he.spelling_eq hysingle]
    cases hxtype : x.head.reference? with
    | none =>
      rw [FieldHead.baseSpelling_of_no_reference hxtype,
        FieldHead.baseSpelling_of_no_reference (hreference ▸ hxtype), hbuiltin hxtype]
    | some type =>
      rw [FieldHead.baseSpelling_of_reference hxtype,
        FieldHead.baseSpelling_of_reference (hreference ▸ hxtype)]
  | builtin hx hy hxtype hytype hresolve =>
    rw [Field.variantSpelling_of_no_name hx, Field.variantSpelling_of_no_name hy,
      hd.spelling_eq hxsingle, he.spelling_eq hysingle,
      FieldHead.baseSpelling_of_reference hxtype,
      FieldHead.baseSpelling_of_no_reference hytype, hresolve]

/-- Two members of one type have different keys only if one of them has
none. -/
theorem clash_of_same_type (hkeys : x.head.variantKey ≠ y.head.variantKey)
    (hx : x.head.overrideName? = none) (hy : y.head.overrideName? = none)
    (hreference : x.head.reference? = y.head.reference?)
    (hbuiltin : x.head.reference? = none → x.head.code.builtin = y.head.code.builtin) :
    Clash scope x y ∨ Clash scope y x := by
  have htype : x.head.reference?.getD x.head.code.builtin =
      y.head.reference?.getD y.head.code.builtin := by
    rw [← hreference]
    cases hxtype : x.head.reference? with
    | none => exact hbuiltin hxtype
    | some type => rfl
  rcases hd.variantKey_cases hxsingle hx with hxkey | hxkey
  · exact Or.inl (.unkeyed hx hy hxkey (fun hykey => hkeys (hxkey.trans hykey.symm)) hreference
      hbuiltin)
  · rcases he.variantKey_cases hysingle hy with hykey | hykey
    · exact Or.inr (.unkeyed hy hx hykey (fun hxkey => hkeys (hxkey.trans hykey.symm))
        hreference.symm (fun hnone => (hbuiltin (hreference.trans hnone)).symm))
    · exact absurd (by rw [hxkey, hykey, htype]) hkeys

/-- **Members that are written alike clash**, one way or the other, if their
keys differ and the types they refer to are told apart by their
identifiers. -/
theorem clash_of_variantSpelling_eq (hkeys : x.head.variantKey ≠ y.head.variantKey)
    (htypes : ∀ s ∈ x.head.reference?, ∀ t ∈ y.head.reference?,
      scope.resolve s = scope.resolve t → s = t)
    (h : x.variantSpelling scope = y.variantSpelling scope) :
    Clash scope x y ∨ Clash scope y x := by
  cases hx : x.head.overrideName? with
  | some name =>
    rw [Field.variantSpelling_of_name hx] at h
    refine Or.inl (.named hx (fun hy => hkeys ?_) h)
    rw [FieldHead.variantKey_of_name hx, FieldHead.variantKey_of_name hy]
  | none =>
    cases hy : y.head.overrideName? with
    | some name =>
      rw [Field.variantSpelling_of_name hy] at h
      exact Or.inr (.named hy (by rw [hx]; nofun) h.symm)
    | none =>
      rw [Field.variantSpelling_of_no_name hx, Field.variantSpelling_of_no_name hy,
        hd.spelling_eq hxsingle, he.spelling_eq hysingle] at h
      cases hxtype : x.head.reference? with
      | some s =>
        rw [FieldHead.baseSpelling_of_reference hxtype] at h
        cases hytype : y.head.reference? with
        | some t =>
          rw [FieldHead.baseSpelling_of_reference hytype] at h
          have hsame : s = t := htypes s hxtype t hytype h
          exact clash_of_same_type hd he hxsingle hysingle hkeys hx hy
            (by rw [hxtype, hytype, hsame]) (by rw [hxtype]; nofun)
        | none =>
          rw [FieldHead.baseSpelling_of_no_reference hytype] at h
          exact Or.inl (.builtin hx hy hxtype hytype h)
      | none =>
        rw [FieldHead.baseSpelling_of_no_reference hxtype] at h
        cases hytype : y.head.reference? with
        | some t =>
          rw [FieldHead.baseSpelling_of_reference hytype] at h
          exact Or.inr (.builtin hy hx hytype hxtype h.symm)
        | none =>
          rw [FieldHead.baseSpelling_of_no_reference hytype] at h
          exact clash_of_same_type hd he hxsingle hysingle hkeys hx hy
            (by rw [hxtype, hytype]) (fun _ => h)

end

/-- A variant is one line, whether or not it binds an alias. -/
theorem Field.lines_variantSteps (indent : String) :
    Step.lines (x.variantSteps scope indent) = [indent ++ x.variantSpelling scope ++ ","] := by
  rw [variantSteps]
  cases x.head.ownAlias? <;> rfl

/-- The lines of a tagged union spell its members in turn. -/
theorem Oneof.lines_steps_of_tagged {o : Oneof} (h : o.plan = .ok .tagged) (depth : Int) :
    Step.lines (o.steps scope depth) =
      ["", indentation depth ++ o.name.shown ++ ": union \x7b"] ++
        o.members.map (fun x => indentation depth ++ "  " ++ x.variantSpelling scope ++ ",") ++
        [indentation depth ++ "\x7d,"] := by
  rw [steps, h]
  simp [Step.lines_flatMap, Field.lines_variantSteps, List.map_eq_flatMap]

/-- **The variants of a tagged union are written differently exactly if no
two of them clash.** This holds of every oneof that is loaded, in every
scope, if its members are not repeated and the types they refer to are told
apart by their identifiers in the scope. -/
theorem tagged_spellings_distinct_iff {files : List FileDescriptor} {name : Verbatim}
    {o : Oneof} (ho : o ∈ loadedOneofs files name) (scope : Scope)
    (hsingle : ∀ x ∈ o.members, x.head.cardinality ≠ .repeated)
    (htypes : ∀ x ∈ o.members, ∀ y ∈ o.members, ∀ s ∈ x.head.reference?,
      ∀ t ∈ y.head.reference?, scope.resolve s = scope.resolve t → s = t)
    (htagged : o.plan = .ok .tagged) :
    (∀ depth, Step.lines (o.steps scope depth) =
      ["", indentation depth ++ o.name.shown ++ ": union \x7b"] ++
        (o.members.map (·.variantSpelling scope)).map
          (fun spelling => indentation depth ++ "  " ++ spelling ++ ",") ++
        [indentation depth ++ "\x7d,"]) ∧
      ((o.members.map (·.variantSpelling scope)).Nodup ↔
        ∀ x ∈ o.members, ∀ y ∈ o.members, ¬ Clash scope x y) := by
  have hdescribes := describes_of_mem_loadedOneofs ho
  obtain ⟨-, hkeys⟩ := Oneof.plan_eq_tagged_iff.1 htagged
  refine ⟨fun depth => ?_, ?_, ?_⟩
  · rw [Oneof.lines_steps_of_tagged htagged, List.map_map]
    rfl
  · intro hnodup x hx y hy hclash
    obtain ⟨d, hd⟩ := hdescribes x hx
    obtain ⟨e, he⟩ := hdescribes y hy
    have hspelling := hclash.variantSpelling_eq hd he (hsingle x hx) (hsingle y hy)
    -- distinct spellings leave only one position for both
    have hsame : x = y := List.inj_on_of_nodup_map hnodup hx hy hspelling
    exact Clash.irrefl (hsame ▸ hclash)
  · intro hclash
    rw [List.Nodup, List.pairwise_map] at hkeys ⊢
    -- at different positions the keys differ, so one spelling means a clash
    refine hkeys.imp_of_mem fun {x y} hx hy hkey hspelling => ?_
    obtain ⟨d, hd⟩ := hdescribes x hx
    obtain ⟨e, he⟩ := hdescribes y hy
    rcases clash_of_variantSpelling_eq hd he (hsingle x hx) (hsingle y hy) hkey
      (htypes x hx y hy) hspelling with h | h
    · exact hclash x hx y hy h
    · exact hclash y hy x hx h

/-- A file with a message that has one oneof: a message of the package and a
number with the given override. -/
def overriddenFile (override : Override.Member × Verbatim) : FileDescriptor where
  name := "a.proto"
  package := "p"
  dialect := "proto3"
  messages := [.mk { name := "Foo" } [], .mk {
    name := "Bar"
    oneofs := ["choice"]
    fields := [
      { name := "a", number := 1, code := 11, typeName := ".p.Foo", oneofIndex := some 0 },
      { name := "b", number := 2, code := 5, oneofIndex := some 0,
        odin := [Override.payload [override]] }] } []]

/-- The oneof of the file, loaded. -/
def overriddenOneof (override : Override) : Oneof where
  name := "choice"
  fullName := "p.Bar.choice"
  members := [
    .single { name := "a", number := 1, code := 11, kind := .message, typeName := some "p.Foo",
              oneof := some "choice", oneofIndex := some 0 },
    .single { name := "b", number := 2, code := 5, oneof := some "choice", oneofIndex := some 0,
              override := some override }]

/-- An alias of its own keeps the number apart from the message. -/
theorem tagged_spellings_distinct_iff_own_alias :
    let o := overriddenOneof { typedef := some "Number" }
    let scope := Scope.ofPackage (some "p")
    o ∈ loadedOneofs [overriddenFile (.typedef, "Number")] "a.proto" ∧
      o.plan = .ok .tagged ∧ (o.members.map (·.variantSpelling scope)).Nodup ∧
      ∀ x ∈ o.members, ∀ y ∈ o.members, ¬ Clash scope x y := by
  intro o scope
  have ho : o ∈ loadedOneofs [overriddenFile (.typedef, "Number")] "a.proto" := by decide +kernel
  have hnodup : (o.members.map (·.variantSpelling scope)).Nodup := by decide +kernel
  exact ⟨ho, rfl, hnodup, (tagged_spellings_distinct_iff ho scope (by decide +kernel)
    (by decide +kernel) rfl).2.1 hnodup⟩

/-- **A tagged union may repeat a spelling.** An external name is compared
with the full name of the message and written beside its short one. -/
theorem tagged_spellings_repeat_external :
    let o := overriddenOneof { external := some "Foo" }
    let scope := Scope.ofPackage (some "p")
    o ∈ loadedOneofs [overriddenFile (.external, "Foo")] "a.proto" ∧
      (∀ x ∈ o.members, x.head.cardinality ≠ .repeated) ∧
      (∀ x ∈ o.members, ∀ y ∈ o.members, ∀ s ∈ x.head.reference?, ∀ t ∈ y.head.reference?,
        scope.resolve s = scope.resolve t → s = t) ∧
      o.plan = .ok .tagged ∧
      ¬ (o.members.map (·.variantSpelling scope)).Nodup := by
  refine ⟨?_, ?_, ?_, rfl, ?_⟩ <;> decide +kernel

end OdinSchema
