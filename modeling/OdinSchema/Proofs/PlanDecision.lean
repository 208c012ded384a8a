import OdinSchema.Proofs.Checks

/-!
# Which member decides the shape of a oneof

The scan of a oneof goes through its members with two memories, the keys it
has seen and whether one of the members had an override, and can end at every
member in three ways. Seen from outside, one member decides: the first that
has an override set to an empty name, or the key of an earlier member
(`DecidesAt`). What it decides depends on the members up to it alone. The
members in front of it only fill the memories (`Plan.scan_append`).
-/

namespace OdinSchema

/-! ## Keys -/

namespace FieldHead

variable {f : FieldHead} {key : Verbatim}

/-- What tells a member's type from the others', case by case: the name its
override gives, no name if it gives none, and without an override the full
name of a message, the builtin of a type that has one, and else no name. -/
inductive HasKey (f : FieldHead) : Verbatim → Prop where
  | external {o : Override} {name : Verbatim} (hoverride : f.override = some o)
      (hname : o.external = some name) : HasKey f name
  | typedef {o : Override} {name : Verbatim} (hoverride : f.override = some o)
      (hexternal : o.external = none) (hname : o.typedef = some name) : HasKey f name
  | silent {o : Override} (hoverride : f.override = some o) (hexternal : o.external = none)
      (htypedef : o.typedef = none) : HasKey f ""
  | message (hoverride : f.override = none) (hcode : f.code = TypeCode.message) :
      HasKey f (.text (f.typeName.getD ""))
  | builtin (hoverride : f.override = none) (hknown : 1 ≤ f.code ∧ f.code ≤ 18)
      (hcode : f.code ≠ TypeCode.message) (henum : f.code ≠ TypeCode.enum)
      (hgroup : f.code ≠ TypeCode.group) : HasKey f (.text f.code.builtin)
  | nameless (hoverride : f.override = none) (hcode : f.code = TypeCode.enum ∨
      f.code = TypeCode.group ∨ f.code < 1 ∨ 18 < f.code) : HasKey f ""

/-- A member whose override sets a name, and sets it to the empty one. -/
def HasEmptyOverride (f : FieldHead) : Prop :=
  ∃ o, f.override = some o ∧ (o.external = some (.text "") ∨ o.typedef = some (.text ""))

/-- A refusal for a fault of a member: at the line of the member, or because
it has no place. -/
def Reports (f : FieldHead) (fault : Fault) (refusal : Refusal) : Prop :=
  (∀ location, f.location = some location →
    refusal = .diagnostic ⟨location.line + 1, fault⟩) ∧
  (f.location = none → refusal = .defect (.unlocated f.name))

theorem reports_refuse (f : FieldHead) (fault : Fault) : f.Reports fault (f.refuse fault) := by
  constructor
  · intro location hlocation
    rw [refuse, hlocation]
  · intro hlocation
    rw [refuse, hlocation]

/-- Types that have no name of their own have no builtin. -/
theorem builtin_of_nameless {code : TypeCode}
    (h : code = TypeCode.enum ∨ code = TypeCode.group ∨ code < 1 ∨ 18 < code) :
    code.builtin = "" := by
  rcases h with rfl | rfl | hcode
  · rfl
  · rfl
  · -- every code of the table is in the range
    unfold TypeCode.builtin
    split <;> try exact absurd hcode (by decide)
    rfl

/-- **The key of a member is the one that the scan compares.** -/
theorem hasKey_iff : f.HasKey key ↔ f.variantKey = key := by
  constructor
  · intro h
    cases h with
    | external hoverride hname => simp [variantKey, hoverride, Override.key, hname]
    | typedef hoverride hexternal hname =>
      simp [variantKey, hoverride, Override.key, hexternal, hname]
    | silent hoverride hexternal htypedef =>
      simp [variantKey, hoverride, Override.key, hexternal, htypedef]
    | message hoverride hcode => simp [variantKey, hoverride, hcode]
    | builtin hoverride _ hcode _ _ => simp [variantKey, hoverride, hcode]
    | nameless hoverride hcode =>
      have hmessage : f.code ≠ TypeCode.message := by
        rintro heq
        rw [heq] at hcode
        revert hcode
        decide
      simp [variantKey, hoverride, hmessage, builtin_of_nameless hcode]
  · rintro rfl
    cases hoverride : f.override with
    | some o =>
      cases hexternal : o.external with
      | some name => simpa [variantKey, hoverride, Override.key, hexternal] using
          HasKey.external hoverride hexternal
      | none =>
        cases htypedef : o.typedef with
        | some name => simpa [variantKey, hoverride, Override.key, hexternal, htypedef] using
            HasKey.typedef hoverride hexternal htypedef
        | none => simpa [variantKey, hoverride, Override.key, hexternal, htypedef] using
            HasKey.silent hoverride hexternal htypedef
    | none =>
      by_cases hmessage : f.code = TypeCode.message
      · simpa [variantKey, hoverride, hmessage] using HasKey.message hoverride hmessage
      · by_cases hcode : f.code = TypeCode.enum ∨ f.code = TypeCode.group ∨ f.code < 1 ∨ 18 < f.code
        · simpa [variantKey, hoverride, hmessage, builtin_of_nameless hcode] using
            HasKey.nameless hoverride hcode
        · simp only [not_or] at hcode
          simpa [variantKey, hoverride, hmessage] using
            HasKey.builtin hoverride ⟨Int.not_lt.1 hcode.2.2.1, Int.not_lt.1 hcode.2.2.2⟩ hmessage
              hcode.1 hcode.2.1

/-- An override is at fault exactly if it sets an empty name. -/
theorem overrideFault?_eq_none_iff : f.overrideFault? = none ↔ ¬ f.HasEmptyOverride := by
  rw [overrideFault?, HasEmptyOverride]
  cases f.override with
  | none => simp
  | some o =>
    by_cases hexternal : o.external = some (.text "")
    · simp [Override.fault?, hexternal]
    · by_cases htypedef : o.typedef = some (.text "") <;>
        simp [Override.fault?, hexternal, htypedef]

end FieldHead

/-! ## The member that decides -/

/-- A position at which the scan of members ends: that of an override set to
an empty name, or of a key that an earlier member has. -/
def DecidesAt (members : List Field) (i : Nat) : Prop :=
  ∃ f, members[i]? = some f ∧ (f.head.HasEmptyOverride ∨
    ∃ j < i, ∃ g key, members[j]? = some g ∧ g.head.HasKey key ∧ f.head.HasKey key)

variable {members before after : List Field} {f : Field} {i : Nat}

/-- The members up to a position are those before it and the one there. -/
theorem take_succ_eq (hf : members[i]? = some f) : members.take (i + 1) = members.take i ++ [f] := by
  rw [List.take_add_one, hf, Option.toList_some]

theorem take_succ_append (hf : members[i]? = some f) (rest : List Field) :
    members.take (i + 1) ++ rest = members.take i ++ f :: rest := by
  rw [take_succ_eq hf, List.append_assoc, List.singleton_append]

/-- A position decides by a fault of its override, or by a key among those in
front of it. -/
theorem decidesAt_iff : DecidesAt members i ↔ ∃ f ∈ members[i]?,
    f.head.overrideFault? ≠ none ∨ f.head.variantKey ∈ (members.take i).map (·.head.variantKey) := by
  have hkey : ∀ f : Field, f.head.variantKey ∈ (members.take i).map (·.head.variantKey) ↔
      ∃ j < i, ∃ g key, members[j]? = some g ∧ g.head.HasKey key ∧ f.head.HasKey key := by
    intro f
    rw [List.mem_map]
    constructor
    · rintro ⟨g, hg, hkey⟩
      obtain ⟨j, hj⟩ := List.mem_iff_getElem?.1 hg
      rw [List.getElem?_take] at hj
      split at hj
      · rename_i hlt
        exact ⟨j, hlt, g, _, hj, FieldHead.hasKey_iff.2 hkey, FieldHead.hasKey_iff.2 rfl⟩
      · cases hj
    · rintro ⟨j, hj, g, key, hg, hgkey, hfkey⟩
      refine ⟨g, List.mem_of_getElem? (i := j) ?_, ?_⟩
      · rw [List.getElem?_take_of_lt hj, hg]
      · rw [FieldHead.hasKey_iff.1 hgkey, FieldHead.hasKey_iff.1 hfkey]
  simp only [DecidesAt, hkey, Option.mem_def, ne_eq, FieldHead.overrideFault?_eq_none_iff, not_not]

instance : Decidable (DecidesAt members i) :=
  decidable_of_iff _ decidesAt_iff.symm

/-- Members that the scan goes through: no empty name, and no key twice. -/
def Undecided (members : List Field) : Prop :=
  (∀ x ∈ members, x.head.overrideFault? = none) ∧ (members.map (·.head.variantKey)).Nodup

/-- **Up to the first position that decides, nothing is decided.** -/
theorem undecided_take (h : ∀ j < i, ¬ DecidesAt members j) : Undecided (members.take i) := by
  induction i with
  | zero => exact ⟨by simp, by simp⟩
  | succ i ih =>
    obtain ⟨hfaults, hnodup⟩ := ih fun j hj => h j (by omega)
    cases hf : members[i]? with
    | none =>
      rw [List.take_add_one, hf, Option.toList_none, List.append_nil]
      exact ⟨hfaults, hnodup⟩
    | some f =>
      have hlast := h i (by omega)
      rw [decidesAt_iff] at hlast
      have hfault : f.head.overrideFault? = none := by
        by_contra hfault
        exact hlast ⟨f, hf, .inl hfault⟩
      have hfresh : f.head.variantKey ∉ (members.take i).map (·.head.variantKey) :=
        fun hmem => hlast ⟨f, hf, .inr hmem⟩
      rw [take_succ_eq hf]
      refine ⟨List.forall_mem_append.2 ⟨hfaults, List.forall_mem_singleton.2 hfault⟩, ?_⟩
      rw [List.map_append, List.map_singleton, ← List.concat_eq_append]
      exact hnodup.concat hfresh

namespace Plan

/-- **Members that decide nothing fill the memories of the scan.** -/
theorem scan_append {forced : Bool} {seen : List Verbatim}
    (h : Undecided before) (hfresh : ∀ x ∈ before, x.head.variantKey ∉ seen) :
    scan forced seen (before ++ after) =
      scan (forced || before.any (·.head.override.isSome))
        ((before.map (·.head.variantKey)).reverse ++ seen) after := by
  induction before generalizing forced seen with
  | nil => simp
  | cons x before ih =>
    obtain ⟨hfaults, hnodup⟩ := h
    obtain ⟨hx, hbefore⟩ := List.forall_mem_cons.1 hfaults
    obtain ⟨hfreshx, hfreshBefore⟩ := List.forall_mem_cons.1 hfresh
    rw [List.map_cons, List.nodup_cons] at hnodup
    have hfresh' : ∀ y ∈ before, y.head.variantKey ∉ x.head.variantKey :: seen := by
      intro y hy hmem
      rcases List.mem_cons.1 hmem with hsame | hseen
      · exact hnodup.1 (hsame ▸ List.mem_map_of_mem hy)
      · exact hfreshBefore y hy hseen
    rw [List.cons_append, scan_of_fresh hx hfreshx, ih ⟨hbefore, hnodup.2⟩ hfresh']
    simp [Bool.or_assoc]

/-- What a member decides after others. -/
def decision (before : List Field) (f : Field) : Except Refusal Plan :=
  match f.head.overrideFault? with
  | some fault => .error (f.head.refuse fault)
  | none =>
    if (before ++ [f]).any (·.head.override.isSome) then
      .error (f.head.refuse (.repeatedVariant f.head.variantKey f.head.name))
    else .ok (.raw f.head.variantKey)

/-- A member that decides ends the scan, whatever comes after it. -/
theorem scan_eq_decision (h : Undecided before)
    (hseen : f.head.overrideFault? = none →
      f.head.variantKey ∈ before.map (·.head.variantKey)) :
    scan false [] (before ++ f :: after) = decision before f := by
  rw [scan_append h (by simp), decision]
  cases hfault : f.head.overrideFault? with
  | some fault => exact scan_of_fault hfault
  | none =>
    have hmem : f.head.variantKey ∈ (before.map (·.head.variantKey)).reverse ++ [] := by
      simpa using hseen hfault
    rw [scan_of_repeat hfault hmem]
    simp

/-- An empty name is refused: that of an external type before that of an
alias. -/
theorem decision_of_empty (h : f.head.HasEmptyOverride) :
    ∃ override fault, f.head.override = some override ∧
      (override.external = some (.text "") → fault = .emptyExternal f.head.name) ∧
      (override.external ≠ some (.text "") → fault = .emptyTypedef f.head.name) ∧
      decision before f = .error (f.head.refuse fault) := by
  obtain ⟨override, hoverride, hempty⟩ := h
  by_cases hexternal : override.external = some (.text "")
  · refine ⟨override, .emptyExternal f.head.name, hoverride, fun _ => rfl,
      fun hne => absurd hexternal hne, ?_⟩
    simp [decision, FieldHead.overrideFault?, hoverride, Override.fault?, hexternal]
  · have htypedef := hempty.resolve_left hexternal
    refine ⟨override, .emptyTypedef f.head.name, hoverride, fun h => absurd h hexternal,
      fun _ => rfl, ?_⟩
    simp [decision, FieldHead.overrideFault?, hoverride, Override.fault?, hexternal, htypedef]

/-- A key that is repeated is refused if there is an override, and else makes
a raw union. -/
theorem decision_of_not_empty (h : ¬ f.head.HasEmptyOverride) :
    decision before f =
      if (before ++ [f]).any (·.head.override.isSome) then
        .error (f.head.refuse (.repeatedVariant f.head.variantKey f.head.name))
      else .ok (.raw f.head.variantKey) := by
  simp only [decision, FieldHead.overrideFault?_eq_none_iff.2 h]

end Plan

/-- **The first member that decides is decisive for all oneofs that begin with
the same members up to it.** -/
theorem Oneof.plan_eq_decision {p : Oneof} (hf : members[i]? = some f)
    (hdecides : DecidesAt members i) (hfirst : ∀ j < i, ¬ DecidesAt members j)
    (hp : p.members.take (i + 1) = members.take (i + 1)) :
    p.plan = Plan.decision (members.take i) f := by
  have hsplit : p.members = members.take i ++ f :: p.members.drop (i + 1) := by
    rw [← take_succ_append hf, ← hp, List.take_append_drop]
  have hseen : f.head.overrideFault? = none →
      f.head.variantKey ∈ (members.take i).map (·.head.variantKey) := by
    intro hfault
    obtain ⟨f', hf', hreason⟩ := decidesAt_iff.1 hdecides
    obtain rfl : f = f' := Option.some.inj (hf.symm.trans hf')
    exact hreason.resolve_left fun hne => hne hfault
  rw [Oneof.plan, hsplit]
  exact Plan.scan_eq_decision (undecided_take hfirst) hseen

/-- Some member up to a position has an override. -/
theorem any_override_take_iff : (members.take (i + 1)).any (·.head.override.isSome) = true ↔
    ∃ j ≤ i, ∃ g, members[j]? = some g ∧ g.head.override ≠ none := by
  rw [List.any_eq_true]
  constructor
  · rintro ⟨g, hg, hoverride⟩
    obtain ⟨j, hj⟩ := List.mem_iff_getElem?.1 hg
    rw [List.getElem?_take] at hj
    split at hj
    · exact ⟨j, by omega, g, hj, Option.isSome_iff_ne_none.1 hoverride⟩
    · cases hj
  · rintro ⟨j, hj, g, hg, hoverride⟩
    refine ⟨g, List.mem_of_getElem? (i := j) ?_, Option.isSome_iff_ne_none.2 hoverride⟩
    rw [List.getElem?_take_of_lt (by omega), hg]

/-- A oneof whose third member repeats the builtin of the first, though under
another type. The second has an override; that of the fourth is empty. -/
def forcedOneof : Oneof where
  name := "choice"
  fullName := "M.choice"
  members := [
    .single { name := "a", code := 5 },
    .single { name := "b", code := 9, override := some { typedef := some "Id" } },
    .single { name := "c", code := 17, location := some { line := 6 } },
    .single { name := "d", code := 8, override := some { external := some "" } }]

end OdinSchema
