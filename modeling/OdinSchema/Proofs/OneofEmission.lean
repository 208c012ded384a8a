import OdinSchema.Proofs.PlanDecision

/-!
# What writing a oneof leaves

A oneof that has no shape is refused before anything is written. A tagged
union can also be refused in the middle: a variant whose alias stands for
another type already finds the variants in front of it written and their
aliases bound. That alias was bound before the union, not by one of its
variants. An alias is the key of its member, and the scan for the shape has
gone through the keys of all members, so the aliases of a tagged union are
distinct (`Undecided.nodup_aliases`) and each variant meets the table as it
was at the start (`Draft.perform_of_nodup`, `Draft.perform_stops_at_bind`).
-/

namespace OdinSchema

/-! ## Bindings of distinct aliases -/

namespace Draft

variable {d : Draft} {steps : List Step}

/-- **Steps that bind distinct aliases meet no binding but those made before
them.** If these admit all of theirs, the steps are performed to their end. -/
theorem perform_of_nodup (hunrefused : Step.Unrefused steps)
    (hnodup : ((Step.bindings steps).map Prod.fst).Nodup)
    (hadmits : ∀ a ∈ Step.bindings steps, AliasTable.Admits d.aliases a) :
    (d.perform steps).2 = none ∧
      (d.perform steps).1.aliases.entries =
        d.aliases.entries ++ (Step.bindings steps).filter (fun a => a.1 ∉ d.aliases.keys) ∧
      (d.perform steps).1.lines = d.lines ++ Step.lines steps := by
  have hagree : ∀ a ∈ Step.bindings steps, ∀ b ∈ Step.bindings steps, a.1 = b.1 → a.2 = b.2 := by
    intro a ha b hb hname
    rw [List.inj_on_of_nodup_map hnodup ha hb hname]
  have hend : (d.perform steps).2 = none := perform_eq_none_iff.2 ⟨hunrefused, hadmits, hagree⟩
  obtain ⟨hlines, haliases⟩ := of_perform_eq_none hend
  rw [haliases, AliasTable.entries_bindAll_of_nodup hnodup]
  exact ⟨hend, rfl, hlines⟩

/-- A binding that goes against one made before all steps ends their
performance, and leaves what the steps in front of it leave. -/
theorem perform_stops_at_bind {field : FieldHead} {name : Verbatim} {bound underlying : String}
    (after : List Step) (hend : (d.perform steps).2 = none)
    (hbound : d.aliases.get? name = some bound) (hne : bound ≠ underlying) :
    d.perform (steps ++ .bind field name underlying :: after) =
      ((d.perform steps).1, some (field.refuse (.aliasConflict name bound underlying))) := by
  obtain ⟨-, hconsistent⟩ := perform_eq_none_iff.1 hend
  have hstays : (d.perform steps).1.aliases.get? name = some bound := by
    rw [(of_perform_eq_none hend).2]
    exact AliasTable.get?_bindAll_of_get? hconsistent hbound
  have hrefused : ¬ AliasTable.Admits (d.perform steps).1.aliases (name, underlying) :=
    fun hadmits => hne (hadmits bound hstays)
  obtain ⟨bound', hbound', hperform⟩ := perform_bind_of_not_admits field after hrefused
  obtain rfl : bound = bound' := Option.some.inj (hstays.symm.trans hbound')
  simp only [perform_append, hend, hperform]

end Draft

/-! ## The aliases of variants -/

/-- A member whose override names an alias and no external type. -/
def FieldHead.HasAlias (f : FieldHead) (name : Verbatim) : Prop :=
  ∃ override, f.override = some override ∧ override.external = none ∧
    override.typedef = some name

namespace FieldHead

variable {f : FieldHead} {name : Verbatim}

theorem ownAlias?_eq_some_iff : f.ownAlias? = some name ↔ f.HasAlias name := by
  rw [ownAlias?, HasAlias]
  rcases f.override with _ | ⟨_ | external, typedef⟩ <;> simp

/-- The alias of a member is its key. -/
theorem HasAlias.hasKey (h : f.HasAlias name) : f.HasKey name := by
  obtain ⟨override, hoverride, hexternal, htypedef⟩ := h
  exact .typedef hoverride hexternal htypedef

end FieldHead

/-- A member whose alias stands for a type other than its own in a table. -/
structure Field.Redefines (scope : Scope) (table : AliasTable) (f : Field) (name : Verbatim)
    (bound : String) : Prop where
  hasAlias : f.head.HasAlias name
  isBound : table.get? name = some bound
  differs : bound ≠ f.spelling scope

/-- The aliases of members that are free in a table, with the types of the
members, in the order of the members. -/
def freeAliases (scope : Scope) (table : AliasTable) (members : List Field) :
    List (Verbatim × String) :=
  (members.filterMap (·.aliasUse? scope)).filter fun a => a.1 ∉ table.keys

variable {scope : Scope} {table : AliasTable} {members : List Field}

theorem Field.aliasUse?_eq_some_iff {f : Field} {a : Verbatim × String} :
    f.aliasUse? scope = some a ↔ f.head.HasAlias a.1 ∧ a.2 = f.spelling scope := by
  obtain ⟨name, underlying⟩ := a
  simp only [aliasUse?, Option.map_eq_some_iff, FieldHead.ownAlias?_eq_some_iff, Prod.mk.injEq]
  constructor
  · rintro ⟨name', halias, rfl, rfl⟩
    exact ⟨halias, rfl⟩
  · rintro ⟨halias, rfl⟩
    exact ⟨name, halias, rfl, rfl⟩

/-- **No two variants of a tagged union have one alias.** -/
theorem Undecided.nodup_aliases (h : Undecided members) :
    ((members.filterMap (·.aliasUse? scope)).map Prod.fst).Nodup := by
  have hkeys := h.2
  rw [List.Nodup, List.pairwise_map] at hkeys ⊢
  rw [List.pairwise_filterMap]
  refine hkeys.imp fun hkey a ha b hb hname => hkey ?_
  have hfirst := (Field.aliasUse?_eq_some_iff.1 ha).1.hasKey
  have hsecond := (Field.aliasUse?_eq_some_iff.1 hb).1.hasKey
  rw [FieldHead.hasKey_iff.1 hfirst, FieldHead.hasKey_iff.1 hsecond, hname]

theorem Undecided.take (h : Undecided members) (i : Nat) : Undecided (members.take i) := by
  refine ⟨fun x hx => h.1 x (List.mem_of_mem_take hx), ?_⟩
  rw [List.map_take]
  exact h.2.sublist (List.take_sublist i _)

/-- No member redefines an alias exactly if a table admits all that they
bind. -/
theorem forall_not_redefines_iff :
    (∀ f ∈ members, ∀ name bound, ¬ f.Redefines scope table name bound) ↔
      ∀ a ∈ members.filterMap (·.aliasUse? scope), table.Admits a := by
  constructor
  · intro h a ha bound hbound
    obtain ⟨f, hf, huse⟩ := List.mem_filterMap.1 ha
    obtain ⟨halias, htype⟩ := Field.aliasUse?_eq_some_iff.1 huse
    by_contra hne
    exact h f hf a.1 bound ⟨halias, hbound, htype ▸ hne⟩
  · rintro h f hf name bound ⟨halias, hbound, hne⟩
    have huse : f.aliasUse? scope = some (name, f.spelling scope) :=
      Field.aliasUse?_eq_some_iff.2 ⟨halias, rfl⟩
    exact hne (h _ (List.mem_filterMap.2 ⟨f, hf, huse⟩) bound hbound)

/-! ## The steps of a oneof -/

namespace Oneof

variable {o : Oneof} {d : Draft} {depth : Int}

/-- A raw union is written, and binds nothing. -/
theorem perform_steps_of_raw {type : Verbatim} (h : o.plan = .ok (.raw type)) :
    (d.perform (o.steps scope depth)).2 = none ∧
      (d.perform (o.steps scope depth)).1.aliases = d.aliases ∧
      (d.perform (o.steps scope depth)).1.lines = d.lines ++ "" :: o.rawLines scope depth := by
  have hbindings : Step.bindings (o.steps scope depth) = [] := by
    simp [bindings_steps, variants, h]
  have hend : (d.perform (o.steps scope depth)).2 = none := by
    rw [Draft.perform_eq_none_iff, hbindings]
    exact ⟨unrefused_steps.2 ⟨_, h⟩, by simp, by simp⟩
  obtain ⟨hlines, haliases⟩ := Draft.of_perform_eq_none hend
  rw [haliases, hbindings, hlines, lines_steps_of_raw h]
  exact ⟨hend, rfl, rfl⟩

/-- The line of a variant. -/
def variantLine (scope : Scope) (depth : Int) (f : Field) : String :=
  indentation depth ++ "  " ++ f.variantSpelling scope ++ ","

/-- The steps of a tagged union up to some of its variants. -/
def openingSteps (scope : Scope) (depth : Int) (o : Oneof) (members : List Field) : List Step :=
  [.line "", .line (indentation depth ++ o.name.shown ++ ": union \x7b")] ++
    members.flatMap (·.variantSteps scope (indentation depth ++ "  "))

theorem steps_of_tagged (h : o.plan = .ok .tagged) :
    o.steps scope depth = o.openingSteps scope depth o.members ++
      [.line (indentation depth ++ "\x7d,")] := by
  simp only [steps, h, openingSteps]

/-- A variant with an alias binds it first. -/
theorem exists_steps_eq_bind {i : Nat} {f : Field} {name : Verbatim} (h : o.plan = .ok .tagged)
    (hf : o.members[i]? = some f) (halias : f.head.HasAlias name) :
    ∃ after, o.steps scope depth = o.openingSteps scope depth (o.members.take i) ++
      .bind f.head name (f.spelling scope) :: after := by
  have hsplit : o.members = o.members.take i ++ f :: o.members.drop (i + 1) := by
    rw [← take_succ_append hf, List.take_append_drop]
  have hvariant : f.variantSteps scope (indentation depth ++ "  ") =
      [.bind f.head name (f.spelling scope), .line (variantLine scope depth f)] := by
    simp only [Field.variantSteps, FieldHead.ownAlias?_eq_some_iff.2 halias, variantLine]
  have hopening : o.openingSteps scope depth o.members =
      o.openingSteps scope depth (o.members.take i) ++
        .bind f.head name (f.spelling scope) :: .line (variantLine scope depth f) ::
          (o.members.drop (i + 1)).flatMap (·.variantSteps scope (indentation depth ++ "  ")) := by
    conv_lhs => rw [hsplit]
    simp [openingSteps, hvariant]
  rw [steps_of_tagged h, hopening, List.append_assoc]
  exact ⟨_, rfl⟩

/-- **Variants whose aliases are distinct and not bound to other types** are
written, and bind what was free. -/
theorem perform_openingSteps (o : Oneof) (d : Draft) (depth : Int)
    (hundecided : Undecided members)
    (hfree : ∀ f ∈ members, ∀ name bound, ¬ f.Redefines scope d.aliases name bound) :
    (d.perform (o.openingSteps scope depth members)).2 = none ∧
      (d.perform (o.openingSteps scope depth members)).1.aliases.entries =
        d.aliases.entries ++ freeAliases scope d.aliases members ∧
      (d.perform (o.openingSteps scope depth members)).1.lines =
        d.lines ++ ["", indentation depth ++ o.name.shown ++ ": union \x7b"] ++
          members.map (variantLine scope depth) := by
  have hbindings : Step.bindings (o.openingSteps scope depth members) =
      members.filterMap (·.aliasUse? scope) := by
    simp [openingSteps, Step.bindings_flatMap, Field.bindings_variantSteps,
      List.filterMap_eq_flatMap_toList]
  have hlines : Step.lines (o.openingSteps scope depth members) =
      ["", indentation depth ++ o.name.shown ++ ": union \x7b"] ++
        members.map (variantLine scope depth) := by
    simp [openingSteps, Step.lines_flatMap, Field.lines_variantSteps, List.map_eq_flatMap,
      variantLine]
  have hunrefused : Step.Unrefused (o.openingSteps scope depth members) := by
    simp [openingSteps, Step.unrefused_flatMap, Field.unrefused_variantSteps, Step.refusal?]
  have hperform := Draft.perform_of_nodup (d := d) hunrefused
    (hbindings ▸ hundecided.nodup_aliases) (hbindings ▸ forall_not_redefines_iff.1 hfree)
  rwa [hbindings, hlines, ← List.append_assoc] at hperform

end Oneof

/-- **What writing a oneof leaves is known in every case.** A oneof without a
shape is refused and leaves the draft as it was. A raw union is written and
binds nothing. Take a tagged union, and the table of aliases before it. If no
variant has an alias that stands for another type there, the union is written
and its free aliases are bound, in the order of the variants. Otherwise the
first that has is refused, at its line if that is known; what is left are the
head of the union, the lines of the variants in front of it, and their free
aliases. -/
theorem oneof_writing_leaves (o : Oneof) (scope : Scope) (depth : Int) (d : Draft) :
    (∀ refusal, o.plan = .error refusal → d.perform (o.steps scope depth) = (d, some refusal)) ∧
    (∀ type, o.plan = .ok (.raw type) →
      (d.perform (o.steps scope depth)).2 = none ∧
      (d.perform (o.steps scope depth)).1.aliases = d.aliases ∧
      (d.perform (o.steps scope depth)).1.lines = d.lines ++ "" :: o.rawLines scope depth) ∧
    (o.plan = .ok .tagged →
      ((∀ f ∈ o.members, ∀ name bound, ¬ f.Redefines scope d.aliases name bound) →
        (d.perform (o.steps scope depth)).2 = none ∧
        (d.perform (o.steps scope depth)).1.aliases.entries =
          d.aliases.entries ++ freeAliases scope d.aliases o.members ∧
        (d.perform (o.steps scope depth)).1.lines =
          d.lines ++ ["", indentation depth ++ o.name.shown ++ ": union \x7b"] ++
            o.members.map (Oneof.variantLine scope depth) ++ [indentation depth ++ "\x7d,"]) ∧
      ∀ (i : Nat) (f : Field) (name : Verbatim) (bound : String), o.members[i]? = some f →
        f.Redefines scope d.aliases name bound →
        (∀ g ∈ o.members.take i, ∀ name bound, ¬ g.Redefines scope d.aliases name bound) →
        ∃ refusal, f.head.Reports (.aliasConflict name bound (f.spelling scope)) refusal ∧
          (d.perform (o.steps scope depth)).2 = some refusal ∧
          (d.perform (o.steps scope depth)).1.aliases.entries =
            d.aliases.entries ++ freeAliases scope d.aliases (o.members.take i) ∧
          (d.perform (o.steps scope depth)).1.lines =
            d.lines ++ ["", indentation depth ++ o.name.shown ++ ": union \x7b"] ++
              (o.members.take i).map (Oneof.variantLine scope depth)) := by
  refine ⟨fun refusal hplan => ?_, fun type hplan => ?_, fun hplan => ⟨fun hfree => ?_, ?_⟩⟩
  · simp only [Oneof.steps, hplan, Draft.perform]
  · exact Oneof.perform_steps_of_raw hplan
  · obtain ⟨hend, haliases, hlines⟩ :=
      o.perform_openingSteps d depth (Oneof.plan_eq_tagged_iff.1 hplan) hfree
    rw [Oneof.steps_of_tagged hplan, Draft.perform_append]
    simp only [hend, Draft.perform, haliases, hlines]
    trivial
  · intro i f name bound hf hredefines hfirst
    have hundecided : Undecided o.members := Oneof.plan_eq_tagged_iff.1 hplan
    obtain ⟨hend, haliases, hlines⟩ :=
      o.perform_openingSteps d depth (hundecided.take i) hfirst
    obtain ⟨after, hsteps⟩ := Oneof.exists_steps_eq_bind hplan hf hredefines.hasAlias
    rw [hsteps, Draft.perform_stops_at_bind after hend hredefines.isBound hredefines.differs]
    exact ⟨_, f.head.reports_refuse _, rfl, haliases, hlines⟩

/-- A draft in which two aliases are bound. -/
def boundDraft : Draft where
  lines := ["// M"]
  aliases := AliasTable.bindAll .empty [("Id", "string"), ("Size", "i64")]

/-- A oneof with four aliases. In the draft the first is free, the second is
bound to its type, and the third to another. -/
def conflictingOneof : Oneof where
  name := "choice"
  fullName := "M.choice"
  members := [
    .single { name := "a", code := 5, override := some { typedef := some "Count" } },
    .single { name := "b", code := 9, override := some { typedef := some "Id" } },
    .single { name := "c", code := 5, override := some { typedef := some "Size" },
              location := some { line := 6 } },
    .single { name := "d", code := 8, override := some { typedef := some "Flag" } }]

/-- The third member is refused. The lines of two variants are left, and the
alias of the first. -/
theorem oneof_writing_leaves_conflict :
    let scope := Scope.ofPackage none
    let result := boundDraft.perform (conflictingOneof.steps scope 1)
    conflictingOneof.plan = .ok .tagged ∧
      result.2 = some (.diagnostic ⟨7, .aliasConflict "Size" "i64" "i32"⟩) ∧
      result.1.aliases.entries =
        ([("Id", "string"), ("Size", "i64"), ("Count", "i32")] : List (Verbatim × String)) ∧
      result.1.lines = ["// M", "", "  choice: union \x7b", "    Count,", "    Id,"] := by
  intro scope result
  have hplan : conflictingOneof.plan = .ok .tagged := by decide +kernel
  have hfirst : ∀ g ∈ conflictingOneof.members.take 2, ∀ name bound,
      ¬ g.Redefines scope boundDraft.aliases name bound :=
    forall_not_redefines_iff.2 (by decide +kernel)
  obtain ⟨refusal, hreports, hend, haliases, hlines⟩ :=
    ((oneof_writing_leaves conflictingOneof scope 1 boundDraft).2.2 hplan).2 2 _ "Size" "i64" rfl
      ⟨⟨_, rfl, rfl, rfl⟩, by decide +kernel, by decide +kernel⟩ hfirst
  rw [hreports.1 _ rfl] at hend
  refine ⟨hplan, hend.trans ?_, haliases.trans ?_, hlines.trans ?_⟩ <;> decide +kernel

end OdinSchema
