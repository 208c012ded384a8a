import OdinSchema.Proofs.StructBody

/-!
# The checks behind a text, in their order

A file is refused for a member of a oneof: the scan for the shape of the
oneof finds a fault with it, or its alias stands for another type already.
`File.checks` lists these checks as a reader would make them, message by
message and oneof by oneof, each on a field in its place in the file, and
`firstFault?` goes through them until one fails. The steps that write a file
perform the checks on the way. Steps that stop where the first check fails,
and that otherwise leave the aliases of all checks bound, realise the checks
(`Realises`); realisations can be put together, so what is shown of a single
variant holds of a whole file.
-/

namespace OdinSchema

/-! ## Checks -/

/-- A field in its place: the address of its message and its position among
the fields there. -/
structure PlacedField where
  address : MessageAddress
  position : Nat
  field : Field
  deriving DecidableEq, Repr

namespace PlacedField

/-- The path by which the source text places the field. -/
def path (x : PlacedField) : List Int :=
  x.address.path ++ [2, (x.position : Int)]

/-- What tells the type of the field from those of other members. -/
def key (x : PlacedField) : Verbatim :=
  x.field.head.variantKey

/-- Whether an option overrides the type of the field. -/
def isOverridden (x : PlacedField) : Bool :=
  x.field.head.override.isSome

end PlacedField

/-- A check of a member of a oneof. -/
inductive Check where
  /-- That its type can be told from those of the earlier members. -/
  | shape (earlier : List PlacedField) (member : PlacedField)
  /-- That its alias is free, or stands for its type already. -/
  | binding (member : PlacedField)
  deriving DecidableEq, Repr

namespace Check

/-- The member that is checked. -/
def member : Check → PlacedField
  | shape _ member => member
  | binding member => member

/-- The alias that is bound by a check, with its type. -/
def aliasUse? (scope : Scope) : Check → Option (Verbatim × String)
  | shape _ _ => none
  | binding member => member.field.aliasUse? scope

end Check

/-- The aliases that are bound by checks, in order. -/
def boundAliases (scope : Scope) (checks : List Check) : List (Verbatim × String) :=
  checks.filterMap (·.aliasUse? scope)

/-- What a check finds wrong, after others have passed. A member fails the
scan if its override is empty, or if it repeats the key of an earlier member
and one of the members so far has an override. It cannot have an alias that
was bound to another type first. -/
def Check.fault? (scope : Scope) (passed : List Check) : Check → Option Fault
  | shape earlier member =>
    match member.field.head.overrideFault? with
    | some fault => some fault
    | none =>
      if member.key ∈ earlier.map (·.key) ∧ (member :: earlier).any (·.isOverridden) then
        some (.repeatedVariant member.key member.field.head.name)
      else none
  | binding member =>
    match member.field.aliasUse? scope with
    | some (name, wanted) =>
      match (boundAliases scope passed).lookup name with
      | some bound => if bound = wanted then none else some (.aliasConflict name bound wanted)
      | none => none
    | none => none

/-- The first check that finds something wrong, and what it finds. -/
def firstFault? (scope : Scope) (passed : List Check) : List Check → Option (Check × Fault)
  | [] => none
  | check :: rest =>
    match check.fault? scope passed with
    | some fault => some (check, fault)
    | none => firstFault? scope (passed ++ [check]) rest

/-! ## Their order -/

/-- The scan of members after earlier ones. It ends at the first key that is
repeated. -/
def shapeChecks (earlier : List PlacedField) : List PlacedField → List Check
  | [] => []
  | member :: rest =>
    .shape earlier member ::
      if member.key ∈ earlier.map (·.key) then [] else shapeChecks (earlier ++ [member]) rest

/-- The checks of the members of a oneof: the scan of all of them, and, if no
key is repeated, the binding of their aliases. -/
def oneofChecks (members : List PlacedField) : List Check :=
  shapeChecks [] members ++
    if (members.map (·.key)).Nodup then members.map .binding else []

/-- The members of the oneof at a position, in their places. -/
def MessageHead.oneofMembers (a : MessageAddress) (m : MessageHead) (i : Nat) :
    List PlacedField :=
  (m.fields.zipIdx.filter fun x => x.1.oneofPosition? m.oneofs.length = some i).map
    fun x => ⟨a, x.2, x.1⟩

/-- The checks of a message, oneof by oneof. -/
def MessageHead.checks (a : MessageAddress) (m : MessageHead) : List Check :=
  m.oneofs.zipIdx.flatMap fun x => oneofChecks (m.oneofMembers a x.2)

mutual

/-- A message at an address and, map entries left out, all that is nested in
it, each with its address. -/
def Message.writtenAt (a : MessageAddress) : Message → List (MessageAddress × MessageHead)
  | .mk head nested => (a, head) :: Message.writtenWithin a.child 0 nested

/-- The messages of a list that are no map entries, with all that is nested
in them. The first is in the place numbered `start`. -/
def Message.writtenWithin (place : Nat → MessageAddress) (start : Nat) :
    List Message → List (MessageAddress × MessageHead)
  | [] => []
  | message :: rest =>
    (if message.head.isMapEntry then [] else message.writtenAt (place start)) ++
      Message.writtenWithin place (start + 1) rest

end

/-- The messages of a file that can be written, in order. -/
def File.written (f : File) : List (MessageAddress × MessageHead) :=
  Message.writtenWithin (fun i => { top := i }) 0 f.messages

/-- The checks of messages, one message after the other. -/
def messageChecks (messages : List (MessageAddress × MessageHead)) : List Check :=
  messages.flatMap fun x => x.2.checks x.1

/-- The checks of a file. -/
def File.checks (f : File) : List Check :=
  messageChecks f.written

/-! ## Steps that realise checks -/

variable {scope : Scope} {passed : List Check} {d : Draft}

theorem boundAliases_append (xs ys : List Check) :
    boundAliases scope (xs ++ ys) = boundAliases scope xs ++ boundAliases scope ys :=
  List.filterMap_append

/-- The checks after some are made as if these had passed before. -/
theorem firstFault?_append (xs ys : List Check) : firstFault? scope passed (xs ++ ys) =
    match firstFault? scope passed xs with
    | some found => some found
    | none => firstFault? scope (passed ++ xs) ys := by
  induction xs generalizing passed with
  | nil => rw [firstFault?, List.nil_append, List.append_nil]
  | cons check rest ih =>
    rw [List.cons_append, firstFault?, firstFault?]
    cases check.fault? scope passed with
    | some fault => rfl
    | none =>
      dsimp only
      rw [ih, List.append_assoc, List.singleton_append]

/-- A fault is found by one of the checks, after others. -/
theorem mem_of_firstFault? {checks : List Check} {check : Check} {fault : Fault}
    (h : firstFault? scope passed checks = some (check, fault)) :
    check ∈ checks ∧ ∃ before, check.fault? scope before = some fault := by
  induction checks generalizing passed with
  | nil => cases h
  | cons first rest ih =>
    rw [firstFault?] at h
    cases hfault : first.fault? scope passed with
    | some found =>
      rw [hfault] at h
      cases h
      exact ⟨List.mem_cons_self, passed, hfault⟩
    | none =>
      rw [hfault] at h
      obtain ⟨hmem, hbefore⟩ := ih h
      exact ⟨List.mem_cons_of_mem _ hmem, hbefore⟩

/-- A draft in which the aliases of checks are bound, each as it was first. -/
def Draft.Records (scope : Scope) (passed : List Check) (d : Draft) : Prop :=
  ∀ name, d.aliases.get? name = (boundAliases scope passed).lookup name

/-- Steps that stop where the first check fails, for what is wrong with the
member there, and that bind the aliases of the checks if none fails. -/
def Realises (scope : Scope) (steps : List Step) (checks : List Check) : Prop :=
  ∀ passed (d : Draft), d.Records scope passed →
    match firstFault? scope passed checks with
    | none => (d.perform steps).2 = none ∧ (d.perform steps).1.Records scope (passed ++ checks)
    | some (check, fault) =>
      (d.perform steps).2 = some (check.member.field.head.refuse fault)

namespace Realises

variable {xs ys : List Step} {cs ds : List Check}

/-- **Realisations can be put together.** -/
theorem append (hx : Realises scope xs cs) (hy : Realises scope ys ds) :
    Realises scope (xs ++ ys) (cs ++ ds) := by
  intro passed d hrecords
  have hfirst := hx passed d hrecords
  rw [firstFault?_append, Draft.perform_append]
  cases hfault : firstFault? scope passed cs with
  | some found =>
    rw [hfault] at hfirst
    simp only [hfirst]
  | none =>
    rw [hfault] at hfirst
    obtain ⟨hend, hrecords'⟩ := hfirst
    have hrest := hy (passed ++ cs) _ hrecords'
    rw [List.append_assoc] at hrest
    simpa only [hend] using hrest

/-- Steps that neither bind nor refuse realise checks that bind nothing and
pass. -/
theorem of_quiet (hbindings : Step.bindings xs = []) (hunrefused : Step.Unrefused xs)
    (haliases : boundAliases scope cs = []) (hpass : ∀ passed, firstFault? scope passed cs = none) :
    Realises scope xs cs := by
  intro passed d hrecords
  have hend : (d.perform xs).2 = none := by
    refine Draft.perform_eq_none_iff.2 ⟨hunrefused, ?_⟩
    rw [hbindings]
    exact ⟨by simp, by simp⟩
  rw [hpass]
  refine ⟨hend, fun name => ?_⟩
  rw [(Draft.of_perform_eq_none hend).2, hbindings, boundAliases_append, haliases, List.append_nil]
  exact hrecords name

theorem lines (texts : List String) : Realises scope (texts.map .line) [] :=
  of_quiet (Step.bindings_map_line texts) (Step.unrefused_map_line texts) rfl fun _ => rfl

theorem flatMap {α : Type} {items : List α} {steps : α → List Step} {checks : α → List Check}
    (h : ∀ x ∈ items, Realises scope (steps x) (checks x)) :
    Realises scope (items.flatMap steps) (items.flatMap checks) := by
  induction items with
  | nil => exact lines []
  | cons x items ih =>
    obtain ⟨hx, hitems⟩ := List.forall_mem_cons.1 h
    rw [List.flatMap_cons, List.flatMap_cons]
    exact hx.append (ih hitems)

end Realises

/-! ## Variants -/

/-- An alias is admitted exactly if no fault is found with it. -/
theorem Draft.Records.admits_iff (h : d.Records scope passed) {member : PlacedField}
    {name : Verbatim} {wanted : String} (huse : member.field.aliasUse? scope = some (name, wanted)) :
    AliasTable.Admits d.aliases (name, wanted) ↔
      (Check.binding member).fault? scope passed = none := by
  have hget : d.aliases.get? name = (boundAliases scope passed).lookup name := h name
  simp only [AliasTable.Admits, Check.fault?, huse, hget]
  cases (boundAliases scope passed).lookup name with
  | none => simp
  | some bound => by_cases hbound : bound = wanted <;> simp [hbound]

/-- An admitted binding is recorded behind those that were made before. -/
theorem Draft.Records.define (h : d.Records scope passed) {check : Check} {name : Verbatim}
    {wanted : String} (huse : check.aliasUse? scope = some (name, wanted))
    (hadmits : AliasTable.Admits d.aliases (name, wanted)) (other : Verbatim) :
    (d.aliases.define name wanted).2.get? other =
      (boundAliases scope (passed ++ [check])).lookup other := by
  have hlast : boundAliases scope [check] = [(name, wanted)] := by
    simp only [boundAliases, List.filterMap_cons, huse, List.filterMap_nil]
  have hget := h other
  rw [boundAliases_append, hlast, List.lookup_append, ← hget, AliasTable.get?_define hadmits,
    List.lookup_cons, List.lookup_nil]
  by_cases hother : other = name
  · subst hother
    rw [if_pos rfl, beq_self_eq_true]
    cases hbound : d.aliases.get? other with
    | none => rfl
    | some bound => rw [hadmits bound hbound, Option.some_or]
  · have hbeq : (other == name) = false := by simpa using hother
    rw [if_neg hother, hbeq, Option.or_none]

/-- The steps of a variant check its alias. -/
theorem realises_variantSteps (indent : String) (member : PlacedField) :
    Realises scope (member.field.variantSteps scope indent) [.binding member] := by
  intro passed d hrecords
  unfold Field.variantSteps
  cases hname : member.field.head.ownAlias? with
  | none =>
    have huse : (Check.binding member).aliasUse? scope = none := by
      rw [Check.aliasUse?, Field.aliasUse?, hname, Option.map_none]
    have hfault : (Check.binding member).fault? scope passed = none := by
      have hnone : member.field.aliasUse? scope = none := huse
      simp only [Check.fault?, hnone]
    have hsame : boundAliases scope (passed ++ [.binding member]) = boundAliases scope passed := by
      have hlast : boundAliases scope [.binding member] = [] := by
        simp only [boundAliases, List.filterMap_cons, huse, List.filterMap_nil]
      rw [boundAliases_append, hlast, List.append_nil]
    simp only [firstFault?, hfault]
    refine ⟨rfl, fun name => ?_⟩
    rw [hsame]
    exact hrecords name
  | some name =>
    have huse : member.field.aliasUse? scope = some (name, member.field.spelling scope) := by
      rw [Field.aliasUse?, hname, Option.map_some]
    by_cases hadmits : AliasTable.Admits d.aliases (name, member.field.spelling scope)
    · simp only [firstFault?, (hrecords.admits_iff huse).1 hadmits,
        Draft.perform_bind_of_admits hadmits]
      exact ⟨rfl, hrecords.define huse hadmits⟩
    · obtain ⟨bound, hbound, hperform⟩ := Draft.perform_bind_of_not_admits member.field.head
        [.line (indent ++ member.field.variantSpelling scope ++ ",")] hadmits
      have hne : bound ≠ member.field.spelling scope := by
        intro hsame
        refine hadmits fun other hother => ?_
        exact (Option.some.inj (hother.symm.trans hbound)).trans hsame
      have hfault : (Check.binding member).fault? scope passed =
          some (.aliasConflict name bound (member.field.spelling scope)) := by
        have hlookup : (boundAliases scope passed).lookup name = some bound :=
          (hrecords name).symm.trans hbound
        simp only [Check.fault?, huse, hlookup, if_neg hne]
      simp only [firstFault?, hfault, hperform]
      rfl

/-! ## Shapes -/

namespace Plan

variable {forced : Bool} {seen : List Verbatim} {x : Field} {rest : List Field}

theorem scan_of_fault {fault : Fault} (hfault : x.head.overrideFault? = some fault) :
    scan forced seen (x :: rest) = .error (x.head.refuse fault) := by
  simp only [scan, hfault]

theorem scan_of_repeat (hfault : x.head.overrideFault? = none)
    (hseen : x.head.variantKey ∈ seen) : scan forced seen (x :: rest) =
      if forced || x.head.override.isSome then
        .error (x.head.refuse (.repeatedVariant x.head.variantKey x.head.name))
      else .ok (.raw x.head.variantKey) := by
  simp only [scan, hfault, if_pos hseen]

/-- A raw union repeats a key. -/
theorem not_nodup_of_scan_eq_raw {members : List Field} {type : Verbatim}
    (h : scan forced seen members = .ok (.raw type)) :
    ¬ ((members.map (·.head.variantKey)).Nodup ∧ ∀ x ∈ members, x.head.variantKey ∉ seen) := by
  induction members generalizing forced seen with
  | nil => cases h
  | cons x rest ih =>
    rintro ⟨hnodup, hfresh⟩
    obtain ⟨hx, hrest⟩ := List.forall_mem_cons.1 hfresh
    rw [List.map_cons, List.nodup_cons] at hnodup
    cases hfault : x.head.overrideFault? with
    | some fault =>
      rw [scan_of_fault hfault] at h
      cases h
    | none =>
      rw [scan_of_fresh hfault hx] at h
      refine ih h ⟨hnodup.2, fun y hy hmem => ?_⟩
      rcases List.mem_cons.1 hmem with hsame | hmem
      · exact hnodup.1 (hsame ▸ List.mem_map_of_mem hy)
      · exact hrest y hy hmem

end Plan

/-- No alias is bound by a scan. -/
theorem boundAliases_shapeChecks (earlier members : List PlacedField) :
    boundAliases scope (shapeChecks earlier members) = [] := by
  induction members generalizing earlier with
  | nil => rfl
  | cons member rest ih =>
    rw [shapeChecks]
    split
    · rfl
    · exact ih _

/-- **The scan of a oneof makes its checks**: it ends in an error exactly if
one of them fails, for what is wrong with that member. -/
theorem firstFault?_shapeChecks {forced : Bool} {seen : List Verbatim}
    {earlier members : List PlacedField} (hseen : ∀ k, k ∈ seen ↔ k ∈ earlier.map (·.key))
    (hforced : forced = earlier.any (·.isOverridden)) (passed : List Check) :
    match Plan.scan forced seen (members.map (·.field)) with
    | .ok _ => firstFault? scope passed (shapeChecks earlier members) = none
    | .error refusal => ∃ check fault,
        firstFault? scope passed (shapeChecks earlier members) = some (check, fault) ∧
          refusal = check.member.field.head.refuse fault := by
  -- the keys seen so far and the earlier members grow together
  induction members generalizing forced seen earlier passed with
  | nil => rfl
  | cons member rest ih =>
    rw [List.map_cons, shapeChecks, firstFault?]
    cases hfault : member.field.head.overrideFault? with
    | some fault =>
      have hcheck : (Check.shape earlier member).fault? scope passed = some fault := by
        simp only [Check.fault?, hfault]
      rw [Plan.scan_of_fault hfault, hcheck]
      exact ⟨_, _, rfl, rfl⟩
    | none =>
      have hany : (member :: earlier).any (·.isOverridden) =
          (forced || member.field.head.override.isSome) := by
        rw [List.any_cons, ← hforced, Bool.or_comm]
        rfl
      by_cases hrepeated : member.key ∈ earlier.map (·.key)
      · rw [Plan.scan_of_repeat hfault ((hseen _).2 hrepeated), if_pos hrepeated]
        cases hoverridden : forced || member.field.head.override.isSome with
        | true =>
          have hcheck : (Check.shape earlier member).fault? scope passed =
              some (.repeatedVariant member.key member.field.head.name) := by
            simp only [Check.fault?, hfault]
            rw [if_pos ⟨hrepeated, hany.trans hoverridden⟩]
          rw [hcheck]
          exact ⟨_, _, rfl, rfl⟩
        | false =>
          have hcheck : (Check.shape earlier member).fault? scope passed = none := by
            simp only [Check.fault?, hfault]
            rw [if_neg fun hboth => absurd (hany.symm.trans hboth.2) (by rw [hoverridden]; nofun)]
          rw [hcheck]
          rfl
      · have hcheck : (Check.shape earlier member).fault? scope passed = none := by
          simp only [Check.fault?, hfault]
          rw [if_neg fun hboth => hrepeated hboth.1]
        rw [Plan.scan_of_fresh hfault fun hmem => hrepeated ((hseen _).1 hmem), hcheck,
          if_neg hrepeated]
        refine ih (fun k => ?_) ?_ _
        · rw [List.mem_cons, hseen, List.map_append, List.mem_append, or_comm]
          simp [PlacedField.key]
        · rw [List.any_append, List.any_cons, List.any_nil, Bool.or_false, hforced]
          rfl

/-- **The steps of a oneof make its checks.** -/
theorem realises_oneof_steps {o : Oneof} {members : List PlacedField}
    (hmembers : members.map (·.field) = o.members) (depth : Int) :
    Realises scope (o.steps scope depth) (oneofChecks members) := by
  have hkeys : members.map (·.key) = o.members.map (·.head.variantKey) := by
    rw [← hmembers, List.map_map]
    rfl
  have hscan : ∀ passed, match o.plan with
      | .ok _ => firstFault? scope passed (shapeChecks [] members) = none
      | .error refusal => ∃ check fault,
          firstFault? scope passed (shapeChecks [] members) = some (check, fault) ∧
            refusal = check.member.field.head.refuse fault := by
    intro passed
    rw [Oneof.plan, ← hmembers]
    exact @firstFault?_shapeChecks scope false [] [] members (fun _ => Iff.rfl) rfl passed
  unfold Oneof.steps oneofChecks
  cases hplan : o.plan with
  | error refusal =>
    rw [hplan] at hscan
    intro passed d hrecords
    obtain ⟨check, fault, hfault, hrefusal⟩ := hscan passed
    rw [firstFault?_append, hfault]
    exact congrArg some hrefusal
  | ok plan =>
    rw [hplan] at hscan
    cases plan with
    | tagged =>
      have hnodup : (members.map (·.key)).Nodup := by
        rw [hkeys]
        exact (Oneof.plan_eq_tagged_iff.1 hplan).2
      have hvariants : Realises scope
          (o.members.flatMap (·.variantSteps scope (indentation depth ++ "  ")))
          (members.map .binding) := by
        rw [← hmembers, List.flatMap_map, List.map_eq_flatMap]
        exact .flatMap fun member _ => realises_variantSteps _ member
      have hopening : Realises scope
          [.line "", .line (indentation depth ++ o.name.shown ++ ": union \x7b")]
          (shapeChecks [] members) :=
        .of_quiet rfl (by simp [Step.refusal?]) (boundAliases_shapeChecks [] members) hscan
      have hwhole := (hopening.append hvariants).append (.lines [indentation depth ++ "\x7d,"])
      rw [List.append_nil] at hwhole
      rw [if_pos hnodup]
      exact hwhole
    | raw type =>
      have hrepeats : ¬ (members.map (·.key)).Nodup := by
        rw [hkeys]
        exact fun hnodup => Plan.not_nodup_of_scan_eq_raw hplan ⟨hnodup, by simp⟩
      rw [if_neg hrepeats, List.append_nil]
      refine .of_quiet ?_ ?_ (boundAliases_shapeChecks [] members) hscan
      · simp
      · simp [Step.refusal?]

/-! ## Messages and files -/

/-- The oneofs of a message list the fields at their positions. -/
def MessageHead.Divided (m : MessageHead) : Prop :=
  ∀ (i : Nat) (o : Oneof), m.oneofs[i]? = some o →
    o.members = m.fields.filter fun f => f.oneofPosition? m.oneofs.length = some i

/-- The members of a oneof in their places are its members. -/
theorem MessageHead.Divided.map_field {m : MessageHead} (h : m.Divided) (a : MessageAddress)
    {i : Nat} {o : Oneof} (ho : m.oneofs[i]? = some o) :
    (m.oneofMembers a i).map (·.field) = o.members := by
  rw [h i o ho, oneofMembers, List.map_map]
  have hfst : m.fields = m.fields.zipIdx.map Prod.fst := (List.zipIdx_map_fst 0 m.fields).symm
  conv_rhs => rw [hfst, List.filter_map]
  rfl

/-- The steps of a struct make the checks of its message. -/
theorem realises_structSteps {m : MessageHead} (h : m.Divided) (a : MessageAddress) :
    Realises scope (m.structSteps scope) (m.checks a) := by
  have honeofs : Realises scope (m.oneofs.flatMap (·.steps scope 1)) (m.checks a) := by
    have hfst : m.oneofs = m.oneofs.zipIdx.map Prod.fst := (List.zipIdx_map_fst 0 m.oneofs).symm
    rw [hfst, List.flatMap_map, MessageHead.checks]
    refine .flatMap fun x hx => ?_
    exact realises_oneof_steps (h.map_field a (List.mem_zipIdx_iff_getElem?.1 hx)) 1
  have hopening := @Realises.lines scope
    (["", scope.resolve m.fullName ++ " :: struct \x7b"] ++ m.plainFields.map (·.line scope 1))
  have hwhole := (hopening.append honeofs).append (.lines ["\x7d"])
  rw [List.nil_append, List.append_nil, List.map_append] at hwhole
  rw [MessageHead.structSteps_eq]
  exact hwhole

theorem messageChecks_append (xs ys : List (MessageAddress × MessageHead)) :
    messageChecks (xs ++ ys) = messageChecks xs ++ messageChecks ys :=
  List.flatMap_append

mutual

/-- **The steps of a message make the checks** of the messages that are
written with it. -/
theorem realises_message_steps : ∀ (m : Message) (a : MessageAddress),
    m.head.isMapEntry = false → (∀ x ∈ m.writtenAt a, x.2.Divided) →
    Realises scope (m.steps scope) (messageChecks (m.writtenAt a))
  | .mk head nested, a, hentry, hdivided => by
    have hhead : head.isMapEntry = false := hentry
    rw [Message.writtenAt, List.forall_mem_cons] at hdivided
    have henums : Realises scope (head.enums.flatMap (·.steps scope)) [] :=
      .of_quiet (EnumType.bindings_steps _) (EnumType.unrefused_steps _) rfl fun _ => rfl
    have hwhole := ((realises_structSteps hdivided.1 a).append
      (realises_nestedSteps nested a.child 0 hdivided.2)).append henums
    rw [List.append_nil] at hwhole
    rw [Message.steps, hhead]
    exact hwhole

theorem realises_nestedSteps : ∀ (ms : List Message) (place : Nat → MessageAddress) (start : Nat),
    (∀ x ∈ Message.writtenWithin place start ms, x.2.Divided) →
    Realises scope (Message.nestedSteps scope ms)
      (messageChecks (Message.writtenWithin place start ms))
  | [], place, start, _ => .lines []
  | m :: rest, place, start, hdivided => by
    rw [Message.writtenWithin, List.forall_mem_append] at hdivided
    rw [Message.nestedSteps, Message.writtenWithin, messageChecks_append]
    refine .append ?_ (realises_nestedSteps rest place (start + 1) hdivided.2)
    cases hentry : m.head.isMapEntry with
    | true => exact .lines []
    | false =>
      rw [hentry] at hdivided
      exact realises_message_steps m (place start) hentry hdivided.1

end

/-- Messages at the top of a file are refused for the first check that fails,
or for a map entry among them. -/
theorem refusal_of_perform {ms : List Message} {place : Nat → MessageAddress} {start : Nat}
    {refusal : Refusal} (hdivided : ∀ x ∈ Message.writtenWithin place start ms, x.2.Divided)
    (hrecords : d.Records scope passed)
    (h : (d.perform (ms.flatMap (·.steps scope))).2 = some refusal) :
    (∃ check fault,
      firstFault? scope passed (messageChecks (Message.writtenWithin place start ms)) =
        some (check, fault) ∧
      refusal = check.member.field.head.refuse fault) ∨
    ∃ m ∈ ms, m.head.isMapEntry = true ∧ refusal = .defect (.mapEntry m.head.fullName) := by
  induction ms generalizing passed d start with
  | nil => cases h
  | cons m rest ih =>
    rw [Message.writtenWithin, List.forall_mem_append] at hdivided
    rw [List.flatMap_cons, Draft.perform_append] at h
    rw [Message.writtenWithin, messageChecks_append]
    cases hentry : m.head.isMapEntry with
    | true =>
      refine .inr ⟨m, List.mem_cons_self, hentry, ?_⟩
      obtain ⟨head, nested⟩ := m
      have hhead : head.isMapEntry = true := hentry
      rw [Message.steps, hhead] at h
      exact (Option.some.inj h).symm
    | false =>
      rw [hentry] at hdivided
      have hfirst := realises_message_steps m (place start) hentry hdivided.1 passed d hrecords
      rw [firstFault?_append, if_neg Bool.false_ne_true]
      cases hfault : firstFault? scope passed (messageChecks (m.writtenAt (place start))) with
      | some found =>
        obtain ⟨check, fault⟩ := found
        rw [hfault] at hfirst
        simp only [hfirst] at h
        exact .inl ⟨check, fault, rfl, (Option.some.inj h).symm⟩
      | none =>
        rw [hfault] at hfirst
        obtain ⟨hend, hrecords'⟩ := hfirst
        simp only [hend] at h
        refine (ih hdivided.2 hrecords' h).imp_right ?_
        rintro ⟨n, hn, hnentry, hrefusal⟩
        exact ⟨n, List.mem_cons_of_mem m hn, hnentry, hrefusal⟩

/-- What stands in front of the declarations makes no checks, and is written
if the package is text. -/
theorem File.realises_preambleSteps {f : File} {base : String} {version : Version}
    (h : ¬ ∃ bytes, f.package = some (.bytes bytes)) :
    Realises f.scope (f.preambleSteps base version) [] := by
  have hlegible : ∀ package ∈ f.package, ∃ text, package = .text text := by
    intro package hmem
    cases package with
    | text text => exact ⟨text, rfl⟩
    | bytes bytes => exact absurd ⟨bytes, hmem⟩ h
  exact .of_quiet bindings_preambleSteps (unrefused_preambleSteps.2 hlegible) rfl fun _ => rfl

/-- **A file is refused for its package, for a check or for a map entry.** A
check it is refused for is the first that fails, and the refusal is that of the
member that is checked. -/
theorem File.refusal_of_draft {f : File} {base : String} {version : Version} {refusal : Refusal}
    (hdivided : ∀ x ∈ f.written, x.2.Divided) (h : (f.draft base version).2 = some refusal) :
    ((∃ bytes, f.package = some (.bytes bytes)) ∧ refusal = .illegible .start) ∨
      (∃ check fault, firstFault? f.scope [] f.checks = some (check, fault) ∧
        refusal = check.member.field.head.refuse fault) ∨
      ∃ m ∈ f.messages, m.head.isMapEntry = true ∧
        refusal = .defect (.mapEntry m.head.fullName) := by
  rw [draft, Draft.perform_append] at h
  by_cases hpackage : ∃ bytes, f.package = some (.bytes bytes)
  · refine .inl ⟨hpackage, ?_⟩
    obtain ⟨bytes, hbytes⟩ := hpackage
    rw [preambleSteps, packageStep, hbytes] at h
    exact (Option.some.inj h).symm
  · have hpreamble : Realises f.scope (f.preambleSteps base version) [] :=
      realises_preambleSteps hpackage
    obtain ⟨hend, hrecords⟩ := hpreamble [] { events := [.rendering f.name] } fun _ => rfl
    simp only [hend] at h
    exact .inr (refusal_of_perform hdivided hrecords h)

end OdinSchema
