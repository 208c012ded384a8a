import Mathlib.Data.List.Infix
import OdinSchema.Operation
import OdinSchema.Proofs.Drafting

/-!
# Bindings are permanent

Operations share a table of aliases, and one that writes can be refused at
any of its steps, with part of its bindings made. `Operation.tablesOf` lists
the tables of a run of operations at all its points: before an operation,
after every step of it, those before a refusal included, and after it. Each
of these tables begins with the entries of every one before it. The reason
is one step: to bind an alias adds an entry at the end or changes nothing
(`Dictionary.entries_define`). What is bound at some point is bound so ever
after, and so the first table that knows an alias tells what every later
attempt to define it gives.
-/

namespace OdinSchema

/-! ## Tables that begin with another -/

namespace Dictionary

variable {κ α : Type} [DecidableEq κ] {d e : Dictionary κ α} {key : κ} {value : α}

/-- **To define a key adds an entry at the end or changes nothing.** -/
theorem entries_define (d : Dictionary κ α) (key : κ) (value : α) :
    d.entries <+: (d.define key value).2.entries := by
  by_cases h : key ∈ d.keys
  · rw [snd_define_of_mem h]
  · rw [define, dif_neg h]
    exact List.prefix_append _ _

/-- A dictionary keeps the values of one that it begins with. -/
theorem get?_of_extends (h : d.entries <+: e.entries) (hget : d.get? key = some value) :
    e.get? key = some value :=
  mem_entries_iff.1 (h.subset (mem_entries_iff.2 hget))

/-- **Of dictionaries that grow, the first that knows a key has its value.** -/
theorem findSome?_get?_of_pairwise {ds : List (Dictionary κ α)}
    (h : ds.Pairwise fun earlier later => earlier.entries <+: later.entries)
    (hmem : d ∈ ds) (hget : d.get? key = some value) :
    ds.findSome? (·.get? key) = some value := by
  induction ds with
  | nil => exact absurd hmem List.not_mem_nil
  | cons first rest ih =>
    obtain ⟨hfirst, hrest⟩ := List.pairwise_cons.1 h
    rw [List.findSome?_cons]
    cases hcase : first.get? key with
    | none =>
      rcases List.mem_cons.1 hmem with rfl | hmem
      · rw [hcase] at hget
        cases hget
      · exact ih hrest hmem
    | some bound =>
      rcases List.mem_cons.1 hmem with rfl | hmem
      · exact hcase.symm.trans hget
      · exact (get?_of_extends (hfirst d hmem) hcase).symm.trans hget

end Dictionary

/-! ## The tables of a performance -/

namespace Draft

/-- To bind an alias, with success or without, defines it in the table. -/
theorem aliases_bind (d : Draft) (name : Verbatim) (underlying : String) :
    (d.bind name underlying).1 = (d.aliases.define name underlying).1 ∧
      (d.bind name underlying).2.aliases = (d.aliases.define name underlying).2 := by
  by_cases hbound : (d.aliases.define name underlying).1 = underlying
  · simp only [bind, if_pos hbound, and_self]
  · -- another type is found only under an alias that is bound already
    have hmem : name ∈ d.aliases.keys := by
      by_contra h
      rw [Dictionary.fst_define, Dictionary.get?_eq_none_iff.2 h] at hbound
      exact hbound rfl
    simp only [bind, if_neg hbound, Dictionary.snd_define_of_mem hmem, and_self]

/-- **A performance adds entries at the end**, also if it is refused. -/
theorem entries_perform (d : Draft) (steps : List Step) :
    d.aliases.entries <+: (d.perform steps).1.aliases.entries := by
  -- each step hands its table on to the next, so the induction is for every draft
  induction steps generalizing d with
  | nil => exact List.prefix_rfl
  | cons step steps ih =>
    cases step with
    | line text => exact ih { d with lines := d.lines ++ [text] }
    | note event => exact ih { d with events := d.events ++ [event] }
    | refuse refusal => exact List.prefix_rfl
    | bind field name underlying =>
      have hbind : d.aliases.entries <+: (d.bind name underlying).2.aliases.entries := by
        rw [(aliases_bind d name underlying).2]
        exact Dictionary.entries_define d.aliases name underlying
      rw [perform]
      dsimp only
      split
      · exact hbind.trans (ih _)
      · exact hbind

/-- And so what part of the steps leaves begins what more of them leave. -/
theorem entries_perform_mono (d : Draft) {part steps : List Step} (h : part <+: steps) :
    (d.perform part).1.aliases.entries <+: (d.perform steps).1.aliases.entries := by
  obtain ⟨rest, rfl⟩ := h
  rw [perform_append]
  split
  · exact entries_perform _ _
  · exact List.prefix_rfl

/-- The tables of a performance: before its first step, and after each. -/
def tables (d : Draft) (steps : List Step) : List AliasTable :=
  steps.inits.map fun part => (d.perform part).1.aliases

end Draft

/-- The initial parts of a list, as they are listed, begin one another. -/
theorem pairwise_inits {α : Type} (xs : List α) : xs.inits.Pairwise (· <+: ·) := by
  induction xs with
  | nil => exact List.pairwise_singleton _ _
  | cons x xs ih =>
    rw [List.inits_cons, List.pairwise_cons, List.pairwise_map]
    refine ⟨fun part _ => List.nil_prefix, ih.imp fun h => ?_⟩
    exact List.cons_prefix_cons.2 ⟨rfl, h⟩

/-! ## The tables of a run -/

namespace Operation

variable {scope : Scope} {aliases table : AliasTable}

/-- The tables at the points of an operation: before it, after each of its
steps, and after it. -/
def tables (scope : Scope) (aliases : AliasTable) (operation : Operation) : List AliasTable :=
  ({ aliases } : Draft).tables (operation.steps scope) ++ [(operation.run scope aliases).2.aliases]

/-- The tables at all points of a run of operations. -/
def tablesOf (scope : Scope) (aliases : AliasTable) : List Operation → List AliasTable
  | [] => [aliases]
  | operation :: rest =>
    operation.tables scope aliases ++ tablesOf scope (operation.run scope aliases).2.aliases rest

/-- To define an alias gives the type it stands for in the table that is
left. -/
theorem run_define (name : Verbatim) (underlying : String) :
    ∃ bound draft, run scope aliases (define name underlying) = (.bound bound, draft) ∧
      draft.aliases.get? name = some bound := by
  obtain ⟨hbound, haliases⟩ := Draft.aliases_bind { aliases } name underlying
  refine ⟨(({ aliases } : Draft).bind name underlying).1,
    (({ aliases } : Draft).bind name underlying).2, rfl, ?_⟩
  rw [hbound, haliases]
  exact Dictionary.get?_snd_define

/-- An operation leaves what its steps leave, or what defining an alias
leaves. -/
theorem aliases_run (operation : Operation) :
    (operation.run scope aliases).2.aliases =
      match operation with
      | define name underlying => (aliases.define name underlying).2
      | _ => (({ aliases } : Draft).perform (operation.steps scope)).1.aliases := by
  cases operation with
  | define name underlying => exact (Draft.aliases_bind { aliases } name underlying).2
  | plan o => rfl
  | oneof o depth => rfl
  | message m => rfl
  | enum e => rfl

/-- **A step of an operation leaves a table between** the one before the
operation and the one after it. -/
theorem entries_of_mem_tables {operation : Operation}
    (h : table ∈ operation.tables scope aliases) :
    aliases.entries <+: table.entries ∧
      table.entries <+: (operation.run scope aliases).2.aliases.entries := by
  have hsteps : ∀ part, part <+: operation.steps scope →
      (({ aliases } : Draft).perform part).1.aliases.entries <+:
        (operation.run scope aliases).2.aliases.entries := by
    intro part hpart
    rw [aliases_run]
    cases operation with
    | define name underlying =>
      rw [List.prefix_nil.1 hpart]
      exact Dictionary.entries_define aliases name underlying
    | plan o | oneof o depth | message m | enum e =>
      exact Draft.entries_perform_mono { aliases } hpart
  rcases List.mem_append.1 h with h | h
  · obtain ⟨part, hpart, rfl⟩ := List.mem_map.1 h
    exact ⟨Draft.entries_perform { aliases } part, hsteps part ((List.mem_inits _ _).1 hpart)⟩
  · rw [List.mem_singleton.1 h]
    exact ⟨hsteps [] List.nil_prefix, List.prefix_rfl⟩

/-- The tables of an operation grow. -/
theorem pairwise_tables (operation : Operation) :
    (operation.tables scope aliases).Pairwise fun earlier later =>
      earlier.entries <+: later.entries := by
  have hbetween : ∀ table ∈ operation.tables scope aliases,
      table.entries <+: (operation.run scope aliases).2.aliases.entries :=
    fun table h => (entries_of_mem_tables h).2
  rw [tables, List.forall_mem_append] at hbetween
  rw [tables, List.pairwise_append]
  refine ⟨?_, List.pairwise_singleton _ _, fun table h after hafter => ?_⟩
  · exact List.pairwise_map.2 ((pairwise_inits _).imp (Draft.entries_perform_mono { aliases }))
  · rw [List.mem_singleton.1 hafter]
    exact hbetween.1 table h

/-- The tables of a run begin with the one it starts from. -/
theorem entries_of_mem_tablesOf {operations : List Operation}
    (h : table ∈ tablesOf scope aliases operations) : aliases.entries <+: table.entries := by
  induction operations generalizing aliases with
  | nil =>
    rw [List.mem_singleton.1 h]
  | cons operation rest ih =>
    rcases List.mem_append.1 h with h | h
    · exact (entries_of_mem_tables h).1
    · have hafter : (operation.run scope aliases).2.aliases ∈ operation.tables scope aliases :=
        List.mem_append_right _ (List.mem_singleton_self _)
      exact (entries_of_mem_tables hafter).1.trans (ih h)

/-- **The tables of a run grow.** -/
theorem pairwise_tablesOf (operations : List Operation) :
    (tablesOf scope aliases operations).Pairwise fun earlier later =>
      earlier.entries <+: later.entries := by
  induction operations generalizing aliases with
  | nil => exact List.pairwise_singleton _ _
  | cons operation rest ih =>
    rw [tablesOf, List.pairwise_append]
    refine ⟨pairwise_tables operation, ih, fun earlier hearlier later hlater => ?_⟩
    exact (entries_of_mem_tables hearlier).2.trans (entries_of_mem_tablesOf hlater)

/-- The tables that operations leave are among those of the run. -/
theorem sublist_tablesOf (operations : List Operation) :
    ((runAll scope aliases operations).map (·.2.aliases)).Sublist
      (tablesOf scope aliases operations) := by
  induction operations generalizing aliases with
  | nil => exact List.nil_sublist _
  | cons operation rest ih =>
    exact (List.sublist_append_right _ [(operation.run scope aliases).2.aliases]).append ih

/-- An operation of a run is run on some table. -/
theorem getElem?_runAll {operations : List Operation} {i : Nat} {operation : Operation}
    (h : operations[i]? = some operation) :
    ∃ table, (runAll scope aliases operations)[i]? = some (operation.run scope table) := by
  induction operations generalizing aliases i with
  | nil => simp at h
  | cons first rest ih =>
    cases i with
    | zero =>
      rw [List.getElem?_cons_zero, Option.some.injEq] at h
      exact ⟨aliases, by rw [← h]; rfl⟩
    | succ i => exact ih (by simpa using h)

end Operation

/-- **Bindings are permanent.** Take the tables at all points of a run of
operations, refused ones among them: no alias is listed twice in a table,
each table begins with the entries of every earlier one, and the tables that
the operations leave are among them. To define an alias gives the type it
stands for in the first table that knows it. -/
theorem alias_bindings_permanent (scope : Scope) (operations : List Operation) :
    (∀ table ∈ Operation.tablesOf scope .empty operations, (table.entries.map Prod.fst).Nodup) ∧
    (Operation.tablesOf scope .empty operations).Pairwise
      (fun earlier later => earlier.entries <+: later.entries) ∧
    ((Operation.runAll scope .empty operations).map (·.2.aliases)).Sublist
      (Operation.tablesOf scope .empty operations) ∧
    ∀ (i : Nat) (name : Verbatim) (underlying : String),
      operations[i]? = some (.define name underlying) →
      ∃ bound draft, (Operation.runAll scope .empty operations)[i]? = some (.bound bound, draft) ∧
        (Operation.tablesOf scope .empty operations).findSome? (·.get? name) = some bound := by
  refine ⟨fun table _ => table.nodup_keys, Operation.pairwise_tablesOf operations,
    Operation.sublist_tablesOf operations, ?_⟩
  intro i name underlying hi
  obtain ⟨table, hrun⟩ := Operation.getElem?_runAll hi
  obtain ⟨bound, draft, hdefine, hget⟩ := Operation.run_define name underlying
  rw [hdefine] at hrun
  have hmem : draft.aliases ∈ Operation.tablesOf scope .empty operations := by
    refine (Operation.sublist_tablesOf operations).subset (List.mem_map.2 ?_)
    exact ⟨_, List.mem_of_getElem? hrun, rfl⟩
  exact ⟨bound, draft, hrun,
    Dictionary.findSome?_get?_of_pairwise (Operation.pairwise_tablesOf operations) hmem hget⟩

/-- An alias, a message that binds another one and is then refused because of
the first, and an attempt to let the other one stand for something else. -/
def resumedOperations : List Operation := [
  .define "Id" "i32",
  .message (.mk
    { name := "Event"
      fullName := "Event"
      oneofs := [
        { name := "subject"
          fullName := "Event.subject"
          members := [
            .single { name := "name", code := 9, override := some { typedef := some "Name" } },
            .single { name := "id", code := 12, override := some { typedef := some "Id" } }] }] }
    []),
  .define "Name" "f64"]

/-- The message is refused, and the alias it bound before that keeps the type
the message gave it. -/
theorem alias_bindings_permanent_resumed :
    resumedOperations[2]? = some (.define "Name" "f64") ∧
    (∃ refusal draft, (Operation.runAll ⟨none⟩ .empty resumedOperations)[1]? =
      some (.written (some refusal), draft)) ∧
    (∃ draft, (Operation.runAll ⟨none⟩ .empty resumedOperations)[2]? =
      some (.bound "string", draft)) ∧
    (Operation.tablesOf ⟨none⟩ .empty resumedOperations).findSome? (·.get? "Name") = some "string" := by
  have hdefine : resumedOperations[2]? = some (.define "Name" "f64") := rfl
  obtain ⟨bound, draft, hrun, hfirst⟩ :=
    (alias_bindings_permanent ⟨none⟩ resumedOperations).2.2.2 2 "Name" "f64" hdefine
  have hbound : bound = "string" := by
    refine Option.some.inj (hfirst.symm.trans ?_)
    decide +kernel
  subst hbound
  exact ⟨hdefine, ⟨_, _, rfl⟩, ⟨draft, hrun⟩, hfirst⟩

end OdinSchema
