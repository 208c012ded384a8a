import OdinSchema.Draft
import OdinSchema.Proofs.Dictionary

/-!
# What a performance of steps leaves

A performance goes through steps one by one and meets a state only when a
step binds an alias. Whether it gets to its end is nevertheless a question
about the steps as a whole: none of them refuses, and no two bindings, the
ones already made included, let one alias stand for two types
(`Draft.perform_eq_none_iff`). A performance that gets to its end leaves
the lines of all steps and the bindings of all steps, the first of each
alias deciding its place (`Draft.of_perform_eq_none`).
-/

namespace OdinSchema

/-! ## The parts of a step -/

namespace Step

/-- The line a step writes, if it writes one. -/
def line? : Step → Option String
  | line text => some text
  | _ => none

/-- The binding a step makes, if it makes one. -/
def binding? : Step → Option (Verbatim × String)
  | bind _ name underlying => some (name, underlying)
  | _ => none

/-- The refusal a step is, if it is one. -/
def refusal? : Step → Option Refusal
  | refuse refusal => some refusal
  | _ => none

/-- The lines of steps, in order. -/
def lines (steps : List Step) : List String :=
  steps.filterMap line?

/-- The bindings of steps, in order. -/
def bindings (steps : List Step) : List (Verbatim × String) :=
  steps.filterMap binding?

/-- Steps none of which is a refusal. -/
def Unrefused (steps : List Step) : Prop :=
  ∀ s ∈ steps, s.refusal? = none

@[simp] theorem lines_append (xs ys : List Step) : lines (xs ++ ys) = lines xs ++ lines ys :=
  List.filterMap_append

theorem lines_flatMap {α : Type} (xs : List α) (f : α → List Step) :
    lines (xs.flatMap f) = xs.flatMap fun x => lines (f x) :=
  List.filterMap_flatMap

@[simp] theorem lines_nil : lines [] = [] :=
  rfl

@[simp] theorem lines_line (text : String) (steps : List Step) :
    lines (line text :: steps) = text :: lines steps :=
  rfl

@[simp] theorem bindings_append (xs ys : List Step) :
    bindings (xs ++ ys) = bindings xs ++ bindings ys :=
  List.filterMap_append

theorem bindings_flatMap {α : Type} (xs : List α) (f : α → List Step) :
    bindings (xs.flatMap f) = xs.flatMap fun x => bindings (f x) :=
  List.filterMap_flatMap

@[simp] theorem bindings_nil : bindings [] = [] :=
  rfl

@[simp] theorem bindings_line (text : String) (steps : List Step) :
    bindings (line text :: steps) = bindings steps :=
  rfl

@[simp] theorem bindings_note (event : Event) (steps : List Step) :
    bindings (note event :: steps) = bindings steps :=
  rfl

@[simp] theorem bindings_bind (field : FieldHead) (name : Verbatim) (underlying : String)
    (steps : List Step) :
    bindings (bind field name underlying :: steps) = (name, underlying) :: bindings steps :=
  rfl

@[simp] theorem unrefused_append {xs ys : List Step} :
    Unrefused (xs ++ ys) ↔ Unrefused xs ∧ Unrefused ys :=
  List.forall_mem_append

@[simp] theorem unrefused_nil : Unrefused [] := by
  simp [Unrefused]

@[simp] theorem unrefused_cons {s : Step} {steps : List Step} :
    Unrefused (s :: steps) ↔ s.refusal? = none ∧ Unrefused steps :=
  List.forall_mem_cons

theorem unrefused_flatMap {α : Type} {xs : List α} {f : α → List Step} :
    Unrefused (xs.flatMap f) ↔ ∀ x ∈ xs, Unrefused (f x) :=
  List.forall_mem_flatMap

/-- Lines are written as they are. -/
@[simp] theorem lines_map_line (texts : List String) : lines (texts.map line) = texts := by
  simp [lines, List.filterMap_map, Function.comp_def, line?]

/-- And bind nothing. -/
@[simp] theorem bindings_map_line (texts : List String) : bindings (texts.map line) = [] := by
  simp [bindings, List.filterMap_eq_nil_iff, binding?]

/-- And refuse nothing. -/
@[simp] theorem unrefused_map_line (texts : List String) : Unrefused (texts.map line) := by
  simp [Unrefused, refusal?]

end Step

/-! ## Bindings -/

namespace AliasTable

variable {table : AliasTable} {name : Verbatim} {underlying : String}

/-- A table in which an alias is free, or stands for the given type. -/
def Admits (table : AliasTable) (binding : Verbatim × String) : Prop :=
  ∀ bound, table.get? binding.1 = some bound → bound = binding.2

instance (binding : Verbatim × String) : Decidable (table.Admits binding) :=
  inferInstanceAs (Decidable (∀ bound ∈ table.get? binding.1, bound = binding.2))

/-- Bindings that let no alias stand for two types, neither among them nor
together with a table. -/
structure Consistent (table : AliasTable) (bindings : List (Verbatim × String)) : Prop where
  admits : ∀ a ∈ bindings, table.Admits a
  agree : ∀ a ∈ bindings, ∀ b ∈ bindings, a.1 = b.1 → a.2 = b.2

/-- A table after bindings, each of which is made unless its alias is bound
already. -/
def bindAll (table : AliasTable) (bindings : List (Verbatim × String)) : AliasTable :=
  bindings.foldl (fun table a => (table.define a.1 a.2).2) table

theorem bindAll_cons (a : Verbatim × String) (bindings : List (Verbatim × String)) :
    table.bindAll (a :: bindings) = bindAll (table.define a.1 a.2).2 bindings :=
  rfl

/-- An admitted binding holds afterwards, and every other alias stands for
what it stood for. -/
theorem get?_define (h : table.Admits (name, underlying)) (other : Verbatim) :
    (table.define name underlying).2.get? other =
      if other = name then some underlying else table.get? other := by
  by_cases hmem : name ∈ table.keys
  · obtain ⟨bound, hbound⟩ := Dictionary.mem_keys_iff.1 hmem
    rw [Dictionary.snd_define_of_mem hmem]
    split
    · rename_i hother
      rw [hother, hbound, h bound hbound]
    · rfl
  · rw [Dictionary.snd_define_of_not_mem hmem, Dictionary.get?_set]

/-- **Consistency can be checked binding by binding.** -/
theorem consistent_cons_iff {bindings : List (Verbatim × String)} :
    table.Consistent ((name, underlying) :: bindings) ↔
      table.Admits (name, underlying) ∧
        Consistent (table.define name underlying).2 bindings := by
  constructor
  · rintro ⟨hadmits, hagree⟩
    obtain ⟨hfirst, hrest⟩ := List.forall_mem_cons.1 hadmits
    refine ⟨hfirst, ?_, ?_⟩
    · intro a ha bound hbound
      rw [get?_define hfirst] at hbound
      split at hbound
      · rename_i hname
        rw [← Option.some.inj hbound]
        exact hagree _ List.mem_cons_self a (List.mem_cons_of_mem _ ha) hname.symm
      · exact hrest a ha bound hbound
    · exact fun a ha b hb => hagree a (List.mem_cons_of_mem _ ha) b (List.mem_cons_of_mem _ hb)
  · rintro ⟨hfirst, hadmits, hagree⟩
    -- a later binding of the same alias meets the first one in the table
    have hsame : ∀ a ∈ bindings, a.1 = name → a.2 = underlying := by
      intro a ha hname
      refine (hadmits a ha underlying ?_).symm
      rw [get?_define hfirst, if_pos hname]
    refine ⟨?_, ?_⟩
    · rw [List.forall_mem_cons]
      refine ⟨hfirst, fun a ha bound hbound => ?_⟩
      by_cases hname : a.1 = name
      · rw [hsame a ha hname]
        exact hfirst bound (hname ▸ hbound)
      · refine hadmits a ha bound ?_
        rw [get?_define hfirst, if_neg hname]
        exact hbound
    · intro a ha b hb hab
      rcases List.mem_cons.1 ha with rfl | ha
      · rcases List.mem_cons.1 hb with rfl | hb
        · rfl
        · exact (hsame b hb hab.symm).symm
      · rcases List.mem_cons.1 hb with rfl | hb
        · exact hsame a ha hab
        · exact hagree a ha b hb hab

/-- What a table holds stays through consistent bindings. -/
theorem get?_bindAll_of_get? {bindings : List (Verbatim × String)}
    (hconsistent : table.Consistent bindings) (h : table.get? name = some underlying) :
    (table.bindAll bindings).get? name = some underlying := by
  induction bindings generalizing table with
  | nil => exact h
  | cons a rest ih =>
    obtain ⟨hfirst, hrest⟩ := consistent_cons_iff.1 hconsistent
    refine ih hrest ?_
    rw [get?_define hfirst]
    split
    · rename_i hname
      rw [hfirst underlying (hname ▸ h)]
    · exact h

/-- **Consistent bindings all hold afterwards.** -/
theorem get?_bindAll {bindings : List (Verbatim × String)}
    (hconsistent : table.Consistent bindings) {a : Verbatim × String} (ha : a ∈ bindings) :
    (table.bindAll bindings).get? a.1 = some a.2 := by
  induction bindings generalizing table with
  | nil => exact absurd ha List.not_mem_nil
  | cons b rest ih =>
    obtain ⟨hfirst, hrest⟩ := consistent_cons_iff.1 hconsistent
    rw [bindAll_cons]
    rcases List.mem_cons.1 ha with rfl | ha
    · refine get?_bindAll_of_get? hrest ?_
      rw [get?_define hfirst, if_pos rfl]
    · exact ih hrest ha

/-- **The aliases of a table stand in the order they were first bound.** -/
theorem keys_bindAll (names : List Verbatim) (bindings : List (Verbatim × String))
    (h : table.keys = names.eraseDups) :
    (table.bindAll bindings).keys = (names ++ bindings.map Prod.fst).eraseDups := by
  induction bindings generalizing table names with
  | nil => simpa [bindAll] using h
  | cons a rest ih =>
    have hdefine : (table.define a.1 a.2).2.keys = (names ++ [a.1]).eraseDups := by
      rw [Dictionary.keys_define, Dictionary.keys_set_of_keys_eq h]
    rw [bindAll_cons, ih _ hdefine, List.append_assoc]
    rfl

/-- **Bindings of distinct aliases add those that were free.** -/
theorem entries_bindAll_of_nodup {bindings : List (Verbatim × String)}
    (hnodup : (bindings.map Prod.fst).Nodup) :
    (table.bindAll bindings).entries =
      table.entries ++ bindings.filter fun a => a.1 ∉ table.keys := by
  induction bindings generalizing table with
  | nil => simp [bindAll]
  | cons a rest ih =>
    rw [List.map_cons, List.nodup_cons] at hnodup
    rw [bindAll_cons, ih hnodup.2]
    by_cases hmem : a.1 ∈ table.keys
    · rw [Dictionary.snd_define_of_mem hmem, List.filter_cons_of_neg (by simpa using hmem)]
    · -- no later binding is of the alias that is taken now
      have hrest : (rest.filter fun b => b.1 ∉ (table.define a.1 a.2).2.keys) =
          rest.filter fun b => b.1 ∉ table.keys := by
        refine List.filter_congr fun b hb => ?_
        have hne : b.1 ≠ a.1 := fun hsame => hnodup.1 (hsame ▸ List.mem_map_of_mem hb)
        simp [Dictionary.keys_define, Dictionary.keys_set, hmem, hne]
      rw [hrest, Dictionary.entries_define_of_not_mem hmem, List.append_assoc,
        List.filter_cons_of_pos (by simpa using hmem), List.singleton_append]

end AliasTable

/-! ## A performance -/

namespace Draft

variable {d : Draft} {steps : List Step}

/-- A step that makes an admitted binding makes it and goes on. -/
theorem perform_bind_of_admits {field : FieldHead} {name : Verbatim} {underlying : String}
    (h : AliasTable.Admits d.aliases (name, underlying)) :
    d.perform (.bind field name underlying :: steps) =
      { d with
        aliases := (d.aliases.define name underlying).2
        events := d.events ++ [.aliasBound name underlying] : Draft }.perform steps := by
  have hbound : (d.aliases.define name underlying).1 = underlying := by
    rw [Dictionary.fst_define]
    cases hget : d.aliases.get? name with
    | none => rfl
    | some bound => exact h bound hget
  rw [perform, bind]
  simp only [hbound, if_true]

/-- A step that makes another binding ends the performance. -/
theorem perform_bind_of_not_admits (field : FieldHead) (steps : List Step) {name : Verbatim}
    {underlying : String} (h : ¬ AliasTable.Admits d.aliases (name, underlying)) :
    ∃ bound, d.aliases.get? name = some bound ∧
      d.perform (.bind field name underlying :: steps) =
        (d, some (field.refuse (.aliasConflict name bound underlying))) := by
  obtain ⟨bound, hget, hne⟩ : ∃ bound, d.aliases.get? name = some bound ∧ bound ≠ underlying := by
    simpa [AliasTable.Admits] using h
  have hbound : (d.aliases.define name underlying).1 = bound := by
    rw [Dictionary.fst_define, hget, Option.getD_some]
  refine ⟨bound, hget, ?_⟩
  rw [perform, bind]
  simp only [hbound, if_neg hne]

/-- A performance goes on behind steps if it gets to their end. -/
theorem perform_append (d : Draft) (xs ys : List Step) : d.perform (xs ++ ys) =
    match (d.perform xs).2 with
    | none => (d.perform xs).1.perform ys
    | some refusal => ((d.perform xs).1, some refusal) := by
  induction xs generalizing d with
  | nil => rfl
  | cons s xs ih =>
    cases s with
    | line text => exact ih _
    | note event => exact ih _
    | refuse refusal => rfl
    | bind field name underlying =>
      by_cases h : AliasTable.Admits d.aliases (name, underlying)
      · rw [List.cons_append, perform_bind_of_admits h, perform_bind_of_admits h]
        exact ih _
      · obtain ⟨bound, hbound, hperform⟩ := perform_bind_of_not_admits field xs h
        obtain ⟨bound', hbound', hperform'⟩ := perform_bind_of_not_admits field (xs ++ ys) h
        rw [List.cons_append, hperform', hperform]
        rw [hbound] at hbound'
        rw [Option.some.inj hbound']

/-- **A performance gets to its end** exactly if no step refuses and the
bindings are consistent with those already made. -/
theorem perform_eq_none_iff : (d.perform steps).2 = none ↔
    Step.Unrefused steps ∧ AliasTable.Consistent d.aliases (Step.bindings steps) := by
  -- the table grows along the steps, so the induction is for every draft
  induction steps generalizing d with
  | nil => simpa [perform, Step.bindings] using AliasTable.Consistent.mk (by simp) (by simp)
  | cons s steps ih =>
    cases s with
    | line text => rw [perform, ih]; simp [Step.refusal?]
    | note event => rw [perform, ih]; simp [Step.refusal?]
    | refuse refusal => simp [perform, Step.refusal?]
    | bind field name underlying =>
      rw [Step.unrefused_cons, Step.bindings_bind, AliasTable.consistent_cons_iff]
      by_cases h : AliasTable.Admits d.aliases (name, underlying)
      · rw [perform_bind_of_admits h, ih]
        simp [Step.refusal?, h]
      · obtain ⟨bound, -, hperform⟩ := perform_bind_of_not_admits field steps h
        simp [hperform, h]

/-- A performance that gets to its end leaves all lines and all bindings. -/
theorem of_perform_eq_none (h : (d.perform steps).2 = none) :
    (d.perform steps).1.lines = d.lines ++ Step.lines steps ∧
      (d.perform steps).1.aliases = AliasTable.bindAll d.aliases (Step.bindings steps) := by
  induction steps generalizing d with
  | nil => simp [perform, Step.lines, Step.bindings, AliasTable.bindAll]
  | cons s steps ih =>
    cases s with
    | line text =>
      rw [perform] at h ⊢
      obtain ⟨hlines, haliases⟩ := ih h
      rw [hlines, haliases]
      exact ⟨by simp, rfl⟩
    | note event =>
      rw [perform] at h ⊢
      exact ih h
    | refuse refusal => simp [perform] at h
    | bind field name underlying =>
      by_cases hadmits : AliasTable.Admits d.aliases (name, underlying)
      · rw [perform_bind_of_admits hadmits] at h ⊢
        exact ih h
      · obtain ⟨bound, -, hperform⟩ :=
          perform_bind_of_not_admits field steps hadmits
        simp [hperform] at h

end Draft

end OdinSchema
