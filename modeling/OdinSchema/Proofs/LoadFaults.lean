import Mathlib.Data.List.Flatten
import OdinSchema.Proofs.Attempts
import OdinSchema.Proofs.References
import OdinSchema.Proofs.StructBody

/-!
# The first fault

What can go wrong with a descriptor is listed here in the order of loading,
without loading it: a message before what is nested in it, its enums and then
its fields after that. For files with distinct types that obey the rule for
maps a load fails for the first fault of the list, and if there is none, for
the first reference to a type that is not declared (`load_eq_first_fault`).

The list is read off the descriptors alone, while a load reads maps off the
entries known so far. What makes the two agree is that a known entry has as
many fields as the one message of its name (`Catalog.Knows`), and that an
entry a field refers to is known when the field is read.
-/

namespace OdinSchema

variable {α β : Type} {c c' c'' : Catalog} {sites : List Site} {names : List String}

/-! ## Faults -/

/-- The faults of segments that have to give a full name. -/
def nameFaults (segments : List Verbatim) : List LoadError :=
  match qualify segments with
  | .ok _ => []
  | .error e => [e]

namespace FieldDescriptor

/-- A field that refers to a map entry without a key or a value. -/
def NamesShortEntry (sites : List Site) (d : FieldDescriptor) : Prop :=
  ∃ s ∈ sites, s.head.isMapEntry = true ∧ d.fullTypeName? = some s.fullName ∧
    s.head.fields.length < 2

instance (sites : List Site) (d : FieldDescriptor) : Decidable (d.NamesShortEntry sites) :=
  inferInstanceAs (Decidable (∃ s ∈ sites, s.head.isMapEntry = true ∧
    d.fullTypeName? = some s.fullName ∧ s.head.fields.length < 2))

/-- A field that belongs to no oneof, or to one of so many, by its position
or counted from the end. -/
def InRange (count : Nat) (d : FieldDescriptor) : Prop :=
  ∀ index ∈ d.oneofIndex, -(count : Int) ≤ index ∧ index < (count : Int)

instance (count : Nat) (d : FieldDescriptor) : Decidable (d.InRange count) :=
  inferInstanceAs (Decidable (∀ index ∈ d.oneofIndex,
    -(count : Int) ≤ index ∧ index < (count : Int)))

/-- The faults of a field of a message with so many oneofs. -/
def faults (sites : List Site) (oneofs : Nat) (d : FieldDescriptor) : List LoadError :=
  (if d.hasIllegibleType then [.illegible .start] else []) ++
    ((if d.NamesShortEntry sites then [.outOfRange] else []) ++
      ((if d.InRange oneofs then [] else [.outOfRange]) ++
        if (Override.ofPayloads d.odin).isSome then [] else [.malformedOption]))

/-- The reference of a field to the type it names. -/
def namedReference? (d : FieldDescriptor) : Option Reference :=
  (d.fullTypeName?.filter (· ≠ "")).map fun typeName => ⟨typeName, d.name⟩

end FieldDescriptor

mutual

/-- The faults of a message and of all that is nested in it, inside the given
segments. -/
def MessageDescriptor.faults (sites : List Site) (outer : List Verbatim) :
    MessageDescriptor → List LoadError
  | .mk head nested =>
    nameFaults (outer ++ [head.name]) ++
      (MessageDescriptor.faultsOf sites (outer ++ [head.name]) nested ++
        (head.enums.flatMap (fun e => nameFaults (outer ++ [head.name] ++ [e.name])) ++
          head.fields.flatMap (·.faults sites head.oneofs.length)))

/-- The faults of messages, inside the given segments. -/
def MessageDescriptor.faultsOf (sites : List Site) (outer : List Verbatim) :
    List MessageDescriptor → List LoadError
  | [] => []
  | d :: rest => d.faults sites outer ++ MessageDescriptor.faultsOf sites outer rest

end

mutual

/-- The references of a message, those of what is nested in it first. -/
def MessageDescriptor.references : MessageDescriptor → List Reference
  | .mk head nested =>
    MessageDescriptor.referencesOf nested ++ head.fields.filterMap (·.namedReference?)

/-- The references of messages. -/
def MessageDescriptor.referencesOf : List MessageDescriptor → List Reference
  | [] => []
  | d :: rest => d.references ++ MessageDescriptor.referencesOf rest

end

namespace FileDescriptor

/-- The faults of a file. -/
def faults (sites : List Site) (d : FileDescriptor) : List LoadError :=
  d.enums.flatMap (fun e => nameFaults [d.package, e.name]) ++
    MessageDescriptor.faultsOf sites [d.package] d.messages

/-- The references of a file. -/
def references (d : FileDescriptor) : List Reference :=
  MessageDescriptor.referencesOf d.messages

end FileDescriptor

/-! ## Loads that fail for the first fault -/

/-- A load that fails for the first of some faults, and ends well if there is
none. -/
def Load.Meets (load : Load α) (c : Catalog) (faults : List LoadError) : Prop :=
  load.Ends c (fun _ _ => faults = []) (fun e _ => faults.head? = some e)

open Load

variable {faults later : List LoadError}

/-- **Composed loads meet the faults of the first, then those of the
second.** What the first has done to the catalog can be used for the second. -/
theorem meets_bind {load : Load α} {next : α → Load β} (hload : load.Meets c faults)
    (hnext : ∀ a c', load.Gives c a c' → (next a).Meets c' later) :
    (load >>= next).Meets c (faults ++ later) := by
  revert hload
  rw [Meets, Meets, ends_bind, Ends, Ends]
  rcases hrun : load.run.run c with ⟨e | a, c'⟩
  · intro hfirst
    rw [List.head?_append, hfirst]
    rfl
  · rintro rfl
    exact hnext a c' hrun

theorem meets_pure (a : α) : (pure a : Load α).Meets c [] := by
  rw [Meets, ends_pure]

/-- What ends with a result that is already known meets no more faults. -/
theorem meets_bind_pure {load : Load α} {result : α → β} (hload : load.Meets c faults) :
    (load >>= fun a => pure (result a)).Meets c faults := by
  rw [← List.append_nil faults]
  exact meets_bind hload fun a c' _ => meets_pure _

theorem meets_modify_bind {f : Catalog → Catalog} {next : Unit → Load β}
    (hnext : (next ()).Meets (f c) faults) : (modify f >>= next).Meets c faults := by
  rw [Meets, ends_bind, ends_modify]
  exact hnext

theorem meets_qualify (segments : List Verbatim) :
    (Load.ofExcept (qualify segments)).Meets c (nameFaults segments) := by
  rw [Meets, ends_ofExcept, nameFaults]
  cases qualify segments <;> rfl

theorem meets_loadEnums {segments : List Verbatim} {ds : List EnumDescriptor} :
    (loadEnums segments ds).Meets c (ds.flatMap fun d => nameFaults (segments ++ [d.name])) := by
  induction ds generalizing c with
  | nil => exact meets_pure []
  | cons d rest ih =>
    have henum : ∀ c, (d.load segments).Meets c (nameFaults (segments ++ [d.name])) := by
      intro c
      rw [← List.append_nil (nameFaults _)]
      exact meets_bind (meets_qualify _) fun name c' _ => meets_modify_bind (meets_pure _)
    exact meets_bind (henum c) fun enum c' _ => meets_bind_pure ih

/-! ## Fields -/

namespace FieldDescriptor

variable {d : FieldDescriptor} {entries : Dictionary String Message}

theorem entryFields?_eq_error {e : LoadError} (h : d.entryFields? entries = .error e) :
    e = .outOfRange ∧ ¬ ∀ m, d.entryMessage? entries = some m → 2 ≤ m.head.fields.length := by
  refine ⟨?_, fun hfit => ?_⟩
  · rw [entryFields?] at h
    split at h
    · cases h
    · split at h
      · cases h
      · cases h
        rfl
  · obtain ⟨entry, hentry⟩ := exists_entryFields?_iff.2 hfit
    cases hentry.symm.trans h

theorem exists_oneof?_iff {oneofs : List Verbatim} :
    (∃ oneof, d.oneof? oneofs = .ok oneof) ↔ d.InRange oneofs.length := by
  simp only [oneof?_eq_ok_iff, InRange]
  constructor
  · rintro ⟨oneof, ⟨hnone, -⟩ | ⟨index, i, name, hindex, hposition, -, -⟩⟩
    · rw [hnone]
      exact fun index hindex => nomatch hindex
    · intro other hother
      have hsame : other = index := Option.some.inj (hother.symm.trans hindex)
      obtain ⟨hi, hplace⟩ := position?_eq_some_iff.1 hposition
      omega
  · intro hrange
    cases hindex : d.oneofIndex with
    | none => exact ⟨none, .inl ⟨rfl, rfl⟩⟩
    | some index =>
      obtain ⟨hlow, hhigh⟩ := hrange index hindex
      obtain ⟨i, hi⟩ : ∃ i, position? oneofs.length index = some i := by
        by_cases hsign : 0 ≤ index
        · exact ⟨index.toNat, position?_eq_some_iff.2 ⟨by omega, .inl (by omega)⟩⟩
        · exact ⟨(oneofs.length + index).toNat, position?_eq_some_iff.2 ⟨by omega, .inr (by omega)⟩⟩
      have hlt := (position?_eq_some_iff.1 hi).1
      exact ⟨some oneofs[i], .inr ⟨index, i, oneofs[i], rfl, hi, List.getElem?_eq_getElem hlt, rfl⟩⟩

theorem oneof?_eq_error {oneofs : List Verbatim} {e : LoadError}
    (h : d.oneof? oneofs = .error e) : e = .outOfRange ∧ ¬ d.InRange oneofs.length := by
  refine ⟨?_, fun hrange => ?_⟩
  · rw [oneof?] at h
    split at h
    · cases h
    · split at h
      · cases h
      · cases h
        rfl
  · obtain ⟨oneof, honeof⟩ := exists_oneof?_iff.2 hrange
    cases honeof.symm.trans h

/-- **A field that cannot be read fails for the first of its faults**, if the
known map entries are as short as those it names. -/
theorem meets_toField {dialect : Verbatim} {location : Option Location} {oneofs : List Verbatim}
    (hentries : (∀ m, d.entryMessage? entries = some m → 2 ≤ m.head.fields.length) ↔
      ¬ d.NamesShortEntry sites) :
    (Load.ofExcept (d.toField dialect location oneofs entries)).Meets c
      (d.faults sites oneofs.length) := by
  rw [Meets, ends_ofExcept, toField, faults]
  cases d.hasIllegibleType with
  | true => rfl
  | false =>
    cases hentry : d.entryFields? entries with
    | error e =>
      obtain ⟨rfl, hshort⟩ := entryFields?_eq_error hentry
      rw [hentries, not_not] at hshort
      rw [if_pos hshort]
      rfl
    | ok entry =>
      have hfit := hentries.1 (exists_entryFields?_iff.1 ⟨entry, hentry⟩)
      rw [if_neg hfit]
      cases honeof : d.oneof? oneofs with
      | error e =>
        obtain ⟨rfl, hrange⟩ := oneof?_eq_error honeof
        rw [if_neg hrange]
        rfl
      | ok oneof =>
        rw [if_pos (exists_oneof?_iff.1 ⟨oneof, honeof⟩)]
        cases Override.ofPayloads d.odin with
        | none => rfl
        | some override => cases entry <;> rfl

end FieldDescriptor

/-! ## Known map entries -/

/-- A catalog whose map entries are messages of a tree, each with as many
fields as it has there. -/
def Catalog.Knows (sites : List Site) (c : Catalog) : Prop :=
  ∀ name m, c.entries.get? name = some m → ∃ s ∈ sites, s.head.isMapEntry = true ∧
    s.fullName = name ∧ s.head.fields.length = m.head.fields.length

/-- Messages that are told apart by their full names. -/
def DistinctSites (sites : List Site) : Prop :=
  ∀ s ∈ sites, ∀ t ∈ sites, s.fullName = t.fullName → s = t

/-- A field of a message finds a short map entry exactly if it names one, once
the entries nested in its message are known. -/
theorem Site.RefersByRule.entries_fit_iff {s : Site} (hrule : s.RefersByRule sites)
    (hdistinct : DistinctSites sites) (hknows : c.Knows sites)
    (hknown : ∀ name ∈ s.entryNames, name ∈ c.entries.keys) {d : FieldDescriptor}
    (hd : d ∈ s.head.fields) :
    (∀ m, d.entryMessage? c.entries = some m → 2 ≤ m.head.fields.length) ↔
      ¬ d.NamesShortEntry sites := by
  constructor
  · rintro hfit ⟨t, ht, hentry, hname, hshort⟩
    have hfound := hrule.entryMessage?_ne_none hknown hd hname ⟨t, ht, hentry, rfl⟩
    obtain ⟨m, hm⟩ := Option.ne_none_iff_exists'.1 hfound
    obtain ⟨-, name, hname', hget⟩ := FieldDescriptor.entryMessage?_eq_some_iff.1 hm
    obtain rfl : name = t.fullName := Option.some.inj (hname'.symm.trans hname)
    obtain ⟨t', ht', -, hsame, hlength⟩ := hknows _ m hget
    obtain rfl := hdistinct t' ht' t ht hsame
    have := hfit m hm
    omega
  · intro hnames m hm
    obtain ⟨-, name, hname, hget⟩ := FieldDescriptor.entryMessage?_eq_some_iff.1 hm
    obtain ⟨t, ht, hentry, rfl, hlength⟩ := hknows name m hget
    rw [← hlength]
    exact Nat.le_of_not_lt fun hshort => hnames ⟨t, ht, hentry, hname, hshort⟩

/-- **Fields are read up to the first fault.** -/
theorem meets_loadFields {context : FileContext} {path : List Int} {oneofs : List Verbatim}
    {start : Nat} {ds : List FieldDescriptor}
    (h : ∀ d ∈ ds, (∀ m, d.entryMessage? c.entries = some m → 2 ≤ m.head.fields.length) ↔
      ¬ d.NamesShortEntry sites) :
    (loadFields context path oneofs start ds).Meets c
      (ds.flatMap (·.faults sites oneofs.length)) := by
  induction ds generalizing c start with
  | nil => exact meets_pure []
  | cons d rest ih =>
    obtain ⟨hd, hrest⟩ := List.forall_mem_cons.1 h
    have hfield : (d.load context (path ++ [2, (start : Int)]) oneofs).Meets c
        (d.faults sites oneofs.length) := by
      rw [FieldDescriptor.load, Meets, ends_bind, ends_get, ends_bind, ends_modify]
      exact FieldDescriptor.meets_toField hd
    rw [loadFields, List.flatMap_cons]
    refine meets_bind hfield fun field c' hgives => meets_bind_pure (ih ?_)
    rw [(FieldDescriptor.gives_load.1 hgives).2]
    exact hrest

/-! ## What a load that ends well leaves -/

/-- The references among some to types that are not declared. -/
def undeclared (names : List String) (references : List Reference) : List Reference :=
  references.filter fun r => r.typeName ∉ names

theorem undeclared_append (xs ys : List Reference) :
    undeclared names (xs ++ ys) = undeclared names xs ++ undeclared names ys :=
  List.filter_append ..

/-- What a load leaves: map entries of the tree, all of them kept, and of the
given references those that are not declared. -/
structure Catalog.Advances (sites : List Site) (names : List String)
    (references : List Reference) (c c' : Catalog) : Prop where
  knows : c'.Knows sites
  keys : c.entries.keys ⊆ c'.entries.keys
  undeclared_eq : undeclared names c'.references =
    undeclared names c.references ++ undeclared names references

namespace Catalog

theorem Knows.advances_nil (h : c.Knows sites) : c.Advances sites names [] c :=
  ⟨h, List.Subset.refl _, (List.append_nil _).symm⟩

theorem Advances.append {xs ys : List Reference} (h : c.Advances sites names xs c')
    (h' : c'.Advances sites names ys c'') : c.Advances sites names (xs ++ ys) c'' := by
  refine ⟨h'.knows, List.Subset.trans h.keys h'.keys, ?_⟩
  rw [h'.undeclared_eq, h.undeclared_eq, undeclared_append, List.append_assoc]

/-- A message becomes known as what it is in the tree. -/
theorem Advances.register {xs : List Reference} {segments : List Verbatim}
    {d : MessageDescriptor} {m : Message} (h : c.Advances sites names xs c')
    (hsites : d.sites segments ⊆ sites) (hm : d.Outlines segments m) :
    c.Advances sites names xs (c'.register m) ∧ (d.head.isMapEntry = true →
      qualified (segments ++ [d.head.name]) ∈ (c'.register m).entries.keys) := by
  obtain ⟨s, hs, hsegments, hhead⟩ := d.self_mem_sites segments
  have hname : s.fullName = qualified (segments ++ [d.head.name]) := by
    rw [Site.fullName, hsegments]
  rw [Catalog.register, hm.fullName, hm.isMapEntry]
  split
  · rename_i hmap
    refine ⟨⟨?_, ?_, h.undeclared_eq⟩, fun _ => ?_⟩
    · intro name n hget
      have hget : (c'.entries.set (qualified (segments ++ [d.head.name])) m).get? name =
          some n := hget
      rw [Dictionary.get?_set] at hget
      split at hget
      · cases hget
        exact ⟨s, hsites hs, hhead ▸ hmap, hname.trans (Eq.symm ‹_›), hhead ▸ hm.length.symm⟩
      · exact h.knows name n hget
    · exact fun name hmem => Dictionary.mem_keys_set.2 (.inr (h.keys hmem))
    · exact Dictionary.mem_keys_set.2 (.inl rfl)
  · exact ⟨h, fun hmap => absurd hmap ‹_›⟩

end Catalog

/-- A field notes its reference, unless that is declared. -/
theorem FieldDescriptor.undeclared_reference? (hknows : c.Knows sites)
    (hnames : ∀ s ∈ sites, s.fullName ∈ names) (d : FieldDescriptor) :
    undeclared names (d.reference? c.entries).toList =
      undeclared names d.namedReference?.toList := by
  cases hmessage : d.entryMessage? c.entries with
  | none =>
    rw [reference?, hmessage]
    rfl
  | some m =>
    -- the name of a known map entry is that of a message of the tree
    obtain ⟨-, name, hname, hget⟩ := entryMessage?_eq_some_iff.1 hmessage
    obtain ⟨s, hs, -, rfl, -⟩ := hknows name m hget
    have hdeclared : undeclared names d.namedReference?.toList = [] := by
      refine List.filter_eq_nil_iff.2 fun r hr => ?_
      rw [Option.mem_toList, namedReference?, hname] at hr
      obtain ⟨typeName, htype, rfl⟩ := Option.map_eq_some_iff.1 hr
      rw [Option.filter_eq_some_iff] at htype
      obtain rfl : s.fullName = typeName := Option.some.inj htype.1
      simpa using hnames s hs
    rw [reference?, hmessage, hdeclared]
    simp only
    split
    · exact hdeclared
    · rfl

theorem MessageDescriptorHead.Closes.advances {context : FileContext} {segments : List Verbatim}
    {path : List Int} {head : MessageDescriptorHead} {ms : List Message} {m : Message}
    (h : head.Closes context segments path ms c m c') (hknows : c.Knows sites)
    (hnames : ∀ s ∈ sites, s.fullName ∈ names) :
    c.Advances sites names (head.fields.filterMap (·.namedReference?)) c' := by
  have hreferences : undeclared names (head.fields.flatMap fun d =>
      (d.reference? c.entries).toList) =
        undeclared names (head.fields.filterMap (·.namedReference?)) := by
    rw [List.filterMap_eq_flatMap_toList, undeclared, undeclared, List.filter_flatMap,
      List.filter_flatMap]
    exact List.flatMap_congr fun d _ => d.undeclared_reference? hknows hnames
  rw [h.catalog_eq]
  exact ⟨hknows, List.Subset.refl _, by rw [undeclared_append, hreferences]⟩

namespace MessageDescriptor

variable {context : FileContext} {segments : List Verbatim} {path : List Int}

/-- The last part of loading a message, once it is declared and what is nested
in it is loaded. -/
private theorem advances_of_closes {head : MessageDescriptorHead}
    {nested : List MessageDescriptor} {types : List String} {ms : List Message} {c₁ : Catalog}
    {m : Message}
    (hnested : Catalog.Advances sites names (referencesOf nested) { c with types } c₁)
    (hcloses : head.Closes context segments path ms c₁ m c')
    (hnames : ∀ s ∈ sites, s.fullName ∈ names) :
    c.Advances sites names (mk head nested).references c' := by
  have hinner : c.Advances sites names (referencesOf nested) c₁ :=
    ⟨hnested.knows, hnested.keys, hnested.undeclared_eq⟩
  exact hinner.append (hcloses.advances hinner.knows hnames)

/-- **Nested messages that are loaded leave their map entries known.** -/
theorem advances_of_gives_loadNested {start : Nat} {ds : List MessageDescriptor}
    {ms : List Message} (h : (loadNested context segments path start ds).Gives c ms c')
    (hsites : sitesOf segments ds ⊆ sites) (hknows : c.Knows sites)
    (hnames : ∀ s ∈ sites, s.fullName ∈ names) :
    c.Advances sites names (referencesOf ds) c' ∧
      ∀ d ∈ ds, d.head.isMapEntry = true →
        qualified (segments ++ [d.head.name]) ∈ c'.entries.keys := by
  refine (gives_induction (P := fun segments _ d c m c' => d.Outlines segments m ∧
      (d.sites segments ⊆ sites → c.Knows sites → c.Advances sites names d.references c'))
    (Q := fun segments _ _ ds c _ c' => sitesOf segments ds ⊆ sites → c.Knows sites →
      c.Advances sites names (referencesOf ds) c' ∧
        ∀ d ∈ ds, d.head.isMapEntry = true →
          qualified (segments ++ [d.head.name]) ∈ c'.entries.keys) ⟨?_, ?_, ?_⟩).2 h hsites hknows
  · intro segments path head nested c ms c₁ m c' hnested hcloses
    refine ⟨outlines_of_closes hcloses, fun hsites hknows => ?_⟩
    rw [MessageDescriptor.sites, List.cons_subset] at hsites
    exact advances_of_closes (hnested hsites.2 hknows).1 hcloses hnames
  · intro segments path start c hsites hknows
    exact ⟨hknows.advances_nil, by simp⟩
  · intro segments path start d rest c m c₁ ms c' hd hrest hsites hknows
    obtain ⟨houtlines, hd⟩ := hd
    rw [sitesOf, List.append_subset] at hsites
    obtain ⟨hfirst, hregistered⟩ := (hd hsites.1 hknows).register hsites.1 houtlines
    obtain ⟨hothers, hentries⟩ := hrest hsites.2 hfirst.knows
    exact ⟨hfirst.append hothers,
      List.forall_mem_cons.2 ⟨fun hmap => hothers.keys (hregistered hmap), hentries⟩⟩

theorem advances_of_gives_load {d : MessageDescriptor} {m : Message}
    (h : (d.load context segments path).Gives c m c') (hsites : d.sites segments ⊆ sites)
    (hknows : c.Knows sites) (hnames : ∀ s ∈ sites, s.fullName ∈ names) :
    c.Advances sites names d.references c' := by
  obtain ⟨head, nested⟩ := d
  obtain ⟨ms, c₁, hnested, hcloses⟩ := gives_load.1 h
  rw [MessageDescriptor.sites, List.cons_subset] at hsites
  exact advances_of_closes (advances_of_gives_loadNested hnested hsites.2 hknows hnames).1
    hcloses hnames

theorem knows_register_of_gives_load {d : MessageDescriptor} {m : Message}
    (h : (d.load context segments path).Gives c m c') (hsites : d.sites segments ⊆ sites)
    (hknows : c.Knows sites) : (c'.register m).Knows sites := by
  have hadvances := advances_of_gives_load h hsites hknows fun s hs => List.mem_map_of_mem hs
  exact (hadvances.register hsites (outlines_of_gives_load h)).1.knows

end MessageDescriptor

/-! ## Messages and files -/

namespace MessageDescriptor

variable {context : FileContext}

mutual

/-- **A message fails for the first of its faults.** -/
theorem meets_load (hdistinct : DistinctSites sites) : ∀ (d : MessageDescriptor)
    (segments : List Verbatim) (path : List Int) (c : Catalog), d.sites segments ⊆ sites →
    (∀ s ∈ d.sites segments, s.RefersByRule sites) → c.Knows sites →
    (d.load context segments path).Meets c (d.faults sites segments)
  | mk head nested, segments, path, c, hsites, hrule, hknows => by
    rw [MessageDescriptor.sites, List.cons_subset] at hsites
    rw [MessageDescriptor.sites, List.forall_mem_cons] at hrule
    rw [load, faults]
    refine meets_bind (meets_qualify _) fun fullName c₁ hqualify => meets_modify_bind ?_
    obtain ⟨-, rfl⟩ := gives_ofExcept.1 hqualify
    refine meets_bind (meets_loadNested hdistinct nested _ _ _ _ hsites.2 hrule.2 hknows)
      fun ms c₂ hnested => ?_
    obtain ⟨hinner, hentries⟩ := advances_of_gives_loadNested hnested hsites.2 hknows
      fun s hs => List.mem_map_of_mem hs
    have hknown : ∀ name ∈ Site.entryNames ⟨segments ++ [head.name], head, nested⟩,
        name ∈ c₂.entries.keys := by
      intro name hname
      obtain ⟨n, hn, rfl⟩ := List.mem_map.1 hname
      obtain ⟨hmem, hmap⟩ := List.mem_filter.1 hn
      exact hentries n hmem hmap
    refine meets_bind meets_loadEnums fun enums c₃ henums => ?_
    obtain ⟨-, -, rfl⟩ := gives_loadEnums.1 henums
    exact meets_bind_pure (meets_loadFields fun d hd =>
      hrule.1.entries_fit_iff hdistinct hinner.knows hknown hd)

theorem meets_loadNested (hdistinct : DistinctSites sites) : ∀ (ds : List MessageDescriptor)
    (segments : List Verbatim) (path : List Int) (start : Nat) (c : Catalog),
    sitesOf segments ds ⊆ sites → (∀ s ∈ sitesOf segments ds, s.RefersByRule sites) →
    c.Knows sites →
    (loadNested context segments path start ds).Meets c (faultsOf sites segments ds)
  | [], segments, path, start, c, _, _, _ => by
    rw [loadNested]
    exact meets_pure []
  | d :: rest, segments, path, start, c, hsites, hrule, hknows => by
    rw [sitesOf, List.append_subset] at hsites
    rw [sitesOf, List.forall_mem_append] at hrule
    rw [loadNested, faultsOf]
    refine meets_bind (meets_load hdistinct d _ _ _ hsites.1 hrule.1 hknows) fun m c₁ hm => ?_
    have hrest := meets_loadNested hdistinct rest segments path (start + 1) (c₁.register m)
      hsites.2 hrule.2 (knows_register_of_gives_load hm hsites.1 hknows)
    rw [Catalog.register] at hrest
    split
    · rw [if_pos ‹_›] at hrest
      exact meets_modify_bind (meets_bind_pure hrest)
    · rw [if_neg ‹_›] at hrest
      exact meets_bind_pure hrest

end

end MessageDescriptor

section

variable (hdistinct : DistinctSites sites)

include hdistinct

theorem meets_loadMessages {context : FileContext} {segments : List Verbatim} {start : Nat}
    {ds : List MessageDescriptor} (hsites : MessageDescriptor.sitesOf segments ds ⊆ sites)
    (hrule : ∀ s ∈ MessageDescriptor.sitesOf segments ds, s.RefersByRule sites)
    (hknows : c.Knows sites) : (loadMessages context segments start ds).Meets c
      (MessageDescriptor.faultsOf sites segments ds) := by
  induction ds generalizing c start with
  | nil => exact meets_pure []
  | cons d rest ih =>
    rw [MessageDescriptor.sitesOf, List.append_subset] at hsites
    rw [MessageDescriptor.sitesOf, List.forall_mem_append] at hrule
    rw [loadMessages, MessageDescriptor.faultsOf]
    refine meets_bind (d.meets_load hdistinct _ _ _ hsites.1 hrule.1 hknows) fun m c₁ hm => ?_
    have hadvances := MessageDescriptor.advances_of_gives_load hm hsites.1 hknows
      fun s hs => List.mem_map_of_mem hs
    exact meets_bind_pure (ih hsites.2 hrule.2 hadvances.knows)

end

/-- What messages of a file leave. -/
theorem advances_of_gives_loadMessages {context : FileContext} {segments : List Verbatim}
    {start : Nat} {ds : List MessageDescriptor} {ms : List Message}
    (h : (loadMessages context segments start ds).Gives c ms c')
    (hsites : MessageDescriptor.sitesOf segments ds ⊆ sites) (hknows : c.Knows sites)
    (hnames : ∀ s ∈ sites, s.fullName ∈ names) :
    c.Advances sites names (MessageDescriptor.referencesOf ds) c' := by
  induction ds generalizing c start ms with
  | nil =>
    obtain ⟨-, rfl⟩ := gives_loadMessages_nil.1 h
    exact hknows.advances_nil
  | cons d rest ih =>
    obtain ⟨m, c₁, ms', hm, hrest, -⟩ := gives_loadMessages_cons.1 h
    rw [MessageDescriptor.sitesOf, List.append_subset] at hsites
    have hfirst := MessageDescriptor.advances_of_gives_load hm hsites.1 hknows hnames
    exact hfirst.append (ih hrest hsites.2 hfirst.knows)

/-- A file fails for the first of its faults. -/
theorem FileDescriptor.meets_load (hdistinct : DistinctSites sites) {d : FileDescriptor}
    (hsites : d.sites ⊆ sites) (hrule : ∀ s ∈ d.sites, s.RefersByRule sites)
    (hknows : c.Knows sites) : d.load.Meets c (d.faults sites) := by
  rw [load, faults]
  refine meets_bind meets_loadEnums fun enums c₁ henums => meets_bind_pure ?_
  obtain ⟨-, -, rfl⟩ := gives_loadEnums.1 henums
  exact meets_loadMessages hdistinct hsites hrule hknows

theorem FileDescriptor.advances_of_gives_load {d : FileDescriptor} {f : File}
    (h : d.load.Gives c f c') (hsites : d.sites ⊆ sites) (hknows : c.Knows sites)
    (hnames : ∀ s ∈ sites, s.fullName ∈ names) : c.Advances sites names d.references c' := by
  obtain ⟨-, ms, hms, -⟩ := gives_load.1 h
  have hadvances := advances_of_gives_loadMessages hms hsites hknows hnames
  exact ⟨hadvances.knows, hadvances.keys, hadvances.undeclared_eq⟩

/-- **Files fail for the first of their faults.** -/
theorem meets_loadFiles {files : List FileDescriptor} (hdistinct : DistinctSites sites)
    (hsites : ∀ d ∈ files, d.sites ⊆ sites)
    (hrule : ∀ d ∈ files, ∀ s ∈ d.sites, s.RefersByRule sites) (hknows : c.Knows sites) :
    (loadFiles files).Meets c (files.flatMap (·.faults sites)) := by
  induction files generalizing c with
  | nil => exact meets_pure ()
  | cons d rest ih =>
    obtain ⟨hd, hrest⟩ := List.forall_mem_cons.1 hsites
    obtain ⟨hdrule, hrestRule⟩ := List.forall_mem_cons.1 hrule
    rw [loadFiles, List.flatMap_cons]
    refine meets_bind (d.meets_load hdistinct hd hdrule hknows) fun f c₁ hf => meets_modify_bind ?_
    have hadvances := FileDescriptor.advances_of_gives_load hf hd hknows
      fun s hs => List.mem_map_of_mem hs
    exact ih hrest hrestRule hadvances.knows

/-- Files that are converted leave their undeclared references. -/
theorem advances_of_gives_loadFiles {files : List FileDescriptor} {u : Unit}
    (h : (loadFiles files).Gives c u c') (hsites : ∀ d ∈ files, d.sites ⊆ sites)
    (hknows : c.Knows sites) (hnames : ∀ s ∈ sites, s.fullName ∈ names) :
    c.Advances sites names (files.flatMap (·.references)) c' := by
  induction files generalizing c with
  | nil =>
    rw [gives_loadFiles_nil.1 h]
    exact hknows.advances_nil
  | cons d rest ih =>
    obtain ⟨hd, hrest⟩ := List.forall_mem_cons.1 hsites
    obtain ⟨f, c₁, hf, hfiles⟩ := gives_loadFiles_cons.1 h
    have hfirst := FileDescriptor.advances_of_gives_load hf hd hknows hnames
    have hothers := ih hfiles hrest hfirst.knows
    rw [List.flatMap_cons]
    exact hfirst.append ⟨hothers.knows, hothers.keys, hothers.undeclared_eq⟩

/-! ## The error of a load -/

/-- The faults of files in the order of loading. -/
def loadFaults (files : List FileDescriptor) : List LoadError :=
  files.flatMap (·.faults (files.flatMap (·.sites)))

/-- The references of files to types that none of them declares. -/
def danglingReferences (files : List FileDescriptor) : List Reference :=
  undeclared (files.flatMap (·.typeNames)) (files.flatMap (·.references))

/-- Types with distinct names are declared by distinct messages. -/
theorem distinctSites_of_nodup {files : List FileDescriptor}
    (h : (files.flatMap (·.typeNames)).Nodup) : DistinctSites (files.flatMap (·.sites)) := by
  have hsub : ((files.flatMap (·.sites)).map Site.fullName).Sublist
      (files.flatMap (·.typeNames)) := by
    rw [List.map_eq_flatMap, List.flatMap_assoc]
    refine List.Sublist.flatMap_right _ fun d _ => ?_
    have hown : ∀ s : Site, [s.fullName].Sublist s.typeNames := fun s =>
      List.singleton_sublist.2 List.mem_cons_self
    exact (List.Sublist.flatMap_right _ fun s _ => hown s).trans (List.sublist_append_right _ _)
  intro s hs t ht hname
  exact List.inj_on_of_nodup_map (h.sublist hsub) hs ht hname

/-- Converted files leave the undeclared references dangling, and no other. -/
theorem dangling?_of_gives_loadFiles {files : List FileDescriptor}
    (h : (loadFiles files).Gives {} () c) :
    c.dangling? = (danglingReferences files).head? := by
  have hsites : ∀ d ∈ files, d.sites ⊆ files.flatMap (·.sites) := fun d hd s hs =>
    List.mem_flatMap.2 ⟨d, hd, hs⟩
  have hdeclared : ∀ s ∈ files.flatMap (·.sites), s.fullName ∈ files.flatMap (·.typeNames) := by
    intro s hs
    obtain ⟨d, hd, hs⟩ := List.mem_flatMap.1 hs
    exact List.mem_flatMap.2 ⟨d, hd, d.fullName_mem_typeNames hs⟩
  have hadvances := advances_of_gives_loadFiles h hsites (fun _ _ hget => nomatch hget) hdeclared
  have htypes : ∀ name, name ∈ c.types ↔ name ∈ files.flatMap (·.typeNames) := by
    have hgrows := Catalog.growsBy_loadFiles files {}
    rw [Gives] at h
    rw [h] at hgrows
    exact fun name => ⟨fun hname => (hgrows.types name hname).resolve_left List.not_mem_nil,
      fun hname => (declares_of_gives_loadFiles h).2 hname⟩
  have hundeclared : undeclared (files.flatMap (·.typeNames)) c.references =
      danglingReferences files := hadvances.undeclared_eq
  rw [← hundeclared, undeclared, List.head?_filter, Catalog.dangling?]
  simp only [htypes]

/-- **A load fails for the first fault** of its files, or else for the first
reference that is not declared. Otherwise it ends well. -/
theorem load_eq_first_fault {files : List FileDescriptor}
    (hnames : (files.flatMap (·.typeNames)).Nodup) (hrule : ObeysMapRule files) :
    (∀ e, (loadFaults files).head? = some e → (({} : Catalog).load files).1 = .error e) ∧
    (loadFaults files = [] → ∀ r, (danglingReferences files).head? = some r →
      (({} : Catalog).load files).1 = .error (.unresolved r.typeName r.field)) ∧
    (loadFaults files = [] → danglingReferences files = [] → ∃ loaded, Loads files loaded) := by
  have hmeets : (loadFiles files).Meets {} (loadFaults files) :=
    meets_loadFiles (distinctSites_of_nodup hnames)
      (fun d hd s hs => List.mem_flatMap.2 ⟨d, hd, hs⟩) hrule.referred
      (fun _ _ hget => nomatch hget)
  revert hmeets
  rw [Meets, Ends]
  rcases hrun : (loadFiles files).run.run {} with ⟨e | ⟨⟩, c⟩
  · intro hfirst
    have hfaults : loadFaults files ≠ [] := fun hnil => by rw [hnil] at hfirst; cases hfirst
    refine ⟨fun e' he' => ?_, fun hnil => absurd hnil hfaults, fun hnil => absurd hnil hfaults⟩
    rw [Catalog.load_of_error rfl hrun]
    cases hfirst.symm.trans he'
    rfl
  · intro hnil
    have hdangling := dangling?_of_gives_loadFiles hrun
    refine ⟨fun e he => ?_, fun _ r hr => ?_, fun _ hnone => ?_⟩
    · rw [hnil] at he
      cases he
    · rw [Catalog.load_of_dangling rfl hrun (hdangling.trans hr)]
    · rw [hnone] at hdangling
      exact ⟨c.files, congrArg Prod.fst (Catalog.load_of_settled rfl hrun hdangling)⟩

end OdinSchema
