import OdinSchema.Proofs.Attempts
import OdinSchema.Proofs.FieldLines
import OdinSchema.Proofs.LoadedMessages
import OdinSchema.Proofs.References
import OdinSchema.Proofs.StructBody

/-!
# Loaded fields are coherent

What a loaded field is can be seen in several places: in its kind and its type
code, in whether it has an entry, in its flags, in its oneof and the position
of it, and in its override. A field is read in one step and made a map in
another that leaves the flags as they are, so that all of these agree has to
be shown (`Field.Coherent`). It holds for any request that loads. Where a
request breaks the rule for maps, a field may have the entry of another
message, in another file and of another dialect, so a key or a value is
coherent with the file that declares it. These are reached by going down a
field that has entries inside entries (`Field.CoherentThroughout`).
-/

namespace OdinSchema

/-- A field that agrees with itself, and with its descriptor in a file where
it is packed as the descriptor and the dialect of the file say. -/
structure Field.Coherent (d : FileDescriptor) (x : FieldDescriptor) (y : Field) : Prop where
  describes : x.Describes y
  entry_iff : y.entry? ≠ none ↔ y.head.kind = .map
  map : y.head.kind = .map → y.head.cardinality = .repeated ∧
    (y.head.code = TypeCode.message ∨ y.head.code = TypeCode.group) ∧ y.head.packable = false
  scalar_iff : y.head.kind = .scalar ↔
    y.head.code ∉ [TypeCode.enum, TypeCode.message, TypeCode.group]
  packable_iff : y.head.packable = true ↔ y.head.cardinality = .repeated ∧
    y.head.code ∉ [TypeCode.string, TypeCode.bytes, TypeCode.message, TypeCode.group]
  packed_iff : y.head.packed = true ↔ y.head.packable = true ∧
    (x.packed = some true ∨ (x.packed = none ∧ d.dialect ∉ [.text "", .text "proto2"]))
  oneof_iff : y.head.oneof.isSome ↔ y.head.oneofIndex.isSome
  override : ∀ o ∈ y.head.override, o.external = none ∨ o.typedef = none

/-- A field that is coherent with its descriptor and, if it is a map, has a
key and a value that are coherent with theirs. These are the first two fields
of a map entry that has the name of the field's type, in some file. -/
inductive Field.CoherentThroughout (files : List FileDescriptor) :
    FileDescriptor → FieldDescriptor → Field → Prop where
  | single {d : FileDescriptor} {x : FieldDescriptor} {head : FieldHead}
      (hfield : Coherent d x (.single head)) : CoherentThroughout files d x (.single head)
  | map {d e : FileDescriptor} {x k v : FieldDescriptor} {rest : List FieldDescriptor} {s : Site}
      {head : FieldHead} {key value : Field} (hfield : Coherent d x (.map head key value))
      (he : e ∈ files) (hs : s ∈ e.sites) (hentry : s.head.isMapEntry = true)
      (htype : x.fullTypeName? = some s.fullName) (hfields : s.head.fields = k :: v :: rest)
      (hkey : CoherentThroughout files e k key) (hvalue : CoherentThroughout files e v value) :
      CoherentThroughout files d x (.map head key value)

/-! ## One field -/

/-- An override that is read sets one member at most. -/
theorem Override.one_member_of_ofPayloads {payloads : List Wire.Bytes} {o : Override}
    (h : ofPayloads payloads = some (some o)) : o.external = none ∨ o.typedef = none := by
  unfold ofPayloads at h
  split at h
  · cases h
  · obtain ⟨records, -, hrecords⟩ := Option.map_eq_some_iff.1 h
    rw [← Option.some.inj hrecords, ofRecords]
    split
    · exact .inl rfl
    · rename_i member payload _
      cases member with
      | external => exact .inr rfl
      | typedef => exact .inl rfl

namespace FieldDescriptor

variable {x : FieldDescriptor}

theorem kind_eq_message_iff :
    x.kind = .message ↔ x.code = TypeCode.message ∨ x.code = TypeCode.group := by
  unfold kind
  split
  · rename_i henum
    simp [henum, TypeCode.enum, TypeCode.message, TypeCode.group]
  · split
    · rename_i hmessage
      simp [hmessage]
    · rename_i hmessage
      simp [hmessage]

theorem kind_eq_scalar_iff :
    x.kind = .scalar ↔ x.code ∉ [TypeCode.enum, TypeCode.message, TypeCode.group] := by
  unfold kind
  split
  · rename_i henum
    simp [henum]
  · rename_i henum
    split
    · rename_i hmessage
      simpa [henum] using fun h => hmessage.resolve_left h
    · rename_i hmessage
      simpa [henum] using hmessage

theorem packable_iff : x.packable = true ↔ x.label = .repeated ∧
    x.code ∉ [TypeCode.string, TypeCode.bytes, TypeCode.message, TypeCode.group] := by
  simp [packable, and_assoc]

/-- A descriptor that does not say whether values are packed leaves it to the
dialect, and a file without one has the oldest. -/
theorem packed_iff (d : FileDescriptor) (location : Option Location) :
    (x.head d.givenDialect location).packed = true ↔ x.packable = true ∧
      (x.packed = some true ∨ (x.packed = none ∧ d.dialect ∉ [.text "", .text "proto2"])) := by
  have hdialect : d.givenDialect ≠ .text "proto2" ↔ d.dialect ∉ [.text "", .text "proto2"] := by
    unfold FileDescriptor.givenDialect Verbatim.given?
    split
    · rename_i hempty
      simp [hempty]
    · rename_i hempty
      simp [hempty]
  rw [← hdialect, head, Bool.and_eq_true]
  cases x.packed with
  | none => simp
  | some packed => simp

section

variable {dialect : Verbatim} {location : Option Location} {oneofs : List Verbatim}
variable {entries : Dictionary String Message} {y : Field}

/-- A field keeps its flags when it is made a map. -/
theorem flags_of_toField (h : x.toField dialect location oneofs entries = .ok y) :
    y.head.packable = x.packable ∧ y.head.packed = (x.head dialect location).packed := by
  obtain ⟨-, entry, oneof, override, -, -, -, rfl⟩ := toField_eq_ok_iff.1 h
  cases entry <;> exact ⟨rfl, rfl⟩

/-- A field that is made a map is a repeated message field before. -/
theorem kind_of_toField (h : x.toField dialect location oneofs entries = .ok y) :
    (y.entry? = none ∧ y.head.kind = x.kind ∧ y.head.kind ≠ .map) ∨
      (y.entry? ≠ none ∧ y.head.kind = .map ∧ x.kind = .message ∧ x.label = .repeated) := by
  rcases toField_cases h with ⟨-, hentry, hkind⟩ | ⟨_, _, _, _, hmessage, -, hentry, hkind⟩
  · refine .inl ⟨hentry, hkind, ?_⟩
    rw [hkind]
    exact x.kind_ne_map
  · rw [hentry]
    exact .inr ⟨Option.some_ne_none _, hkind, (entryMessage?_eq_some_iff.1 hmessage).1⟩

theorem oneof_isSome_iff_of_toField (h : x.toField dialect location oneofs entries = .ok y) :
    y.head.oneof.isSome ↔ y.head.oneofIndex.isSome := by
  have hplaces := places_of_toField h
  rw [hplaces.oneofIndex]
  rcases oneof?_eq_ok_iff.1 hplaces.oneof with ⟨hindex, hnone⟩ | ⟨_, _, _, hindex, -, -, hsome⟩
  · simp [hindex, hnone]
  · simp [hindex, hsome]

end

/-- **A field is coherent as it is read**, whatever entries are known. -/
theorem coherent_of_toField {d : FileDescriptor} {location : Option Location}
    {oneofs : List Verbatim} {entries : Dictionary String Message} {y : Field}
    (h : x.toField d.givenDialect location oneofs entries = .ok y) : y.Coherent d x := by
  have hdescribes := describes_of_toField h
  obtain ⟨hpackable, hpacked⟩ := flags_of_toField h
  have hkind := kind_of_toField h
  refine ⟨hdescribes, ?_, fun hmap => ?_, ?_, ?_, ?_, oneof_isSome_iff_of_toField h, fun o ho => ?_⟩
  · rcases hkind with ⟨hentry, -, hnomap⟩ | ⟨hentry, hmap, -⟩
    · simp [hentry, hnomap]
    · simp [hentry, hmap]
  · rcases hkind with ⟨-, -, hnomap⟩ | ⟨-, -, hmessage, hlabel⟩
    · exact absurd hmap hnomap
    · have hcode := kind_eq_message_iff.1 hmessage
      rw [hdescribes.cardinality, hdescribes.code, hpackable, ← Bool.not_eq_true, packable_iff]
      refine ⟨hlabel, hcode, ?_⟩
      rcases hcode with hcode | hcode <;> simp [hcode]
  · rw [hdescribes.code, ← kind_eq_scalar_iff]
    rcases hkind with ⟨-, hkind, -⟩ | ⟨-, hmap, hmessage, -⟩
    · rw [hkind]
    · simp [hmap, hmessage]
  · rw [hpackable, hdescribes.cardinality, hdescribes.code]
    exact packable_iff
  · rw [hpackable, hpacked]
    exact packed_iff d location
  · have hoverride := (places_of_toField h).override
    exact Override.one_member_of_ofPayloads (hoverride.trans (congrArg some ho))

end FieldDescriptor

/-! ## Fields of entries -/

/-- A field that is read off its descriptor in a file, while messages of some
files are known as map entries. -/
def FieldDescriptor.LoadedAs (files : List FileDescriptor) (d : FileDescriptor)
    (x : FieldDescriptor) (y : Field) : Prop :=
  ∃ location oneofs entries, KnownIn files entries ∧
    x.toField d.givenDialect location oneofs entries = .ok y

/-- The fields of a loaded file beside those of its descriptor. -/
theorem FileDescriptor.LoadedIn.fields {files : List FileDescriptor} {d : FileDescriptor}
    {f : File} (h : d.LoadedIn files f) :
    List.Forall₂ (fun s m => (m.fullName = s.fullName ∧ m.isMapEntry = s.head.isMapEntry) ∧
      List.Forall₂ (FieldDescriptor.LoadedAs files d) s.head.fields m.fields) d.sites f.heads := by
  refine h.messages.imp fun s m hread => ?_
  obtain ⟨entries, hknown, hread⟩ := hread
  obtain ⟨path, hreads⟩ := hread.reads
  refine ⟨⟨hread.fullName, hread.isMapEntry⟩, hreads.forall₂.imp fun x y hfield => ?_⟩
  obtain ⟨location, hfield⟩ := hfield
  exact ⟨location, _, entries, hknown, hfield⟩

/-- **The key and the value of a loaded map are loaded fields**, the first two
of a map entry that has the name of the field's type. -/
theorem FieldDescriptor.LoadedAs.entry {files : List FileDescriptor} {d : FileDescriptor}
    {x : FieldDescriptor} {y key value : Field} (h : x.LoadedAs files d y)
    (hentry : y.entry? = some (key, value)) :
    ∃ e ∈ files, ∃ s ∈ e.sites, s.head.isMapEntry = true ∧ x.fullTypeName? = some s.fullName ∧
      ∃ k v rest, s.head.fields = k :: v :: rest ∧ k.LoadedAs files e key ∧
        v.LoadedAs files e value := by
  obtain ⟨location, oneofs, entries, hknown, hfield⟩ := h
  rcases toField_cases hfield with ⟨-, hnone, -⟩ | ⟨entry, k, v, rest, hmessage, hfields, hsome, -⟩
  · rw [hnone] at hentry
    cases hentry
  · rw [hsome] at hentry
    cases hentry
    obtain ⟨-, name, hname, hget⟩ := entryMessage?_eq_some_iff.1 hmessage
    obtain ⟨e, g, hg, hhead, hmap, hfullName⟩ := hknown name entry hget
    obtain ⟨s, hs, ⟨hsname, hsmap⟩, hpairs⟩ := exists_of_forall₂ hg.fields hhead
    rw [hfields, List.forall₂_cons_right_iff] at hpairs
    obtain ⟨k, tail, hkey, hpairs, hk⟩ := hpairs
    rw [List.forall₂_cons_right_iff] at hpairs
    obtain ⟨v, rest, hvalue, -, rfl⟩ := hpairs
    refine ⟨e, hg.mem, s, hs, hsmap ▸ hmap, ?_, k, v, rest, hk, hkey, hvalue⟩
    rw [hname, ← hfullName, hsname]

theorem FieldDescriptor.LoadedAs.coherent {files : List FileDescriptor} {d : FileDescriptor}
    {x : FieldDescriptor} {y : Field} (h : x.LoadedAs files d y) : y.Coherent d x := by
  obtain ⟨location, oneofs, entries, -, hfield⟩ := h
  exact coherent_of_toField hfield

/-- **A loaded field is coherent, as are all fields inside its entry.** -/
theorem FieldDescriptor.LoadedAs.coherentThroughout {files : List FileDescriptor}
    {d : FileDescriptor} {x : FieldDescriptor} {y : Field} (h : x.LoadedAs files d y) :
    y.CoherentThroughout files d x := by
  -- the entry of a map holds smaller fields, which are loaded fields again
  induction y generalizing d x with
  | single head => exact .single h.coherent
  | map head key value ihkey ihvalue =>
    obtain ⟨e, he, s, hs, hmap, hname, k, v, rest, hfields, hkey, hvalue⟩ := h.entry rfl
    exact .map h.coherent he hs hmap hname hfields (ihkey hkey) (ihvalue hvalue)

/-- Every part of such a field is coherent with some descriptor. -/
theorem Field.CoherentThroughout.exists_coherent {files : List FileDescriptor}
    {d : FileDescriptor} {x : FieldDescriptor} {y : Field} (h : y.CoherentThroughout files d x) :
    ∀ part ∈ y.parts, ∃ e z, part.Coherent e z := by
  induction h with
  | single hfield =>
    rw [parts, List.forall_mem_singleton]
    exact ⟨_, _, hfield⟩
  | map hfield _ _ _ _ _ _ _ ihkey ihvalue =>
    rw [parts, List.forall_mem_cons, List.forall_mem_append]
    exact ⟨⟨_, _, hfield⟩, ihkey, ihvalue⟩

/-! ## Tags -/

namespace Field

variable {y : Field}

/-- A character of a tag that is of no value and not between keys and values
is of a key. -/
theorem exists_key_of_mem_tag {c : Char} (h : c ∈ y.tag.toList) (hmark : c ∉ " :\"".toList)
    (hvalue : ¬ (c = '-' ∨ c.isDigit = true ∨ c ∈ "truefalse".toList)) :
    ∃ p ∈ y.tagPairs, c ∈ p.1.toList := by
  rw [tag, String.toList_intercalate, tagEntries_eq] at h
  rcases mem_intercalate h with hspace | ⟨part, hpart, hc⟩
  · rw [List.mem_singleton.1 hspace] at hmark
    exact absurd (by decide) hmark
  · simp only [List.mem_map] at hpart
    obtain ⟨_, ⟨p, hp, rfl⟩, rfl⟩ := hpart
    simp only [tagEntry, String.toList_append, List.mem_append] at hc
    rcases hc with ((hkey | hmid) | htext) | hend
    · exact ⟨p, hp, hkey⟩
    · exact absurd (List.mem_cons_of_mem _ hmid) hmark
    · exact absurd (mem_value_of_mem_tagPairs hp htext) hvalue
    · exact absurd (List.mem_cons_of_mem _ (List.mem_cons_of_mem _ hend)) hmark

/-- Of all keys one has this letter, and it is there for packable fields. -/
theorem packable_of_mem_tag (h : 'c' ∈ y.tag.toList) : y.head.packable = true := by
  obtain ⟨p, hp, hkey⟩ := exists_key_of_mem_tag h (by decide) (by decide)
  rcases (of_mem_tagPairs hp).1 with hplain | ⟨hpackable, -⟩ | ⟨-, hmap⟩
  · have hother : ∀ key ∈ ["id", "type"], 'c' ∉ key.toList := by decide
    exact absurd hkey (hother p.1 hplain)
  · exact hpackable
  · have hother : ∀ key ∈ ["key_type", "value_type"], 'c' ∉ key.toList := by decide
    exact absurd hkey (hother p.1 hmap)

/-- The keys with an underscore are there for maps. -/
theorem entry?_ne_none_of_mem_tag (h : '_' ∈ y.tag.toList) : y.entry? ≠ none := by
  obtain ⟨p, hp, hkey⟩ := exists_key_of_mem_tag h (by decide) (by decide)
  rcases (of_mem_tagPairs hp).1 with hplain | ⟨-, hpacked⟩ | ⟨hentry, -⟩
  · have hother : ∀ key ∈ ["id", "type"], '_' ∉ key.toList := by decide
    exact absurd hkey (hother p.1 hplain)
  · rw [hpacked] at hkey
    exact absurd hkey (by decide)
  · exact hentry

/-- A coherent field has no tag that tells both of packing and of a map. -/
theorem Coherent.not_packed_and_keyed {d : FileDescriptor} {x : FieldDescriptor}
    (h : y.Coherent d x) :
    ¬ ("packed".toList <:+: y.tag.toList ∧ "key_type".toList <:+: y.tag.toList) := by
  rintro ⟨hpacked, hkeyed⟩
  have hpackable := packable_of_mem_tag (hpacked.subset (by decide))
  have hmap := h.entry_iff.1 (entry?_ne_none_of_mem_tag (hkeyed.subset (by decide)))
  rw [(h.map hmap).2.2] at hpackable
  cases hpackable

end Field

/-- **Loaded fields are coherent.** The messages of a loaded file stand beside
those of the last descriptor with its name, at every depth, and so do their
fields. Each of them is coherent with its descriptor, as is every field inside
its entry with the one it is read off, in the file of the entry. No tag of any
of them tells both of packing and of a map. The request has to load, and
nothing else is assumed of it. -/
theorem loaded_fields_coherent {files : List FileDescriptor} {loaded : Dictionary Verbatim File}
    {name : Verbatim} {f : File} (h : Loads files loaded) (hf : loaded.get? name = some f) :
    ∃ (before : List FileDescriptor) (d : FileDescriptor) (after : List FileDescriptor),
      files = before ++ d :: after ∧ d.name = name ∧ name ∉ after.map (·.name) ∧
      List.Forall₂ (fun s m => List.Forall₂ (Field.CoherentThroughout files d)
        s.head.fields m.fields) d.sites f.heads ∧
      ∀ m ∈ f.heads, ∀ y ∈ m.fields, ∀ part ∈ y.parts,
        ¬ ("packed".toList <:+: part.tag.toList ∧ "key_type".toList <:+: part.tag.toList) := by
  obtain ⟨before, d, after, c, c', rfl, hname, hlast, hbefore, hload⟩ := h.exists_turn hf
  have hloaded : d.LoadedIn (before ++ d :: after) f :=
    ⟨before, after, c, c', rfl, hbefore, hload⟩
  have hfields : List.Forall₂ (fun s m => List.Forall₂
      (Field.CoherentThroughout (before ++ d :: after) d) s.head.fields m.fields)
      d.sites f.heads :=
    hloaded.fields.imp fun s m hpairs => hpairs.2.imp fun x y hxy => hxy.coherentThroughout
  refine ⟨before, d, after, rfl, hname, hlast, hfields, fun m hm y hy part hpart => ?_⟩
  obtain ⟨s, -, hpairs⟩ := exists_of_forall₂ hfields hm
  obtain ⟨x, -, hcoherent⟩ := exists_of_forall₂ hpairs hy
  obtain ⟨e, z, hpart⟩ := hcoherent.exists_coherent part hpart
  exact hpart.not_packed_and_keyed

/-- Two files. The field of the second has the entry of a message of the
first, against the rule for maps, and the dialects differ. The value of the
entry is repeated, against the rule too. -/
def borrowedEntryFiles : List FileDescriptor :=
  [{ name := "a.proto"
     messages := [.mk { name := "A" } [.mk
       { name := "E", mapEntry := some true, fields := [
          { name := "key", number := 1, code := 9 },
          { name := "value", number := 2, code := 5, label := .repeated }] } []]] },
   { name := "b.proto"
     dialect := "proto3"
     messages := [.mk
       { name := "B", fields := [
          { name := "borrowed", number := 1, code := 11, label := .repeated, typeName := ".A.E" },
          { name := "counts", number := 2, code := 5, label := .repeated }] } []] }]

/-- The value of the entry is not packed, as its own file says, while a field
of the other file is. -/
theorem loaded_fields_coherent_borrowed_entry : ∃ loaded f, Loads borrowedEntryFiles loaded ∧
    loaded.get? (.text "b.proto") = some f ∧
    (f.heads.flatMap (·.fields)).map (fun y => y.parts.map (·.tag)) =
      [["id:\"1\" type:\"11\" key_type:\"9\" value_type:\"5\"", "id:\"1\" type:\"9\"",
          "id:\"2\" type:\"5\" packed:\"false\""],
        ["id:\"2\" type:\"5\" packed:\"true\""]] ∧
    ∃ before d after, borrowedEntryFiles = before ++ d :: after ∧ d.name = .text "b.proto" ∧
      List.Forall₂ (fun s m => List.Forall₂ (Field.CoherentThroughout borrowedEntryFiles d)
        s.head.fields m.fields) d.sites f.heads := by
  obtain ⟨loaded, f, hloads, hget, htags⟩ :
      ∃ loaded f, Loads borrowedEntryFiles loaded ∧ loaded.get? (.text "b.proto") = some f ∧
        (f.heads.flatMap (·.fields)).map (fun y => y.parts.map (·.tag)) =
          [["id:\"1\" type:\"11\" key_type:\"9\" value_type:\"5\"", "id:\"1\" type:\"9\"",
              "id:\"2\" type:\"5\" packed:\"false\""],
            ["id:\"2\" type:\"5\" packed:\"true\""]] :=
    exists_loaded_of_any (by decide +kernel)
  obtain ⟨before, d, after, hfiles, hname, -, hfields, -⟩ := loaded_fields_coherent hloads hget
  exact ⟨loaded, f, hloads, hget, htags, before, d, after, hfiles, hname, hfields⟩

end OdinSchema
