import OdinSchema.Descriptor.Reading
import OdinSchema.Proofs.WireFormat

/-!
# What an encoded option says

The option that overrides the type of a field is a message inside the
encoded options of the field. It may come in several occurrences, with
records of other options, or of no known number, before, between and inside
them, and both of its members may be set, more than once. The occurrences,
put one behind the other, are one message, and the last of its records that
sets a member decides (`Tells`). Reading gives just this, as long as no groups
nest too deep: a reader has a hundred levels, of which one is spent on the
option itself.
-/

namespace OdinSchema

open Wire

namespace Override

/-- A record that is an occurrence of the option. -/
def IsOccurrence (r : Record) : Prop :=
  r.number = optionNumber ∧ r.value.form = 2

/-- A record that sets a member of the option. -/
def SetsMember (r : Record) : Prop :=
  (r.number = 1 ∨ r.number = 2) ∧ r.value.form = 2

instance : DecidablePred SetsMember := fun r =>
  inferInstanceAs (Decidable ((r.number = 1 ∨ r.number = 2) ∧ r.value.form = 2))

/-- What the records of the option say: the last that sets a member
decides. -/
inductive Tells (records : List Record) : Override → Prop where
  | external {before after : List Record} {text : String}
      (hrecords : records = before ++ textRecord 1 text :: after)
      (hlast : ∀ r ∈ after, ¬ SetsMember r) : Tells records { external := some (.text text) }
  | typedef {before after : List Record} {text : String}
      (hrecords : records = before ++ textRecord 2 text :: after)
      (hlast : ∀ r ∈ after, ¬ SetsMember r) : Tells records { typedef := some (.text text) }
  | nothing (hnone : ∀ r ∈ records, ¬ SetsMember r) : Tells records {}

/-- A record that sets a member, if it is one, to a text. -/
def SetsText (r : Record) : Prop :=
  SetsMember r → ∃ text, r.value = .bytes (Text.encode text)

/-- Encoded options with these records, in groups that nest so deep. Every
occurrence of the option is a message by itself, and sets members to texts. -/
structure WellEncoded (bytes : Bytes) (records : List Record) (depth : Nat) : Prop where
  encodes : Encodes ShortLength bytes records depth
  occurrences : ∀ payload ∈ payloads optionNumber records, ∃ inner innerDepth,
    Encodes ShortLength payload inner innerDepth ∧ ∀ r ∈ inner, SetsText r

/-! ## The last member -/

variable {records : List Record} {r : Record} {o : Override}

theorem member?_eq_none_iff : member? r = none ↔ ¬ SetsMember r := by
  obtain ⟨number, value⟩ := r
  cases value with
  | varint n | fixed64 bytes | fixed32 bytes => simp [member?, SetsMember, Value.form]
  | bytes payload =>
    by_cases hexternal : number = 1
    · simp [member?, SetsMember, Value.form, Member.number, hexternal]
    · by_cases htypedef : number = 2 <;>
        simp [member?, SetsMember, Value.form, Member.number, hexternal, htypedef]

/-- Records behind the last member do not change what is said. -/
theorem ofRecords_append_cons {before after : List Record} {member : Member} {payload : Bytes}
    (hr : member? r = some (member, payload)) (hlast : ∀ r ∈ after, ¬ SetsMember r) :
    ofRecords (before ++ r :: after) = member.set (.read payload) := by
  have hafter : after.filterMap member? = [] :=
    List.filterMap_eq_nil_iff.2 fun r hr => member?_eq_none_iff.2 (hlast r hr)
  have hmembers : ((before ++ r :: after).filterMap member?).getLast? = some (member, payload) := by
    rw [List.filterMap_append, List.filterMap_cons_some hr, hafter]
    simp
  simp only [ofRecords, hmembers]

/-- **Reading gives what the records say.** -/
theorem Tells.ofRecords_eq (h : Tells records o) : ofRecords records = o := by
  cases h with
  | external hrecords hlast =>
    rw [hrecords, ofRecords_append_cons rfl hlast, Verbatim.read_encode]
    rfl
  | typedef hrecords hlast =>
    rw [hrecords, ofRecords_append_cons rfl hlast, Verbatim.read_encode]
    rfl
  | nothing hnone =>
    have hmembers : records.filterMap member? = [] :=
      List.filterMap_eq_nil_iff.2 fun r hr => member?_eq_none_iff.2 (hnone r hr)
    simp only [ofRecords, hmembers, List.getLast?_nil]

/-- A record in front is heard only if the others say nothing. -/
theorem Tells.cons (h : Tells records o) (htext : SetsText r) : ∃ o', Tells (r :: records) o' := by
  cases h with
  | @external before after text hrecords hlast =>
    have hsplit : r :: records = r :: before ++ textRecord 1 text :: after := by
      rw [hrecords, List.cons_append]
    exact ⟨_, .external hsplit hlast⟩
  | @typedef before after text hrecords hlast =>
    have hsplit : r :: records = r :: before ++ textRecord 2 text :: after := by
      rw [hrecords, List.cons_append]
    exact ⟨_, .typedef hsplit hlast⟩
  | nothing hnone =>
    by_cases hr : SetsMember r
    · obtain ⟨text, hvalue⟩ := htext hr
      obtain ⟨number, value⟩ := r
      obtain rfl : value = .bytes (Text.encode text) := hvalue
      rcases hr.1 with hnumber | hnumber
      · obtain rfl : number = 1 := hnumber
        exact ⟨_, .external (List.nil_append _).symm hnone⟩
      · obtain rfl : number = 2 := hnumber
        exact ⟨_, .typedef (List.nil_append _).symm hnone⟩
    · exact ⟨{}, .nothing (List.forall_mem_cons.2 ⟨hr, hnone⟩)⟩

/-- Records that set members to texts always say something. -/
theorem exists_tells (h : ∀ r ∈ records, SetsText r) : ∃ o, Tells records o := by
  induction records with
  | nil => exact ⟨{}, .nothing (by simp)⟩
  | cons r records ih =>
    obtain ⟨hr, hrecords⟩ := List.forall_mem_cons.1 h
    obtain ⟨o, ho⟩ := ih hrecords
    exact ho.cons hr

/-- And nothing else. -/
theorem ofRecords_eq_iff (h : ∀ r ∈ records, SetsText r) :
    ofRecords records = o ↔ Tells records o := by
  refine ⟨fun heq => ?_, Tells.ofRecords_eq⟩
  obtain ⟨told, htold⟩ := exists_tells h
  rw [← heq, htold.ofRecords_eq]
  exact htold

/-- What the records say depends on those that set members. -/
theorem ofRecords_congr {records' : List Record}
    (h : records'.filter SetsMember = records.filter SetsMember) :
    ofRecords records' = ofRecords records := by
  have hmembers : ∀ xs : List Record,
      xs.filterMap member? = (xs.filter SetsMember).filterMap member? := by
    intro xs
    have hsame : (fun r => if decide (SetsMember r) then member? r else none) = member? := by
      funext r
      by_cases hr : SetsMember r
      · simp [hr]
      · simp [hr, member?_eq_none_iff.2 hr]
    rw [List.filterMap_filter, hsame]
  rw [ofRecords, ofRecords, hmembers records', hmembers records, h]

/-- An override that is said sets one member at most. -/
theorem Tells.one_member (h : Tells records o) : o.external = none ∨ o.typedef = none := by
  cases h with
  | external _ _ => exact .inr rfl
  | typedef _ _ => exact .inl rfl
  | nothing _ => exact .inl rfl

/-! ## Reading the options -/

/-- There are payloads of the option exactly if it occurs. -/
theorem payloads_eq_nil_iff :
    payloads optionNumber records = [] ↔ ¬ ∃ r ∈ records, IsOccurrence r := by
  rw [Wire.payloads_eq_nil_iff]
  simp [IsOccurrence]

variable {bytes : Bytes} {depth : Nat}

/-- The option is read from its occurrences, if there are levels for the
groups around them. -/
theorem readOptions_eq (h : Encodes ShortLength bytes records depth) :
    readOptions bytes =
      if depth ≤ 100 then ofPayloads (payloads optionNumber records) else none := by
  have hread : readOptions bytes = (Record.readAll 100 bytes).bind fun records =>
      ofPayloads (payloads optionNumber records) := rfl
  rw [hread, Record.readAll_of_encodes h]
  split <;> rfl

/-- **The occurrences are one message**, and are read as it is: nothing if
there are none, and else what its records say. -/
theorem WellEncoded.readOptions_eq (h : WellEncoded bytes records depth) :
    ∃ inner innerDepth,
      Encodes ShortLength (payloads optionNumber records).flatten inner innerDepth ∧
      (∀ r ∈ inner, SetsText r) ∧
      readOptions bytes =
        if depth ≤ 100 ∧ innerDepth ≤ 99 then
          some (if payloads optionNumber records = [] then none else some (ofRecords inner))
        else none := by
  obtain ⟨inner, innerDepth, hinner, htexts, hread⟩ := Record.mapM_readAll_of_encodes h.occurrences
  refine ⟨inner, innerDepth, hinner, htexts, ?_⟩
  have hlevels := hread 99
  rw [Override.readOptions_eq h.encodes, ofPayloads]
  by_cases hdepth : depth ≤ 100
  · by_cases hnone : payloads optionNumber records = []
    · -- no occurrence, so nothing that could nest
      rw [hnone, List.mapM_nil] at hlevels
      have hinnerDepth : innerDepth ≤ 99 := by
        by_cases hle : innerDepth ≤ 99
        · exact hle
        · rw [if_neg hle] at hlevels
          cases hlevels
      rw [if_pos hdepth, if_pos hnone, if_pos ⟨hdepth, hinnerDepth⟩, if_pos hnone]
    · have hpieces : ∀ read : Option (List (List Record)),
          read.map (fun pieces => some (ofRecords pieces.flatten)) =
            (read.map List.flatten).map fun records => some (ofRecords records) := by
        intro read
        rw [Option.map_map]
        rfl
      rw [if_pos hdepth, if_neg hnone, if_neg hnone, hpieces, hlevels]
      by_cases hinnerDepth : innerDepth ≤ 99
      · rw [if_pos hinnerDepth, if_pos ⟨hdepth, hinnerDepth⟩, Option.map_some]
      · rw [if_neg hinnerDepth, if_neg fun hboth => hinnerDepth hboth.2, Option.map_none]
  · rw [if_neg hdepth, if_neg fun hboth => hdepth hboth.1]

end Override

/-- **What an encoded option says.** Take well-encoded options of a field, and
put the payloads of all occurrences of the override one behind the other.
They are one message, and unless groups nest more than a hundred levels deep
in the options, or ninety-nine in that message, the override is read: none
exactly if there is no occurrence, and else the one that the message says by
its last member. So it has one member at most, and all other records, in the
options or in the message, can be added or left out. -/
theorem option_decoded {bytes : Bytes} {records : List Record} {depth : Nat}
    (h : Override.WellEncoded bytes records depth) :
    ∃ inner innerDepth,
      Encodes ShortLength (payloads Override.optionNumber records).flatten inner innerDepth ∧
      (Override.readOptions bytes = none ↔ ¬ (depth ≤ 100 ∧ innerDepth ≤ 99)) ∧
      (depth ≤ 100 → innerDepth ≤ 99 →
        (Override.readOptions bytes = some none ↔ ∀ r ∈ records, ¬ Override.IsOccurrence r) ∧
        (∀ o, Override.readOptions bytes = some (some o) ↔
          (∃ r ∈ records, Override.IsOccurrence r) ∧ Override.Tells inner o) ∧
        (∀ o, Override.readOptions bytes = some (some o) → o.external = none ∨ o.typedef = none) ∧
        ∀ bytes' records' depth' inner' innerDepth', Override.WellEncoded bytes' records' depth' →
          Encodes ShortLength (payloads Override.optionNumber records').flatten inner' innerDepth' →
          depth' ≤ 100 → innerDepth' ≤ 99 →
          ((∃ r ∈ records', Override.IsOccurrence r) ↔ ∃ r ∈ records, Override.IsOccurrence r) →
          inner'.filter Override.SetsMember = inner.filter Override.SetsMember →
          Override.readOptions bytes' = Override.readOptions bytes) := by
  obtain ⟨inner, innerDepth, hinner, htexts, hread⟩ := h.readOptions_eq
  refine ⟨inner, innerDepth, hinner, ?_, fun hdepth hinnerDepth => ?_⟩
  · rw [hread]
    split <;> simp [*]
  · rw [if_pos ⟨hdepth, hinnerDepth⟩] at hread
    have htells : ∀ o, Override.readOptions bytes = some (some o) ↔
        (∃ r ∈ records, Override.IsOccurrence r) ∧ Override.Tells inner o := by
      intro o
      rw [hread, ← Override.ofRecords_eq_iff htexts]
      by_cases hoccurs : ∃ r ∈ records, Override.IsOccurrence r
      · rw [if_neg fun hnil => Override.payloads_eq_nil_iff.1 hnil hoccurs]
        simp [hoccurs]
      · rw [if_pos (Override.payloads_eq_nil_iff.2 hoccurs)]
        simp [hoccurs]
    refine ⟨?_, htells, fun o ho => ((htells o).1 ho).2.one_member, ?_⟩
    · have hnil : payloads Override.optionNumber records = [] ↔
          ∀ r ∈ records, ¬ Override.IsOccurrence r := Wire.payloads_eq_nil_iff
      rw [hread, ← hnil]
      by_cases hoccurs : payloads Override.optionNumber records = [] <;> simp [hoccurs]
    · intro bytes' records' depth' inner' innerDepth' h' hinner' hdepth' hinnerDepth' hoccurs hmembers
      obtain ⟨read, readDepth, hreadInner, -, hread'⟩ := h'.readOptions_eq
      obtain ⟨rfl, rfl⟩ := hinner'.unique (fun _ _ hlength => hlength.1) hreadInner
      have hnil : payloads Override.optionNumber records' = [] ↔
          payloads Override.optionNumber records = [] := by
        rw [Override.payloads_eq_nil_iff, Override.payloads_eq_nil_iff, hoccurs]
      rw [if_pos ⟨hdepth', hinnerDepth'⟩] at hread'
      rw [hread, hread', Override.ofRecords_congr hmembers]
      simp only [hnil]

/-- Options that override a type in two pieces, the second of which sets the
other member, to the empty text. Around them are the flag of another option,
a record that has the number of the override but is no payload, and a group
that holds something like an occurrence. -/
def dividedOption : Bytes :=
  Record.writeAll [boolRecord 2 true, ⟨51617, .varint 5⟩,
      ⟨51617, .bytes (Override.payload [(.external, "Id")])⟩] ++
    (Varint.write 803 ++ (Record.writeAll [⟨51617, .bytes [0xff]⟩] ++ Varint.write 804)) ++
    Record.writeAll [⟨51617, .bytes (Record.writeAll [textRecord 2 "", ⟨1, .varint 7⟩])⟩]

/-- The records of `dividedOption` outside its group. -/
def dividedRecords : List Record :=
  [boolRecord 2 true, ⟨51617, .varint 5⟩, ⟨51617, .bytes (Override.payload [(.external, "Id")])⟩,
    ⟨51617, .bytes (Record.writeAll [textRecord 2 "", ⟨1, .varint 7⟩])⟩]

theorem wellEncoded_dividedOption : Override.WellEncoded dividedOption dividedRecords 1 := by
  have hfront : Encodes ShortLength (Record.writeAll [boolRecord 2 true, ⟨51617, .varint 5⟩,
      ⟨51617, .bytes (Override.payload [(.external, "Id")])⟩]) _ 0 :=
    encodes_writeAll_of_fits (by decide +kernel)
  have hinside : Encodes ShortLength (Record.writeAll [⟨51617, .bytes [0xff]⟩]) _ 0 :=
    encodes_writeAll_of_fits (by decide +kernel)
  have hgroup := @Encodes.group _ _ _ 100 _ hinside (by decide) (by decide)
  have hback : Encodes ShortLength (Record.writeAll
      [⟨51617, .bytes (Record.writeAll [textRecord 2 "", ⟨1, .varint 7⟩])⟩]) _ 0 :=
    encodes_writeAll_of_fits (by decide +kernel)
  have hpayloads : payloads Override.optionNumber dividedRecords =
      [Record.writeAll [textRecord 1 "Id"], Record.writeAll [textRecord 2 "", ⟨1, .varint 7⟩]] := rfl
  refine ⟨(hfront.append hgroup).append hback, ?_⟩
  rw [hpayloads, List.forall_mem_cons, List.forall_mem_singleton]
  refine ⟨⟨_, 0, encodes_writeAll_of_fits (by decide +kernel), ?_⟩,
    ⟨_, 0, encodes_writeAll_of_fits (by decide +kernel), ?_⟩⟩
  · rw [List.forall_mem_singleton]
    exact fun _ => ⟨"Id", rfl⟩
  · rw [List.forall_mem_cons, List.forall_mem_singleton]
    exact ⟨fun _ => ⟨"", rfl⟩, fun hsets => absurd hsets (by decide)⟩

/-- The second piece is heard, and an empty text is a text. -/
theorem option_decoded_divided :
    Override.WellEncoded dividedOption dividedRecords 1 ∧
      Override.readOptions dividedOption = some (some { typedef := some (.text "") }) := by
  refine ⟨wellEncoded_dividedOption, ?_⟩
  obtain ⟨inner, innerDepth, hinner, -, hread⟩ := option_decoded wellEncoded_dividedOption
  have hflatten : (payloads Override.optionNumber dividedRecords).flatten =
      Record.writeAll [textRecord 1 "Id", textRecord 2 "", ⟨1, .varint 7⟩] := by
    decide +kernel
  have hwhole : Encodes ShortLength
      (Record.writeAll [textRecord 1 "Id", textRecord 2 "", ⟨1, .varint 7⟩]) _ 0 :=
    encodes_writeAll_of_fits (by decide +kernel)
  rw [hflatten] at hinner
  obtain ⟨rfl, rfl⟩ := hinner.unique (fun _ _ hlength => hlength.1) hwhole
  obtain ⟨-, htells, -, -⟩ := hread (by decide) (by decide)
  refine (htells _).2 ⟨⟨dividedRecords[2], by decide +kernel, rfl, rfl⟩, ?_⟩
  exact .typedef (List.singleton_append : [textRecord 1 "Id"] ++ _ = _).symm (by decide)

/-- Groups inside each other, with nothing in the innermost. -/
def nestedGroups : Nat → Bytes
  | 0 => []
  | depth + 1 => Varint.write 67 ++ (nestedGroups depth ++ Varint.write 68)

theorem encodes_nestedGroups (depth : Nat) :
    Encodes ShortLength (nestedGroups depth) [] depth := by
  induction depth with
  | zero => exact .nil
  | succ depth ih => exact @Encodes.group _ _ _ 8 _ ih (by decide) (by decide)

/-- An override that sets a member behind a hundred groups inside each other. -/
def nestedOverride : Bytes :=
  nestedGroups 100 ++ Record.writeAll [textRecord 2 "T"]

/-- Options with a single occurrence of the override are well encoded, and the
occurrence says which name to use, but it is not read: its groups nest one
level too deep. -/
theorem nested_option_refused :
    Override.WellEncoded (Record.writeAll [⟨51617, .bytes nestedOverride⟩])
        [⟨51617, .bytes nestedOverride⟩] 0 ∧
      Encodes ShortLength nestedOverride [textRecord 2 "T"] 100 ∧
      Override.Tells [textRecord 2 "T"] { typedef := some (.text "T") } ∧
      Override.readOptions (Record.writeAll [⟨51617, .bytes nestedOverride⟩]) = none := by
  have hinner : Encodes ShortLength nestedOverride [textRecord 2 "T"] 100 :=
    (encodes_nestedGroups 100).append (encodes_writeAll_of_fits (by decide +kernel))
  have hpayloads : payloads Override.optionNumber [⟨51617, .bytes nestedOverride⟩] =
      [nestedOverride] := rfl
  have hencoded : Override.WellEncoded (Record.writeAll [⟨51617, .bytes nestedOverride⟩])
      [⟨51617, .bytes nestedOverride⟩] 0 := by
    refine ⟨encodes_writeAll_of_fits (by decide +kernel), ?_⟩
    rw [hpayloads, List.forall_mem_singleton]
    refine ⟨_, 100, hinner, ?_⟩
    rw [List.forall_mem_singleton]
    exact fun _ => ⟨"T", rfl⟩
  refine ⟨hencoded, hinner, .typedef (List.nil_append _).symm (by decide), ?_⟩
  obtain ⟨inner, innerDepth, hwhole, -, hread⟩ := hencoded.readOptions_eq
  rw [hpayloads, List.flatten_singleton] at hwhole
  obtain ⟨-, rfl⟩ := hwhole.unique (fun _ _ hlength => hlength.1) hinner
  rw [hread]
  rfl

end OdinSchema
