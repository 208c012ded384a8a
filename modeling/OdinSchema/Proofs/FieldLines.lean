import OdinSchema.Proofs.SourceReading

/-!
# Field lines tell their fields

The line of a field is read by an encoder, which has nothing else to go by:
the name and the type of the field, and a tag of keys with values in quotes.
Which keys there are depends on the field, numbers may have a sign and any
length, and the name and the type are free texts. `readFieldLine?` takes a
line apart at its spaces and looks the keys up. It gets back what was written
(`Field.readFieldLine?_declaration`), as long as the name and the type have no
spaces of their own, so a line cannot be that of two different fields. A name
that is no text is written as quoted bytes, with escapes of different lengths,
and these are told apart too (`Text.quoteBytes_injective`).
-/

namespace OdinSchema

/-- What the line of a field tells. -/
structure FieldLine where
  name : String
  type : String
  number : Int
  code : TypeCode
  /-- Whether values are packed, if they can be. -/
  packed? : Option Bool
  /-- The type codes of key and value, if the field is a map. -/
  entryCodes? : Option (TypeCode × TypeCode)
  deriving DecidableEq, Repr

/-- The type codes of the key and the value of a map. -/
def Field.entryCodes? (f : Field) : Option (TypeCode × TypeCode) :=
  f.entry?.map fun entry => (entry.1.head.code, entry.2.head.code)

/-- What the line of a field is to tell. -/
def Field.told (scope : Scope) (f : Field) : FieldLine where
  name := f.head.name.shown
  type := f.spelling scope
  number := f.head.number
  code := f.head.code
  packed? := if f.head.packable then some f.head.packed else none
  entryCodes? := f.entryCodes?

/-! ## Reading -/

/-- A key and its value. The value stands in quotes behind a colon. -/
def readTagEntry (word : List Char) : String × List Char :=
  (.ofList (word.takeWhile (· ≠ ':')), ((word.dropWhile (· ≠ ':')).drop 2).dropLast)

/-- What a tag tells, beside the name and the type in front of it. -/
def readTag? (name type : List Char) (tag : List (String × List Char)) : Option FieldLine := do
  let number ← tag.lookup "id"
  let code ← tag.lookup "type"
  return {
    name := .ofList name
    type := .ofList type
    number := readInt number
    code := readInt code
    packed? := (tag.lookup "packed").map fun value => value = "true".toList
    entryCodes? := do
      let key ← tag.lookup "key_type"
      let value ← tag.lookup "value_type"
      return (readInt key, readInt value) }

/-- What the line of a field tells. Two characters behind the tag and one in
front of it are quotes and a comma. -/
def readFieldLine? (line : String) : Option FieldLine :=
  match line.toList.dropLast.dropLast.splitOn ' ' with
  | name :: _ :: type :: first :: rest => readTag? name type ((first.tail :: rest).map readTagEntry)
  | _ => none

/-! ## Tags -/

namespace Field

/-- The keys of a tag, each with the text of its value. -/
def tagPairs (f : Field) : List (String × String) :=
  [("id", toString f.head.number), ("type", toString f.head.code)] ++
    (if f.head.packable then [("packed", if f.head.packed then "true" else "false")] else []) ++
    match f.entry? with
    | some (key, value) =>
      [("key_type", toString key.head.code), ("value_type", toString value.head.code)]
    | none => []

variable {f : Field}

theorem tagEntries_eq (f : Field) : f.tagEntries = f.tagPairs.map fun p => tagEntry p.1 p.2 := by
  unfold tagEntries tagPairs
  cases f.head.packable <;> cases f.entry? <;> rfl

/-- Two keys are in every tag, one is there for packable fields, and two are
for maps. A value is a number or a truth value. -/
theorem of_mem_tagPairs {p : String × String} (h : p ∈ f.tagPairs) :
    (p.1 ∈ ["id", "type"] ∨ (f.head.packable = true ∧ p.1 = "packed") ∨
      (f.entry? ≠ none ∧ p.1 ∈ ["key_type", "value_type"])) ∧
    ((∃ n : Int, p.2 = toString n) ∨ p.2 ∈ ["true", "false"]) := by
  rw [tagPairs, List.mem_append, List.mem_append] at h
  rcases h with (h | h) | h
  · simp only [List.mem_cons, List.not_mem_nil, or_false] at h
    rcases h with rfl | rfl
    · exact ⟨.inl List.mem_cons_self, .inl ⟨_, rfl⟩⟩
    · exact ⟨.inl (List.mem_cons_of_mem _ List.mem_cons_self), .inl ⟨_, rfl⟩⟩
  · split at h
    · rename_i hpackable
      rw [List.mem_singleton.1 h]
      refine ⟨.inr (.inl ⟨hpackable, rfl⟩), .inr ?_⟩
      cases f.head.packed <;> decide
    · cases h
  · split at h
    · rename_i hentry
      have hmap : f.entry? ≠ none := by
        rw [hentry]
        exact Option.some_ne_none _
      simp only [List.mem_cons, List.not_mem_nil, or_false] at h
      rcases h with rfl | rfl
      · exact ⟨.inr (.inr ⟨hmap, List.mem_cons_self⟩), .inl ⟨_, rfl⟩⟩
      · exact ⟨.inr (.inr ⟨hmap, List.mem_cons_of_mem _ List.mem_cons_self⟩), .inl ⟨_, rfl⟩⟩
    · cases h

/-- The characters of a value are digits, a sign or letters of the truth
values. -/
theorem mem_value_of_mem_tagPairs {p : String × String} (h : p ∈ f.tagPairs) {c : Char}
    (hc : c ∈ p.2.toList) : c = '-' ∨ c.isDigit = true ∨ c ∈ "truefalse".toList := by
  rcases (of_mem_tagPairs h).2 with ⟨n, hn⟩ | htruth
  · rw [hn] at hc
    exact (isDigit_of_mem_toString hc).imp_right .inl
  · simp only [List.mem_cons, List.not_mem_nil, or_false] at htruth
    rcases htruth with htrue | hfalse
    · rw [htrue] at hc
      exact .inr (.inr (List.mem_append_left "false".toList hc))
    · rw [hfalse] at hc
      exact .inr (.inr (List.mem_append_right "true".toList hc))

theorem key_mem_of_mem_tagPairs {p : String × String} (h : p ∈ f.tagPairs) :
    p.1 ∈ ["id", "type", "packed", "key_type", "value_type"] := by
  rcases (of_mem_tagPairs h).1 with hkey | ⟨-, hkey⟩ | ⟨-, hkey⟩
  · exact List.mem_append_left _ hkey
  · rw [hkey]
    decide
  · exact List.mem_append_right ["id", "type", "packed"] hkey

/-- An entry of a tag is one word. -/
theorem no_space_tagEntry {p : String × String} (h : p ∈ f.tagPairs) :
    ' ' ∉ (tagEntry p.1 p.2).toList := by
  have hkeys : ∀ key ∈ ["id", "type", "packed", "key_type", "value_type"], ' ' ∉ key.toList := by
    decide
  simp only [tagEntry, String.toList_append, List.mem_append, not_or]
  refine ⟨⟨⟨hkeys _ (key_mem_of_mem_tagPairs h), by decide⟩, fun hspace => ?_⟩, by decide⟩
  exact absurd (mem_value_of_mem_tagPairs h hspace) (by decide)

/-- And it is read as its key and its value. -/
theorem readTagEntry_tagEntry {p : String × String} (h : p ∈ f.tagPairs) :
    readTagEntry (tagEntry p.1 p.2).toList = (p.1, p.2.toList) := by
  have hkeys : ∀ key ∈ ["id", "type", "packed", "key_type", "value_type"],
      key.toList.all (· ≠ ':') = true := by
    decide
  have hkey := List.all_eq_true.1 (hkeys _ (key_mem_of_mem_tagPairs h))
  obtain ⟨htake, hdrop⟩ := takeWhile_dropWhile_append ('"' :: (p.2.toList ++ ['"'])) hkey
    (a := ':') (by decide)
  have hentry : (tagEntry p.1 p.2).toList = p.1.toList ++ ':' :: '"' :: (p.2.toList ++ ['"']) := by
    simp [tagEntry]
  rw [readTagEntry, hentry, htake, hdrop, String.ofList_toList]
  simp

/-- A tag tells what its keys stand for. -/
theorem readTag?_tagPairs (scope : Scope) (f : Field) :
    readTag? f.head.name.shown.toList (f.spelling scope).toList
      (f.tagPairs.map fun p => (p.1, p.2.toList)) = some (f.told scope) := by
  have hid : (f.tagPairs.map fun p => (p.1, p.2.toList)).lookup "id" =
      some (toString f.head.number).toList := by
    rfl
  have hcode : (f.tagPairs.map fun p => (p.1, p.2.toList)).lookup "type" =
      some (toString f.head.code).toList := by
    rfl
  have hpacked : ((f.tagPairs.map fun p => (p.1, p.2.toList)).lookup "packed").map
      (fun value => decide (value = "true".toList)) = (f.told scope).packed? := by
    unfold tagPairs told
    cases f.head.packable <;> cases f.head.packed <;> cases f.entry? <;> rfl
  have hkey : (f.tagPairs.map fun p => (p.1, p.2.toList)).lookup "key_type" =
      f.entry?.map fun entry => (toString entry.1.head.code).toList := by
    unfold tagPairs
    cases f.head.packable <;> cases f.entry? <;> rfl
  have hvalue : (f.tagPairs.map fun p => (p.1, p.2.toList)).lookup "value_type" =
      f.entry?.map fun entry => (toString entry.2.head.code).toList := by
    unfold tagPairs
    cases f.head.packable <;> cases f.entry? <;> rfl
  rw [readTag?, hid, hcode, hpacked, hkey, hvalue]
  cases hentry : f.entry? <;>
    simp only [told, entryCodes?, hentry, readInt_toString, String.ofList_toList, Option.map_none,
      Option.map_some, Option.bind_eq_bind, Option.bind_some, Option.bind_none, Option.pure_def]

/-! ## Lines -/

/-- A line without its end is its name, a colon, its type and the entries of
its tag, with spaces between them. -/
theorem toList_declaration (scope : Scope) (f : Field) {first : String} {rest : List String}
    (hentries : f.tagEntries = first :: rest) :
    (f.declaration scope).toList.dropLast.dropLast = [' '].intercalate
      (f.head.name.shown.toList :: ":".toList :: (f.spelling scope).toList ::
        ("`" ++ first).toList :: rest.map String.toList) := by
  have hline : (f.declaration scope).toList = f.head.name.shown.toList ++ [' '] ++
      (":".toList ++ [' '] ++ ((f.spelling scope).toList ++ [' '] ++
        ("`".toList ++ f.tag.toList))) ++ "`,".toList := by
    simp [declaration]
  have hend : ∀ line : List Char, (line ++ "`,".toList).dropLast.dropLast = line := by
    intro line
    simp
  have htag : "`".toList ++ f.tag.toList =
      [' '].intercalate (("`" ++ first).toList :: rest.map String.toList) := by
    have hspace : " ".toList = [' '] := rfl
    rw [tag, hentries, String.toList_intercalate, hspace, String.toList_append]
    cases rest with
    | nil => simp
    | cons next rest => simp
  rw [hline, hend, htag, List.intercalate_cons_cons, List.intercalate_cons_cons,
    List.intercalate_cons_cons]

/-- **A field is told by its line**, if its name and its type have no
spaces. -/
theorem readFieldLine?_declaration {scope : Scope} (hname : ' ' ∉ f.head.name.shown.toList)
    (htype : ' ' ∉ (f.spelling scope).toList) :
    readFieldLine? (f.declaration scope) = some (f.told scope) := by
  obtain ⟨rest, hpairs⟩ : ∃ rest, f.tagPairs = ("id", toString f.head.number) :: rest := ⟨_, rfl⟩
  have hentries : f.tagEntries = tagEntry "id" (toString f.head.number) ::
      rest.map fun p => tagEntry p.1 p.2 := by
    rw [tagEntries_eq, hpairs, List.map_cons]
  have hsplit : (f.declaration scope).toList.dropLast.dropLast.splitOn ' ' =
      f.head.name.shown.toList :: ":".toList :: (f.spelling scope).toList ::
        ("`" ++ tagEntry "id" (toString f.head.number)).toList ::
          (rest.map fun p => tagEntry p.1 p.2).map String.toList := by
    rw [toList_declaration scope f hentries]
    refine List.splitOn_intercalate ' ' ?_ (List.cons_ne_nil _ _)
    have hfirst := no_space_tagEntry (hpairs ▸ List.mem_cons_self)
    have hrest : ∀ word ∈ (rest.map fun p => tagEntry p.1 p.2).map String.toList, ' ' ∉ word := by
      simp only [List.mem_map, forall_exists_index, and_imp]
      rintro _ _ p hp rfl rfl
      exact no_space_tagEntry (hpairs ▸ List.mem_cons_of_mem _ hp)
    have htick : ' ' ∉ ("`" ++ tagEntry "id" (toString f.head.number)).toList := by
      rw [String.toList_append, List.mem_append, not_or]
      exact ⟨by decide, hfirst⟩
    exact List.forall_mem_cons.2 ⟨hname, List.forall_mem_cons.2 ⟨by decide,
      List.forall_mem_cons.2 ⟨htype, List.forall_mem_cons.2 ⟨htick, hrest⟩⟩⟩⟩
  have htag : (("`" ++ tagEntry "id" (toString f.head.number)).toList.tail ::
      (rest.map fun p => tagEntry p.1 p.2).map String.toList).map readTagEntry =
        f.tagPairs.map fun p => (p.1, p.2.toList) := by
    have htail : ("`" ++ tagEntry "id" (toString f.head.number)).toList.tail =
        (tagEntry "id" (toString f.head.number)).toList := by
      rw [String.toList_append]
      rfl
    calc _ = (f.tagPairs.map fun p => tagEntry p.1 p.2).map (readTagEntry ·.toList) := by
          rw [htail, hpairs]
          simp only [List.map_cons, List.map_map, Function.comp_def]
      _ = _ := by
          rw [List.map_map]
          exact List.map_congr_left fun p hp => readTagEntry_tagEntry hp
  rw [readFieldLine?, hsplit]
  simp only [htag]
  exact readTag?_tagPairs scope f

end Field

/-! ## Names -/

namespace Text

theorem eq_of_hexDigits_eq {c d : Char} (hc : c.toNat < 256) (hd : d.toNat < 256)
    (h : hexDigits 2 c.toNat = hexDigits 2 d.toNat) : c = d := by
  have hdigit : ∀ i < 16, ∀ j < 16, Nat.digitChar i = Nat.digitChar j → i = j := by
    decide
  simp only [hexDigits, List.nil_append, List.cons_append, List.cons.injEq, and_true] at h
  have hhigh := hdigit _ (Nat.mod_lt _ (by decide)) _ (Nat.mod_lt _ (by decide)) h.1
  have hlow := hdigit _ (Nat.mod_lt _ (by decide)) _ (Nat.mod_lt _ (by decide)) h.2
  have hnumber : c.toNat = d.toNat := by
    omega
  exact Char.toNat_inj.1 hnumber

/-- What a letter behind a backslash stands for, if it is not the `x` of a
code point. -/
def ofShortEscape : Char → Char
  | 't' => '\t'
  | 'n' => '\n'
  | 'r' => '\r'
  | c => c

/-- A character is written as it is, as a letter behind a backslash, or by its
code point behind a backslash and an `x`. -/
theorem escapeChar_cases {quote c : Char} (plain : Char → Bool)
    (hquote : quote ∉ ['t', 'n', 'r', 'x']) (hc : c.toNat < 256) :
    (escapeChar plain quote c = [c] ∧ c ≠ '\\') ∨
    (∃ letter, escapeChar plain quote c = ['\\', letter] ∧ letter ≠ 'x' ∧
      c = ofShortEscape letter) ∨
    escapeChar plain quote c = '\\' :: 'x' :: hexDigits 2 c.toNat := by
  unfold escapeChar
  split_ifs with hself htab hline hreturn hplain
  · refine .inr (.inl ⟨c, rfl, ?_, ?_⟩) <;> grind [ofShortEscape]
  · exact .inr (.inl ⟨'t', rfl, by decide, htab⟩)
  · exact .inr (.inl ⟨'n', rfl, by decide, hline⟩)
  · exact .inr (.inl ⟨'r', rfl, by decide, hreturn⟩)
  · exact .inl ⟨rfl, by grind⟩
  · exact .inr (.inr (by rw [escapeCode, if_pos hc]))

/-- No escape is the start of another one. -/
theorem escapeChar_append_inj {plain : Char → Bool} {quote c d : Char} {r s : List Char}
    (hquote : quote ∉ ['t', 'n', 'r', 'x']) (hc : c.toNat < 256) (hd : d.toNat < 256)
    (h : escapeChar plain quote c ++ r = escapeChar plain quote d ++ s) : c = d ∧ r = s := by
  have hhex := @eq_of_hexDigits_eq _ _ hc hd
  simp only [hexDigits, List.nil_append, List.cons_append] at hhex
  rcases escapeChar_cases plain hquote hc with
    ⟨hec, hcback⟩ | ⟨letter, hec, hletter, hcval⟩ | hec <;>
  rcases escapeChar_cases plain hquote hd with
    ⟨hed, hdback⟩ | ⟨other, hed, hother, hdval⟩ | hed <;>
    simp only [hec, hed, hexDigits, List.nil_append, List.cons_append, List.cons.injEq] at h <;>
    grind

theorem escapeChar_ne_nil {quote c : Char} (plain : Char → Bool)
    (hquote : quote ∉ ['t', 'n', 'r', 'x']) (hc : c.toNat < 256) :
    escapeChar plain quote c ≠ [] := by
  rcases escapeChar_cases plain hquote hc with ⟨h, -⟩ | ⟨_, h, -⟩ | h
  all_goals
    rw [h]
    exact List.cons_ne_nil _ _

theorem eq_of_flatMap_escapeChar_eq {plain : Char → Bool} {quote : Char}
    (hquote : quote ∉ ['t', 'n', 'r', 'x']) {given other : List Char}
    (hgiven : ∀ c ∈ given, c.toNat < 256) (hother : ∀ c ∈ other, c.toNat < 256)
    (h : given.flatMap (escapeChar plain quote) = other.flatMap (escapeChar plain quote)) :
    given = other := by
  induction given generalizing other with
  | nil =>
    cases other with
    | nil => rfl
    | cons d other =>
      rw [List.flatMap_cons] at h
      exact absurd (List.append_eq_nil_iff.1 h.symm).1
        (escapeChar_ne_nil plain hquote (hother d List.mem_cons_self))
  | cons c given ih =>
    cases other with
    | nil =>
      rw [List.flatMap_cons] at h
      exact absurd (List.append_eq_nil_iff.1 h).1
        (escapeChar_ne_nil plain hquote (hgiven c List.mem_cons_self))
    | cons d other =>
      rw [List.forall_mem_cons] at hgiven hother
      rw [List.flatMap_cons, List.flatMap_cons] at h
      obtain ⟨hhead, htail⟩ := escapeChar_append_inj hquote hgiven.1 hother.1 h
      rw [hhead, ih hgiven.2 hother.2 htail]

/-- The quotes are told by the first character, and nothing in between is
read in two ways. -/
theorem eq_of_quoteBy_eq {plain : Char → Bool} {given other : List Char}
    (hgiven : ∀ c ∈ given, c.toNat < 256) (hother : ∀ c ∈ other, c.toNat < 256)
    (h : quoteBy plain given = quoteBy plain other) : given = other := by
  simp only [quoteBy, List.cons_append, List.cons.injEq] at h
  obtain ⟨hquote, htext⟩ := h
  have hletter : quoteFor other ∉ ['t', 'n', 'r', 'x'] := by
    unfold quoteFor
    split_ifs <;> decide
  rw [hquote] at htext
  exact eq_of_flatMap_escapeChar_eq hletter hgiven hother (List.append_cancel_right htext)

/-- Bytes are told by how they are quoted. -/
theorem quoteBytes_injective : Function.Injective quoteBytes := by
  intro given other h
  have hnumber : ∀ byte : UInt8, (Char.ofNat byte.toNat).toNat = byte.toNat := by
    intro byte
    have hvalid : byte.toNat.isValidChar := .inl (Nat.lt_trans byte.toNat_lt (by decide))
    rw [Char.ofNat, dif_pos hvalid]
    rfl
  have hchars : ∀ bytes : List UInt8, ∀ c ∈ bytes.map fun byte => Char.ofNat byte.toNat,
      c.toNat < 256 := by
    intro bytes c hc
    obtain ⟨byte, -, rfl⟩ := List.mem_map.1 hc
    rw [hnumber]
    exact byte.toNat_lt
  have hquoted := List.cons.inj (String.ofList_injective h)
  have hmap := eq_of_quoteBy_eq (hchars given) (hchars other) hquoted.2
  refine List.map_injective_iff.2 (fun byte byte' hbyte => ?_) hmap
  rw [← UInt8.toNat_inj, ← hnumber, hbyte, hnumber]

end Text

/-- Names that look alike are the same, unless one is a text and the other is
not. -/
theorem Verbatim.eq_of_shown_eq {v w : Verbatim} (hsort : v.text?.isSome = w.text?.isSome)
    (h : v.shown = w.shown) : v = w := by
  cases v <;> cases w
  case text.text => exact congrArg text h
  case bytes.bytes => exact congrArg bytes (Text.quoteBytes_injective h)
  all_goals cases hsort

/-- **Field lines can be decoded.** A line is read back as what it tells of its
field, so two fields with one line have the same name and type, number and
type code, and are alike in whether they are packable, packed and maps, and in
the type codes of key and value. Nothing is assumed of the fields but that
names and types have no spaces; their files may differ. A text may look like
quoted bytes, so names are told apart as they are shown. -/
theorem field_line_tells_field {scope : Scope} {f : Field}
    (hname : ' ' ∉ f.head.name.shown.toList) (htype : ' ' ∉ (f.spelling scope).toList) :
    readFieldLine? (f.declaration scope) = some (f.told scope) ∧
    ∀ (scope' : Scope) (g : Field), ' ' ∉ g.head.name.shown.toList →
      ' ' ∉ (g.spelling scope').toList → g.declaration scope' = f.declaration scope →
        (g.head.name.shown = f.head.name.shown ∧
          (g.head.name.text?.isSome = f.head.name.text?.isSome → g.head.name = f.head.name)) ∧
        g.spelling scope' = f.spelling scope ∧
        g.head.number = f.head.number ∧ g.head.code = f.head.code ∧
        g.head.packable = f.head.packable ∧
        (f.head.packable = true → g.head.packed = f.head.packed) ∧
        g.entry?.isSome = f.entry?.isSome ∧ g.entryCodes? = f.entryCodes? := by
  have hf := Field.readFieldLine?_declaration hname htype
  refine ⟨hf, fun scope' g hgname hgtype hline => ?_⟩
  have htold : g.told scope' = f.told scope := by
    have hg := Field.readFieldLine?_declaration hgname hgtype
    rw [hline, hf] at hg
    exact (Option.some.inj hg).symm
  obtain ⟨hshown, hspelling, hnumber, hcode, hpacked, hcodes⟩ := FieldLine.mk.inj htold
  have hentry : g.entry?.isSome = f.entry?.isSome := by
    have hsome := congrArg Option.isSome hcodes
    rwa [Field.entryCodes?, Field.entryCodes?, Option.isSome_map, Option.isSome_map] at hsome
  have hpackable : g.head.packable = f.head.packable := by
    have hisSome : ∀ x : FieldHead,
        (if x.packable then some x.packed else none).isSome = x.packable := by
      intro x
      cases x.packable <;> rfl
    rw [← hisSome, hpacked, hisSome]
  refine ⟨⟨hshown, (Verbatim.eq_of_shown_eq · hshown)⟩, hspelling, hnumber, hcode, hpackable,
    fun hf => ?_, hentry, hcodes⟩
  rw [hpackable, hf, if_pos rfl, if_pos rfl] at hpacked
  exact Option.some.inj hpacked

/-- A map to maps, seen from the package of its values. -/
def placesOf (package : String) : Field :=
  .map { name := .text "places", number := -7, code := TypeCode.message, kind := .map,
         cardinality := .repeated, location := some ⟨package.length, 0⟩ }
    (.single { name := .text "key", code := TypeCode.string })
    (.map { name := .text "value", number := 2, code := TypeCode.group, kind := .map }
      (.single { name := .text "key", code := 3 })
      (.single { name := .text "value", code := TypeCode.message, kind := .message,
                 typeName := some (package ++ ".Place") }))

/-- Two different fields of two packages with one line. -/
theorem field_line_tells_field_nested_maps :
    placesOf "geo" ≠ placesOf "a.b" ∧
    (placesOf "geo").declaration ⟨some "geo"⟩ =
      "places : map[string]map[i64]Place " ++
        "`id:\"-7\" type:\"11\" key_type:\"9\" value_type:\"10\"`," ∧
    readFieldLine? ((placesOf "geo").declaration ⟨some "geo"⟩) =
      some { name := "places", type := "map[string]map[i64]Place", number := -7, code := 11,
             packed? := none, entryCodes? := some (9, 10) } ∧
    (placesOf "a.b").declaration ⟨some "a.b"⟩ = (placesOf "geo").declaration ⟨some "geo"⟩ ∧
    (placesOf "a.b").head.name = (placesOf "geo").head.name ∧
    (placesOf "a.b").spelling ⟨some "a.b"⟩ = (placesOf "geo").spelling ⟨some "geo"⟩ := by
  have hline : (placesOf "a.b").declaration ⟨some "a.b"⟩ =
      (placesOf "geo").declaration ⟨some "geo"⟩ := by
    decide +kernel
  obtain ⟨htold, hall⟩ := @field_line_tells_field ⟨some "geo"⟩ (placesOf "geo") (by decide +kernel)
    (by decide +kernel)
  obtain ⟨hname, hspelling, -⟩ := hall ⟨some "a.b"⟩ (placesOf "a.b") (by decide +kernel)
    (by decide +kernel) hline
  exact ⟨by decide, by decide +kernel, htold.trans (by decide +kernel), hline, hname.2 rfl,
    hspelling⟩

end OdinSchema
