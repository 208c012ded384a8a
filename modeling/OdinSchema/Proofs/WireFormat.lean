import Mathlib.Algebra.Group.Nat.Defs
import OdinSchema.Wire.Content

/-!
# The wire format

What an encoded message is, said without a reader or a writer. Numbers have
many forms, groups hold what nobody looks at, and the length of a payload has
a limit for a reader but none for the format, so `Encodes` is a relation: it
ties bytes to the records outside their groups and to the depth at which the
groups nest, given the forms that lengths may have. A reader that has enough
levels gives these records, and one that has not gives nothing
(`Record.readAll_of_encodes`); what a writer makes of records encodes them
(`encodes_writeAll`); and bytes encode one message at most
(`Encodes.unique`).
-/

namespace OdinSchema

namespace Wire

/-! ## Numbers -/

namespace Varint

/-- Bytes that write a number, in the shortest form or a longer one. -/
inductive Encodes : Bytes → Nat → Prop where
  | last {byte : UInt8} (hbyte : byte.toNat < 128) : Encodes [byte] byte.toNat
  | more {byte : UInt8} {bytes : Bytes} {n : Nat} (hbyte : 128 ≤ byte.toNat)
      (hrest : Encodes bytes n) : Encodes (byte :: bytes) (byte.toNat - 128 + 128 * n)

variable {front other rest rest' : Bytes} {m n room : Nat}

/-- A number that has room is read, and what follows it is left. -/
theorem readWithin_append (h : Encodes front n) (hroom : front.length ≤ room) (rest : Bytes) :
    readWithin room (front ++ rest) = some (n, rest) := by
  induction h generalizing room with
  | last hbyte =>
    obtain ⟨room, rfl⟩ : ∃ k, room = k + 1 := ⟨room - 1, by simp at hroom; omega⟩
    rw [List.singleton_append, readWithin, if_pos hbyte]
  | more hbyte _ ih =>
    obtain ⟨room, rfl⟩ : ∃ k, room = k + 1 := ⟨room - 1, by simp at hroom; omega⟩
    have hread := ih (by simpa using hroom)
    rw [List.cons_append, readWithin, if_neg (by omega), hread]

/-- **No number begins another.** -/
theorem Encodes.unique (h : Encodes front m) (h' : Encodes other n)
    (heq : front ++ rest = other ++ rest') : m = n ∧ rest = rest' := by
  have hfront := readWithin_append h (Nat.le_max_left front.length other.length) rest
  have hother := readWithin_append h' (Nat.le_max_right front.length other.length) rest'
  rw [heq, hother] at hfront
  simpa [eq_comm] using hfront

theorem Encodes.ne_nil (h : Encodes front n) : front ≠ [] := by
  cases h <;> simp

/-- The shortest form of a number writes it. -/
theorem encodes_write (n : Nat) : Encodes (write n) n := by
  induction n using Nat.strongRecOn with
  | ind n ih =>
    rw [write]
    split
    · rename_i hsmall
      have hbyte : n.toUInt8.toNat = n := by simp; omega
      have hlast : Encodes [n.toUInt8] n.toUInt8.toNat := .last (by omega)
      rwa [hbyte] at hlast
    · rename_i hlarge
      have hbyte : (n % 128 + 128).toUInt8.toNat = n % 128 + 128 := by simp; omega
      have hhigh : 128 ≤ (n % 128 + 128).toUInt8.toNat := by omega
      have hmore := Encodes.more hhigh (ih (n / 128) (by omega))
      have hvalue : n % 128 + 128 - 128 + 128 * (n / 128) = n := by omega
      rwa [hbyte, hvalue] at hmore

/-- And takes a byte for every seven bits. -/
theorem length_write_le {n : Nat} (k : Nat) (h : n < 128 ^ (k + 1)) : (write n).length ≤ k + 1 := by
  induction k generalizing n with
  | zero =>
    rw [write, if_pos (by simpa using h)]
    simp
  | succ k ih =>
    rw [write]
    split
    · simp
    · have hhigh : n / 128 < 128 ^ (k + 1) := by
        rw [Nat.div_lt_iff_lt_mul (by decide), ← Nat.pow_succ]
        exact h
      have hlength := ih hhigh
      rw [List.length_cons]
      omega

end Varint

/-! ## The parts of a message -/

/-- The forms a length may have: which bytes stand for it. -/
abbrev LengthForm := Bytes → Nat → Prop

/-- Lengths as they are read: in five bytes at most, and in thirty-one bits. -/
def ShortLength : LengthForm := fun bytes n =>
  Varint.Encodes bytes n ∧ bytes.length ≤ 5 ∧ n < 0x80000000

/-- Bytes that are the tag of a number and a form. -/
structure TagEncodes (bytes : Bytes) (number form : Nat) : Prop where
  varint : Varint.Encodes bytes (8 * number + form)
  short : bytes.length ≤ 5
  fits : 8 * number + form < 0x100000000
  /-- Numbers count from one. -/
  positive : number ≠ 0

/-- Bytes that are a value. Of a varint the low sixty-four bits count. -/
inductive Value.Encodes (lengths : LengthForm) : Bytes → Value → Prop where
  | varint {bytes : Bytes} {n : Nat} (h : Varint.Encodes bytes n) (hshort : bytes.length ≤ 10) :
      Encodes lengths bytes (.varint (n % 0x10000000000000000))
  | fixed64 {bytes : Bytes} (h : bytes.length = 8) : Encodes lengths bytes (.fixed64 bytes)
  | bytes {front payload : Bytes} (h : lengths front payload.length) :
      Encodes lengths (front ++ payload) (.bytes payload)
  | fixed32 {bytes : Bytes} (h : bytes.length = 4) : Encodes lengths bytes (.fixed32 bytes)

namespace Token

/-- Bytes that are a token. -/
inductive Encodes (lengths : LengthForm) : Bytes → Token → Prop where
  | record {tag body : Bytes} {r : Record} (htag : TagEncodes tag r.number r.value.form)
      (hbody : r.value.Encodes lengths body) : Encodes lengths (tag ++ body) (.record r)
  | opening {tag : Bytes} {number : Nat} (htag : TagEncodes tag number 3) :
      Encodes lengths tag (.opening number)
  | closing {tag : Bytes} {number : Nat} (htag : TagEncodes tag number 4) :
      Encodes lengths tag (.closing number)

/-- Bytes that are tokens, one after the other. -/
inductive EncodesAll (lengths : LengthForm) : Bytes → List Token → Prop where
  | nil : EncodesAll lengths [] []
  | cons {front rest : Bytes} {token : Token} {tokens : List Token}
      (hfront : token.Encodes lengths front) (hrest : EncodesAll lengths rest tokens) :
      EncodesAll lengths (front ++ rest) (token :: tokens)

/-- Tokens in which every group that is opened is closed: the records outside
the groups, and how deep the groups nest. -/
inductive Nests : List Token → List Record → Nat → Prop where
  | nil : Nests [] [] 0
  | record {r : Record} {tokens : List Token} {records : List Record} {depth : Nat}
      (hnumber : r.number ≠ 0) (hrest : Nests tokens records depth) :
      Nests (.record r :: tokens) (r :: records) depth
  | group {number inner depth : Nat} {inside tokens : List Token} {skipped records : List Record}
      (hnumber : number ≠ 0) (hinside : Nests inside skipped inner)
      (hrest : Nests tokens records depth) :
      Nests (.opening number :: (inside ++ .closing number :: tokens)) records
        (max (inner + 1) depth)

end Token

/-- Bytes that are a message with these records outside its groups, which
nest so deep. -/
def Encodes (lengths : LengthForm) (bytes : Bytes) (records : List Record) (depth : Nat) : Prop :=
  ∃ tokens, Token.EncodesAll lengths bytes tokens ∧ Token.Nests tokens records depth

/-! ## Reading -/

variable {lengths : LengthForm} {front other rest rest' : Bytes}

theorem takeBytes_append (front rest : Bytes) :
    takeBytes front.length (front ++ rest) = some (front, rest) := by
  simp [takeBytes]

/-- A short number is read if it stays below the bound. -/
theorem Varint.readBelow_append {n bound : Nat} (h : Varint.Encodes front n)
    (hshort : front.length ≤ 5) (hbound : n < bound) (rest : Bytes) :
    Varint.readBelow bound (front ++ rest) = some (n, rest) := by
  rw [Varint.readBelow, Varint.readWithin_append h hshort]
  exact if_pos hbound

/-- A value is read by its form. -/
theorem Value.Encodes.readBody_append {v : Value} (h : v.Encodes ShortLength front) (number : Nat)
    (rest : Bytes) :
    Token.readBody number v.form (front ++ rest) = some (.record ⟨number, v⟩, rest) := by
  cases h with
  | varint h hshort =>
    simp only [Value.form, Token.readBody, Varint.read, Varint.readWithin_append h hshort]
  | fixed64 h =>
    have htake := takeBytes_append front rest
    rw [h] at htake
    simp only [Value.form, Token.readBody, htake]
  | @bytes front payload h =>
    obtain ⟨hlength, hshort, hbound⟩ := h
    rw [List.append_assoc]
    simp only [Value.form, Token.readBody, Varint.readBelow_append hlength hshort hbound,
      takeBytes_append]
  | fixed32 h =>
    have htake := takeBytes_append front rest
    rw [h] at htake
    simp only [Value.form, Token.readBody, htake]

theorem Value.form_lt (v : Value) : v.form < 8 := by
  cases v <;> simp [Value.form]

/-- No value has the form of an end of a group. -/
theorem Value.form_ne_group (v : Value) : v.form ≠ 3 ∧ v.form ≠ 4 := by
  cases v <;> simp [Value.form]

/-- A tag tells what follows it. -/
theorem TagEncodes.read_append {number form : Nat} (h : TagEncodes front number form)
    (hform : form < 8) (rest : Bytes) :
    Token.read (front ++ rest) = Token.readBody number form rest := by
  rw [Token.read, Varint.readBelow_append h.varint h.short h.fits]
  have hnumber : (8 * number + form) / 8 = number := by omega
  have hremainder : (8 * number + form) % 8 = form := by omega
  simp only [hnumber, hremainder]

namespace Token

variable {bytes : Bytes} {tokens : List Token} {records : List Record} {depth : Nat}

theorem Encodes.read_append {token : Token} (h : token.Encodes ShortLength front) (rest : Bytes) :
    Token.read (front ++ rest) = some (token, rest) := by
  cases h with
  | record htag hbody =>
    rw [List.append_assoc, htag.read_append (Value.form_lt _), hbody.readBody_append]
  | opening htag => exact htag.read_append (by decide) rest
  | closing htag => exact htag.read_append (by decide) rest

theorem Encodes.ne_nil {token : Token} (h : token.Encodes lengths front) : front ≠ [] := by
  cases h with
  | record htag _ => simp [htag.varint.ne_nil]
  | opening htag => exact htag.varint.ne_nil
  | closing htag => exact htag.varint.ne_nil

/-- Tokens are read one after the other. -/
theorem EncodesAll.readAll_eq (h : EncodesAll ShortLength bytes tokens) :
    Token.readAll bytes = some tokens := by
  induction h with
  | nil => rw [Token.readAll, if_pos rfl]
  | @cons front rest token tokens hfront _ ih =>
    have hread := hfront.read_append rest
    rw [Token.readAll, if_neg (by simp [hfront.ne_nil])]
    split
    · rename_i hnone
      rw [hread] at hnone
      cases hnone
    · rename_i token' rest' hsome
      rw [hread, Option.some.injEq, Prod.mk.injEq] at hsome
      obtain ⟨rfl, rfl⟩ := hsome
      rw [ih, Option.map_some]

/-- **Inside a group nothing is kept.** Tokens in front of others are passed
over if there are levels for them below those of the open groups. -/
theorem Nests.outside_inside (h : Nests tokens records depth) {levels innermost : Nat}
    {opened : List Nat} (hlevels : opened.length + 1 ≤ levels) (more : List Token) :
    Token.outside levels (innermost :: opened) (tokens ++ more) =
      if opened.length + 1 + depth ≤ levels then
        Token.outside levels (innermost :: opened) more
      else none := by
  -- a group inside opens one level more, so the induction is for every stack of open groups
  induction h generalizing innermost opened more with
  | nil => rw [List.nil_append, if_pos (by omega)]
  | record _ _ ih => rw [List.cons_append, Token.outside, ih hlevels]
  | @group number inner depth inside tokens skipped records _ _ _ ihinside ihrest =>
    rw [List.cons_append, List.append_assoc, List.cons_append, Token.outside]
    by_cases hopen : (innermost :: opened).length < levels
    · have hdeeper : (innermost :: opened).length + 1 ≤ levels := hopen
      rw [if_pos ⟨hopen, .inl (by simp)⟩, ihinside hdeeper]
      by_cases hinner : (innermost :: opened).length + 1 + inner ≤ levels
      · rw [if_pos hinner, Token.outside, if_pos rfl, ihrest hlevels]
        rw [List.length_cons] at hinner
        by_cases hdepth : opened.length + 1 + depth ≤ levels
        · rw [if_pos hdepth, if_pos (by omega)]
        · rw [if_neg hdepth, if_neg (by omega)]
      · rw [List.length_cons] at hinner
        rw [if_neg (by simpa using hinner), if_neg (by omega)]
    · rw [List.length_cons] at hopen
      rw [if_neg (fun hboth => hopen hboth.1), if_neg (by omega)]

/-- **Outside of groups every record is kept**, if there are levels for the
groups in between. -/
theorem Nests.outside_nil (h : Nests tokens records depth) (levels : Nat) (more : List Token) :
    Token.outside levels [] (tokens ++ more) =
      if depth ≤ levels then (Token.outside levels [] more).map (records ++ ·) else none := by
  induction h generalizing more with
  | nil => simp
  | record hnumber _ ih =>
    rw [List.cons_append, Token.outside, if_neg hnumber, ih]
    split
    · simp [Function.comp_def]
    · rfl
  | @group number inner depth inside tokens skipped records hnumber hinside _ _ ihrest =>
    rw [List.cons_append, List.append_assoc, List.cons_append, Token.outside]
    by_cases hopen : 0 < levels
    · rw [if_pos ⟨hopen, .inr hnumber⟩, hinside.outside_inside hopen]
      by_cases hinner : ([] : List Nat).length + 1 + inner ≤ levels
      · rw [if_pos hinner, Token.outside, if_pos rfl, ihrest]
        rw [List.length_nil] at hinner
        by_cases hdepth : depth ≤ levels
        · rw [if_pos hdepth, if_pos (by omega)]
        · rw [if_neg hdepth, if_neg (by omega)]
      · rw [List.length_nil] at hinner
        rw [if_neg (by simpa using hinner), if_neg (by omega)]
    · rw [if_neg (fun hboth => hopen (by simpa using hboth.1)), if_neg (by omega)]

/-- And so tokens that nest give their records, or nothing where levels are
missing. -/
theorem Nests.outside_eq (h : Nests tokens records depth) (levels : Nat) :
    Token.outside levels [] tokens = if depth ≤ levels then some records else none := by
  have houtside := h.outside_nil levels []
  rw [List.append_nil] at houtside
  rw [houtside]
  simp [Token.outside]

theorem Nests.append {tokens' : List Token} {records' : List Record} {depth' : Nat}
    (h : Nests tokens records depth) (h' : Nests tokens' records' depth') :
    Nests (tokens ++ tokens') (records ++ records') (max depth depth') := by
  induction h with
  | nil => simpa using h'
  | record hnumber _ ih => exact .record hnumber ih
  | group hnumber hinside _ _ ih =>
    have hgroup := Nests.group hnumber hinside ih
    rw [← Nat.max_assoc] at hgroup
    simpa using hgroup

theorem EncodesAll.append {bytes' : Bytes} {tokens' : List Token}
    (h : EncodesAll lengths bytes tokens) (h' : EncodesAll lengths bytes' tokens') :
    EncodesAll lengths (bytes ++ bytes') (tokens ++ tokens') := by
  induction h with
  | nil => exact h'
  | cons hfront _ ih =>
    rw [List.append_assoc, List.cons_append]
    exact .cons hfront ih

end Token

variable {bytes bytes' : Bytes} {records records' : List Record} {depth depth' : Nat}

/-- **A reader gives the records of a message**, unless its groups nest too
deep for the levels the reader has. -/
theorem Record.readAll_of_encodes (h : Encodes ShortLength bytes records depth) (levels : Nat) :
    Record.readAll levels bytes = if depth ≤ levels then some records else none := by
  obtain ⟨tokens, htokens, hnests⟩ := h
  rw [Record.readAll, htokens.readAll_eq, Option.bind_some, hnests.outside_eq]

namespace Encodes

theorem nil : Encodes lengths [] [] 0 :=
  ⟨[], .nil, .nil⟩

/-- Messages one after the other are one message. -/
theorem append (h : Encodes lengths bytes records depth)
    (h' : Encodes lengths bytes' records' depth') :
    Encodes lengths (bytes ++ bytes') (records ++ records') (max depth depth') := by
  obtain ⟨tokens, htokens, hnests⟩ := h
  obtain ⟨tokens', htokens', hnests'⟩ := h'
  exact ⟨tokens ++ tokens', htokens.append htokens', hnests.append hnests'⟩

end Encodes

/-- **A message may come in pieces**: pieces that are messages are one message
together, and to read them one by one is to read them as one. What holds of
the records of every piece holds of those of the whole. -/
theorem Record.mapM_readAll_of_encodes {pieces : List Bytes} {P : Record → Prop}
    (h : ∀ piece ∈ pieces, ∃ records depth,
      Encodes ShortLength piece records depth ∧ ∀ r ∈ records, P r) :
    ∃ records depth, Encodes ShortLength pieces.flatten records depth ∧ (∀ r ∈ records, P r) ∧
      ∀ levels, (pieces.mapM (Record.readAll levels)).map List.flatten =
        if depth ≤ levels then some records else none := by
  induction pieces with
  | nil => exact ⟨[], 0, .nil, by simp, fun levels => by simp⟩
  | cons piece pieces ih =>
    obtain ⟨⟨first, depth, hfirst, hP⟩, hpieces⟩ := List.forall_mem_cons.1 h
    obtain ⟨others, depth', hothers, hP', hread⟩ := ih hpieces
    refine ⟨first ++ others, max depth depth', hfirst.append hothers,
      List.forall_mem_append.2 ⟨hP, hP'⟩, fun levels => ?_⟩
    have hrest := hread levels
    rw [List.mapM_cons, Record.readAll_of_encodes hfirst]
    by_cases hdepth : depth ≤ levels
    · rw [if_pos hdepth]
      by_cases hdepth' : depth' ≤ levels
      · rw [if_pos hdepth', Option.map_eq_some_iff] at hrest
        obtain ⟨lists, hlists, hflatten⟩ := hrest
        rw [if_pos (by omega), hlists, ← hflatten]
        rfl
      · rw [if_neg hdepth', Option.map_eq_none_iff] at hrest
        rw [if_neg (by omega), hrest]
        rfl
    · rw [if_neg hdepth, if_neg (by omega)]
      rfl

/-! ## Writing -/

/-- Values that a writer gives a form to. -/
def Value.Writable (lengths : LengthForm) : Value → Prop
  | .varint n => n < 0x10000000000000000
  | .fixed64 fixed => fixed.length = 8
  | .bytes payload => lengths (Varint.write payload.length) payload.length
  | .fixed32 fixed => fixed.length = 4

/-- Records that a writer gives a form to. -/
structure Record.Writable (lengths : LengthForm) (r : Record) : Prop where
  positive : r.number ≠ 0
  small : r.number < 0x20000000
  value : r.value.Writable lengths

theorem tagEncodes_write {number form : Nat} (hpositive : number ≠ 0)
    (hsmall : number < 0x20000000) (hform : form < 8) :
    TagEncodes (Varint.write (8 * number + form)) number form := by
  refine ⟨Varint.encodes_write _, ?_, by omega, hpositive⟩
  exact Varint.length_write_le 4 (by omega)

theorem Value.Writable.encodes {v : Value} (h : v.Writable lengths) :
    v.Encodes lengths v.write := by
  cases v with
  | varint n =>
    have hn : n < 0x10000000000000000 := h
    have hencodes : Value.Encodes lengths (Varint.write n) (.varint (n % 0x10000000000000000)) :=
      .varint (Varint.encodes_write n) (Varint.length_write_le 9 (by omega))
    rwa [Nat.mod_eq_of_lt hn] at hencodes
  | fixed64 fixed => exact .fixed64 h
  | bytes payload => exact .bytes h
  | fixed32 fixed => exact .fixed32 h

/-- A group around a message is a message without records, one level deeper. -/
theorem Encodes.group {inside : Bytes} {skipped : List Record} {number inner : Nat}
    (h : Encodes lengths inside skipped inner) (hpositive : number ≠ 0)
    (hsmall : number < 0x20000000) :
    Encodes lengths
      (Varint.write (8 * number + 3) ++ (inside ++ Varint.write (8 * number + 4))) []
      (inner + 1) := by
  obtain ⟨tokens, htokens, hnests⟩ := h
  have hopening := tagEncodes_write hpositive hsmall (by decide : 3 < 8)
  have hclosing := tagEncodes_write hpositive hsmall (by decide : 4 < 8)
  have hend : Token.EncodesAll lengths (Varint.write (8 * number + 4)) [.closing number] := by
    simpa using Token.EncodesAll.cons (.closing hclosing) .nil
  exact ⟨_, .cons (.opening hopening) (htokens.append hend), .group hpositive hnests .nil⟩

/-- **What is written of records encodes them.** -/
theorem encodes_writeAll (h : ∀ r ∈ records, r.Writable lengths) :
    Encodes lengths (Record.writeAll records) records 0 := by
  induction records with
  | nil => exact .nil
  | cons r records ih =>
    obtain ⟨hr, hrecords⟩ := List.forall_mem_cons.1 h
    obtain ⟨tokens, htokens, hnests⟩ := ih hrecords
    have htag := tagEncodes_write hr.positive hr.small r.value.form_lt
    exact ⟨.record r :: tokens, .cons (.record htag hr.value.encodes) htokens,
      .record hr.positive hnests⟩

/-- A length in thirty-one bits is written so that it can be read. -/
theorem shortLength_write {n : Nat} (h : n < 0x80000000) : ShortLength (Varint.write n) n :=
  ⟨Varint.encodes_write n, Varint.length_write_le 4 (by omega), h⟩

/-- Records that can be read once they are written. -/
def Record.Fits (r : Record) : Prop :=
  r.number ≠ 0 ∧ r.number < 0x20000000 ∧
    match r.value with
    | .varint n => n < 0x10000000000000000
    | .fixed64 fixed => fixed.length = 8
    | .bytes payload => payload.length < 0x80000000
    | .fixed32 fixed => fixed.length = 4

instance : DecidablePred Record.Fits := fun ⟨number, value⟩ =>
  match value with
  | .varint n => inferInstanceAs (Decidable (number ≠ 0 ∧ number < _ ∧ n < _))
  | .fixed64 fixed => inferInstanceAs (Decidable (number ≠ 0 ∧ number < _ ∧ fixed.length = _))
  | .bytes payload => inferInstanceAs (Decidable (number ≠ 0 ∧ number < _ ∧ payload.length < _))
  | .fixed32 fixed => inferInstanceAs (Decidable (number ≠ 0 ∧ number < _ ∧ fixed.length = _))

theorem Record.Fits.writable {r : Record} (h : r.Fits) : r.Writable ShortLength := by
  obtain ⟨number, value⟩ := r
  obtain ⟨hpositive, hsmall, hvalue⟩ := h
  refine ⟨hpositive, hsmall, ?_⟩
  cases value with
  | varint n => exact hvalue
  | fixed64 fixed => exact hvalue
  | bytes payload => exact shortLength_write hvalue
  | fixed32 fixed => exact hvalue

/-- And so records that fit are read back. -/
theorem encodes_writeAll_of_fits (h : ∀ r ∈ records, r.Fits) :
    Encodes ShortLength (Record.writeAll records) records 0 :=
  encodes_writeAll fun r hr => (h r hr).writable

/-! ## One reading -/

/-- No tag begins another. -/
theorem TagEncodes.unique {number number' form form' : Nat} (h : TagEncodes front number form)
    (h' : TagEncodes other number' form') (hform : form < 8) (hform' : form' < 8)
    (heq : front ++ rest = other ++ rest') : number = number' ∧ form = form' ∧ rest = rest' := by
  obtain ⟨htag, hrest⟩ := h.varint.unique h'.varint heq
  exact ⟨by omega, by omega, hrest⟩

section

variable (hlengths : ∀ bytes n, lengths bytes n → Varint.Encodes bytes n)

include hlengths

/-- No value begins another of its form. -/
theorem Value.Encodes.unique {v w : Value} (h : v.Encodes lengths front)
    (h' : w.Encodes lengths other) (hform : v.form = w.form)
    (heq : front ++ rest = other ++ rest') : v = w ∧ rest = rest' := by
  cases h with
  | varint h _ =>
    cases h' with
    | varint h' _ =>
      obtain ⟨rfl, hrest⟩ := h.unique h' heq
      exact ⟨rfl, hrest⟩
    | fixed64 _ | bytes _ | fixed32 _ => cases hform
  | fixed64 h =>
    cases h' with
    | fixed64 h' =>
      obtain ⟨rfl, hrest⟩ := List.append_inj heq (h.trans h'.symm)
      exact ⟨rfl, hrest⟩
    | varint _ _ | bytes _ | fixed32 _ => cases hform
  | bytes h =>
    cases h' with
    | bytes h' =>
      rw [List.append_assoc, List.append_assoc] at heq
      obtain ⟨hlength, hpayload⟩ := (hlengths _ _ h).unique (hlengths _ _ h') heq
      obtain ⟨rfl, hrest⟩ := List.append_inj hpayload hlength
      exact ⟨rfl, hrest⟩
    | varint _ _ | fixed64 _ | fixed32 _ => cases hform
  | fixed32 h =>
    cases h' with
    | fixed32 h' =>
      obtain ⟨rfl, hrest⟩ := List.append_inj heq (h.trans h'.symm)
      exact ⟨rfl, hrest⟩
    | varint _ _ | fixed64 _ | bytes _ => cases hform

/-- No token begins another. -/
theorem Token.Encodes.unique {token token' : Token} (h : token.Encodes lengths front)
    (h' : token'.Encodes lengths other) (heq : front ++ rest = other ++ rest') :
    token = token' ∧ rest = rest' := by
  cases h with
  | @record _ _ r htag hbody =>
    obtain ⟨number, value⟩ := r
    rw [List.append_assoc] at heq
    cases h' with
    | @record _ _ r' htag' hbody' =>
      obtain ⟨number', value'⟩ := r'
      rw [List.append_assoc] at heq
      obtain ⟨hnumber, hform, heq⟩ := htag.unique htag' value.form_lt value'.form_lt heq
      obtain ⟨hvalue, hrest⟩ := hbody.unique hlengths hbody' hform heq
      cases hnumber
      cases hvalue
      exact ⟨rfl, hrest⟩
    | opening htag' =>
      have hform := (htag.unique htag' value.form_lt (by decide) heq).2.1
      exact absurd hform value.form_ne_group.1
    | closing htag' =>
      have hform := (htag.unique htag' value.form_lt (by decide) heq).2.1
      exact absurd hform value.form_ne_group.2
  | opening htag =>
    cases h' with
    | @record _ _ r htag' _ =>
      rw [List.append_assoc] at heq
      have hform := (htag.unique htag' (by decide) r.value.form_lt heq).2.1
      exact absurd hform.symm r.value.form_ne_group.1
    | opening htag' =>
      obtain ⟨rfl, -, hrest⟩ := htag.unique htag' (by decide) (by decide) heq
      exact ⟨rfl, hrest⟩
    | closing htag' => cases (htag.unique htag' (by decide) (by decide) heq).2.1
  | closing htag =>
    cases h' with
    | @record _ _ r htag' _ =>
      rw [List.append_assoc] at heq
      have hform := (htag.unique htag' (by decide) r.value.form_lt heq).2.1
      exact absurd hform.symm r.value.form_ne_group.2
    | opening htag' => cases (htag.unique htag' (by decide) (by decide) heq).2.1
    | closing htag' =>
      obtain ⟨rfl, -, hrest⟩ := htag.unique htag' (by decide) (by decide) heq
      exact ⟨rfl, hrest⟩

/-- Bytes are cut into tokens in one way. -/
theorem Token.EncodesAll.unique {tokens tokens' : List Token}
    (h : Token.EncodesAll lengths bytes tokens) (h' : Token.EncodesAll lengths bytes' tokens')
    (heq : bytes = bytes') : tokens = tokens' := by
  induction h generalizing bytes' tokens' with
  | nil =>
    cases h' with
    | nil => rfl
    | cons hfront _ => exact absurd heq.symm (by simp [hfront.ne_nil])
  | cons hfront _ ih =>
    cases h' with
    | nil => exact absurd heq (by simp [hfront.ne_nil])
    | cons hfront' hrest' =>
      obtain ⟨rfl, hrest⟩ := hfront.unique hlengths hfront' heq
      rw [ih hrest' hrest]

/-- **Bytes encode one message**: the records outside the groups and the depth
of the groups are settled. -/
theorem Encodes.unique (h : Encodes lengths bytes records depth)
    (h' : Encodes lengths bytes records' depth') : records = records' ∧ depth = depth' := by
  obtain ⟨tokens, htokens, hnests⟩ := h
  obtain ⟨tokens', htokens', hnests'⟩ := h'
  obtain rfl := htokens.unique hlengths htokens' rfl
  -- whatever levels there are, the tokens give both lists or none
  have hlevels : ∀ levels, (if depth ≤ levels then some records else none) =
      if depth' ≤ levels then some records' else none := by
    intro levels
    rw [← hnests.outside_eq, hnests'.outside_eq]
  have hfirst := hlevels depth
  have hsecond := hlevels depth'
  rw [if_pos (Nat.le_refl _)] at hfirst hsecond
  have hle : depth' ≤ depth := by
    refine Nat.le_of_not_lt fun hlt => ?_
    rw [if_neg (by omega)] at hfirst
    cases hfirst
  have hge : depth ≤ depth' := by
    refine Nat.le_of_not_lt fun hlt => ?_
    rw [if_neg (by omega)] at hsecond
    cases hsecond
  rw [if_pos hle] at hfirst
  exact ⟨Option.some.inj hfirst, Nat.le_antisymm hge hle⟩

end

/-! ## Contents -/

/-- There are payloads under a number exactly if some record has the number
and the form of a payload. -/
theorem payloads_eq_nil_iff {number : Nat} :
    payloads number records = [] ↔ ∀ r ∈ records, ¬ (r.number = number ∧ r.value.form = 2) := by
  rw [payloads, List.filterMap_eq_nil_iff]
  refine forall₂_congr fun r _ => ?_
  obtain ⟨n, value⟩ := r
  cases value <;> simp [Value.form]

end Wire

/-- A text is read back from its bytes. -/
theorem Text.decode?_encode (text : String) : Text.decode? (Text.encode text) = some text := by
  simp only [Text.decode?, Text.encode, Array.toArray_toList, String.fromUTF8?]
  exact dif_pos text.isValidUTF8

theorem Verbatim.read_encode (given : String) :
    Verbatim.read (Text.encode given) = .text given := by
  simp only [Verbatim.read, Text.decode?_encode]

end OdinSchema
