import OdinSchema.Wire.Varint

/-!
# Records

An encoded message is a string of records, each a number and a value. A
tag in front of the value tells the number and the form of the value; two
of the forms open and close a group, which holds records of its own. No
message read here has groups, so groups are checked and skipped. Numbers
count from one, though nobody looks at the numbers inside a group.

Reading goes in two passes: the string is cut into tokens, and the tokens
are matched up. A message inside a message, or a group inside a group,
goes down one level, and a reader that has no level left refuses.
-/

namespace OdinSchema.Wire

/-- The value of a record. -/
inductive Value where
  | varint (n : Nat)
  | fixed64 (bytes : Bytes)
  | bytes (payload : Bytes)
  | fixed32 (bytes : Bytes)
  deriving DecidableEq, Repr

/-- A numbered value. -/
structure Record where
  number : Nat
  value : Value
  deriving DecidableEq, Repr

/-- A record, or one end of a group. -/
inductive Token where
  | record (record : Record)
  | opening (number : Nat)
  | closing (number : Nat)
  deriving DecidableEq, Repr

/-- The first `n` bytes of a string and the bytes after them. -/
def takeBytes (n : Nat) (bytes : Bytes) : Option (Bytes × Bytes) :=
  if n ≤ bytes.length then some (bytes.take n, bytes.drop n) else none

/-- The token with a given number and form, and the bytes after it. -/
def Token.readBody (number form : Nat) (bytes : Bytes) : Option (Token × Bytes) :=
  match form with
  | 0 =>
    match Varint.read bytes with
    | some (n, rest) => some (.record ⟨number, .varint n⟩, rest)
    | none => none
  | 1 =>
    match takeBytes 8 bytes with
    | some (fixed, rest) => some (.record ⟨number, .fixed64 fixed⟩, rest)
    | none => none
  | 2 =>
    match Varint.readBelow 0x80000000 bytes with
    | some (length, rest) =>
      match takeBytes length rest with
      | some (payload, rest) => some (.record ⟨number, .bytes payload⟩, rest)
      | none => none
    | none => none
  | 3 => some (.opening number, bytes)
  | 4 => some (.closing number, bytes)
  | 5 =>
    match takeBytes 4 bytes with
    | some (fixed, rest) => some (.record ⟨number, .fixed32 fixed⟩, rest)
    | none => none
  | _ => none

/-- The token in front of a string, and the bytes after it. A tag fits
thirty-two bits, a length thirty-one. -/
def Token.read (bytes : Bytes) : Option (Token × Bytes) :=
  match Varint.readBelow 0x100000000 bytes with
  | some (tag, rest) => Token.readBody (tag / 8) (tag % 8) rest
  | none => none

/-- What is left is no longer than what was there. -/
theorem takeBytes_length_le {n : Nat} {bytes front rest : Bytes}
    (h : takeBytes n bytes = some (front, rest)) : rest.length ≤ bytes.length := by
  simp only [takeBytes] at h
  split at h
  · simp only [Option.some.injEq, Prod.mk.injEq] at h
    simp [← h.2]
  · simp at h

/-- The body of a token may be empty. -/
theorem Token.readBody_length_le {number form : Nat} {bytes rest : Bytes} {token : Token}
    (h : Token.readBody number form bytes = some (token, rest)) :
    rest.length ≤ bytes.length := by
  simp only [Token.readBody] at h
  split at h
  · split at h
    · rename_i hread
      simp only [Option.some.injEq, Prod.mk.injEq] at h
      exact h.2 ▸ Nat.le_of_lt (Varint.read_length_lt hread)
    · simp at h
  · split at h
    · rename_i htake
      simp only [Option.some.injEq, Prod.mk.injEq] at h
      exact h.2 ▸ takeBytes_length_le htake
    · simp at h
  · split at h
    · rename_i hread
      split at h
      · rename_i htake
        simp only [Option.some.injEq, Prod.mk.injEq] at h
        have hle := takeBytes_length_le htake
        have hlt := Varint.readBelow_length_lt hread
        rw [← h.2]
        omega
      · simp at h
    · simp at h
  · simp only [Option.some.injEq, Prod.mk.injEq] at h
    simp [h.2]
  · simp only [Option.some.injEq, Prod.mk.injEq] at h
    simp [h.2]
  · split at h
    · rename_i htake
      simp only [Option.some.injEq, Prod.mk.injEq] at h
      exact h.2 ▸ takeBytes_length_le htake
    · simp at h
  · simp at h

/-- A token takes at least one byte. -/
theorem Token.read_length_lt {bytes rest : Bytes} {token : Token}
    (h : Token.read bytes = some (token, rest)) : rest.length < bytes.length := by
  simp only [Token.read] at h
  split at h
  · rename_i hread
    exact Nat.lt_of_le_of_lt (Token.readBody_length_le h) (Varint.readBelow_length_lt hread)
  · simp at h

/-- Every token of a string, in order. -/
def Token.readAll (bytes : Bytes) : Option (List Token) :=
  if bytes = [] then some []
  else
    match h : Token.read bytes with
    | none => none
    | some (token, rest) =>
      have := Token.read_length_lt h
      (Token.readAll rest).map (token :: ·)
termination_by bytes.length

/-- The records outside the groups, where the groups `opened`, innermost
first, are still open. Groups close in the order they nest, at most
`levels` are open at once, and zero is no number outside them. -/
def Token.outside (levels : Nat) : (opened : List Nat) → List Token → Option (List Record)
  | [], [] => some []
  | _ :: _, [] => none
  | opened, .opening number :: rest =>
    if opened.length < levels ∧ (opened ≠ [] ∨ number ≠ 0) then
      Token.outside levels (number :: opened) rest
    else none
  | [], .closing _ :: _ => none
  | innermost :: opened, .closing number :: rest =>
    if innermost = number then Token.outside levels opened rest else none
  | [], .record r :: rest =>
    if r.number = 0 then none else (Token.outside levels [] rest).map (r :: ·)
  | innermost :: opened, .record _ :: rest => Token.outside levels (innermost :: opened) rest

/-- The records of an encoded message below which `levels` levels are
left. -/
def Record.readAll (levels : Nat) (bytes : Bytes) : Option (List Record) :=
  (Token.readAll bytes).bind (Token.outside levels [])

/-- A reader one level further down. -/
def below {α : Type} (levels : Nat) (read : Nat → Bytes → Option α) : Bytes → Option α :=
  match levels with
  | 0 => fun _ => none
  | levels + 1 => read levels

/-- The form of a value, as a tag tells it. -/
def Value.form : Value → Nat
  | varint _ => 0
  | fixed64 _ => 1
  | bytes _ => 2
  | fixed32 _ => 5

/-- A value as bytes. -/
def Value.write : Value → Bytes
  | varint n => Varint.write n
  | fixed64 fixed => fixed
  | bytes payload => Varint.write payload.length ++ payload
  | fixed32 fixed => fixed

/-- A record as bytes. -/
def Record.write (r : Record) : Bytes :=
  Varint.write (8 * r.number + r.value.form) ++ r.value.write

/-- Records as bytes. -/
def Record.writeAll (records : List Record) : Bytes :=
  records.flatMap Record.write

end OdinSchema.Wire
