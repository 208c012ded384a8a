import OdinSchema.Text.Quote

/-!
# Text as bytes

Text is stored in UTF-8, where a character takes one to four bytes and
the first of them says how many follow. Bytes that are no text have a
first flaw, and `flaw` tells where it is and what is wrong there.
-/

namespace OdinSchema.Text

/-- Text as bytes. -/
def encode (text : String) : List UInt8 :=
  text.toUTF8.data.toList

/-- Bytes as text, if they are one. -/
def decode? (bytes : List UInt8) : Option String :=
  String.fromUTF8? ⟨bytes.toArray⟩

/-- What is wrong with bytes that should be a character. -/
inductive FlawCause where
  /-- No character starts with this byte. -/
  | start
  /-- The byte after these does not go on with the character. -/
  | continuation
  /-- The bytes end before the character does. -/
  | ending
  deriving DecidableEq, Repr

/-- The wording of a cause. -/
def FlawCause.text : FlawCause → String
  | start => "invalid start byte"
  | continuation => "invalid continuation byte"
  | ending => "unexpected end of data"

/-- A place where bytes stop being text: its position, the bytes of the
character begun there, and what is wrong with them. -/
structure Flaw where
  position : Nat
  bytes : List UInt8
  cause : FlawCause
  deriving DecidableEq, Repr

/-- The wording of the place of a flaw. -/
def Flaw.place (f : Flaw) : String :=
  match f.bytes with
  | [byte] => "byte 0x" ++ .ofList (hexDigits 2 byte.toNat) ++ " in position " ++ toString f.position
  | bytes =>
    "bytes in position " ++ toString f.position ++ "-" ++
      toString (f.position + bytes.length - 1)

/-- The wording of a flaw. -/
def Flaw.text (f : Flaw) : String :=
  "'utf-8' codec can't decode " ++ f.place ++ ": " ++ f.cause.text

/-- The ranges of the bytes that follow a first byte, or none if no
character starts with it. The narrower ranges keep out characters that
have a shorter form, the halves of surrogate pairs, and numbers beyond
the last character. -/
def followers (first : Nat) : Option (List (Nat × Nat)) :=
  let any := (0x80, 0xBF)
  if first < 0x80 then some []
  else if first < 0xC2 then none
  else if first < 0xE0 then some [any]
  else if first = 0xE0 then some [(0xA0, 0xBF), any]
  else if first = 0xED then some [(0x80, 0x9F), any]
  else if first < 0xF0 then some [any, any]
  else if first = 0xF0 then some [(0x90, 0xBF), any, any]
  else if first < 0xF4 then some [any, any, any]
  else if first = 0xF4 then some [(0x80, 0x8F), any, any]
  else none

/-- The first flaw, where the bytes `begun` of a character have been read
at a position and bytes in the ranges `expected` are to follow. -/
def flawFrom (position : Nat) (begun : List UInt8) (expected : List (Nat × Nat)) :
    List UInt8 → Flaw
  | [] => ⟨position, begun, .ending⟩
  | byte :: rest =>
    match expected with
    | (low, high) :: expected =>
      if low ≤ byte.toNat ∧ byte.toNat ≤ high then
        flawFrom position (begun ++ [byte]) expected rest
      else ⟨position, begun, .continuation⟩
    | [] =>
      match followers byte.toNat with
      | none => ⟨position + begun.length, [byte], .start⟩
      | some expected => flawFrom (position + begun.length) [byte] expected rest

/-- The first flaw of bytes that are no text. -/
def flaw (bytes : List UInt8) : Flaw :=
  flawFrom 0 [] [] bytes

end OdinSchema.Text
