import OdinSchema.Text.Utf8

/-!
# Texts as they are given

A descriptor holds names and other texts as bytes, and nothing makes sure
that the bytes are text. What is given is kept as characters where it is
text and as bytes where it is not. Bytes can be compared, and shown in
quotes, but they cannot be taken apart or joined to a text; what has to
do so fails for one of the causes listed here.
-/

namespace OdinSchema

/-- A text as it is given. -/
inductive Verbatim where
  | text (text : String)
  /-- Bytes that are no text. -/
  | bytes (bytes : List UInt8)
  deriving DecidableEq, Repr

namespace Verbatim

instance : Coe String Verbatim := ⟨text⟩

/-- What bytes give. -/
def read (encoded : List UInt8) : Verbatim :=
  match Text.decode? encoded with
  | some decoded => text decoded
  | none => bytes encoded

/-- The bytes that give a text. -/
def encoded : Verbatim → List UInt8
  | text given => Text.encode given
  | bytes given => given

/-- The characters of what is given, if it is text. -/
def text? : Verbatim → Option String
  | text given => some given
  | bytes _ => none

/-- How what is given looks among other text. -/
def shown : Verbatim → String
  | text given => given
  | bytes given => Text.quoteBytes given

/-- What is given, unless that is the empty text. -/
def given? (v : Verbatim) : Option Verbatim :=
  if v = text "" then none else some v

end Verbatim

/-- What bytes that are no text cannot be used for. -/
inductive Illegible where
  /-- To be the segment at this position of a joined name. -/
  | segment (position : Nat)
  /-- To tell how a name starts. -/
  | start
  /-- To tell how a name ends. -/
  | ending
  /-- To be divided into entries. -/
  | entries
  deriving DecidableEq, Repr

/-- The wording of a failure to use bytes as text. -/
def Illegible.text : Illegible → String
  | segment position =>
    "sequence item " ++ toString position ++ ": expected str instance, bytes found"
  | start => "startswith first arg must be bytes or a tuple of bytes, not str"
  | ending => "endswith first arg must be bytes or a tuple of bytes, not str"
  | entries => "a bytes-like object is required, not 'str'"

end OdinSchema
