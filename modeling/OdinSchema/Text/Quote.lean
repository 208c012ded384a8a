import OdinSchema.Text.Printable

/-!
# Quoted text

A text inside a message stands between quotes, in a form that shows every
character. What would not show, or would be taken for the end of the
text, is escaped by a backslash; characters without a short escape are
given by their code point in hexadecimal digits.
-/

namespace OdinSchema.Text

/-- The last `width` hexadecimal digits of a number. -/
def hexDigits : (width : Nat) → Nat → List Char
  | 0, _ => []
  | width + 1, n => hexDigits width (n / 16) ++ [Nat.digitChar (n % 16)]

/-- A character by its code point, in as few digits as its size allows. -/
def escapeCode (c : Char) : List Char :=
  if c.toNat < 0x100 then '\\' :: 'x' :: hexDigits 2 c.toNat
  else if c.toNat < 0x10000 then '\\' :: 'u' :: hexDigits 4 c.toNat
  else '\\' :: 'U' :: hexDigits 8 c.toNat

/-- A character as it stands between quotes. Those that are `plain` stand
for themselves, except the quote and the backslash. -/
def escapeChar (plain : Char → Bool) (quote c : Char) : List Char :=
  if c = quote || c = '\\' then ['\\', c]
  else if c = '\t' then ['\\', 't']
  else if c = '\n' then ['\\', 'n']
  else if c = '\r' then ['\\', 'r']
  else if plain c then [c]
  else escapeCode c

/-- The quote to put around a text: the single one, unless the text has
that and not the double one. -/
def quoteFor (text : List Char) : Char :=
  if '\x27' ∈ text ∧ '\x22' ∉ text then '\x22' else '\x27'

/-- A text between quotes, where the characters that are `plain` stand for
themselves. -/
def quoteBy (plain : Char → Bool) (text : List Char) : List Char :=
  let quote := quoteFor text
  quote :: text.flatMap (escapeChar plain quote) ++ [quote]

/-- A text between quotes. -/
def quote (text : String) : String :=
  .ofList (quoteBy isPrintable text.toList)

/-- A string of bytes between quotes, each byte as the character of its
code point, where those of the basic alphabet stand for themselves. The
letter in front tells it from a text. -/
def quoteBytes (bytes : List UInt8) : String :=
  .ofList ('b' :: quoteBy (fun c => 0x20 ≤ c.toNat && c.toNat < 0x7F)
    (bytes.map fun byte => Char.ofNat byte.toNat))

end OdinSchema.Text
