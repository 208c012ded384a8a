import OdinSchema.Text.Case.Context
import OdinSchema.Text.Case.Lower
import OdinSchema.Text.Case.Upper

/-!
# Lower and upper case

The full case maps of text. A letter may become several (`İ` becomes `i`
and a dot above), and the small form of `Σ` is `ς` where it ends a word
and `σ` elsewhere, so lower-casing walks the text with the characters it
has passed at hand.
-/

namespace OdinSchema.Text

/-- The upper-case form of a character. -/
def upperChar (c : Char) : List Char :=
  match upperSpellings.lookup c.toNat with
  | some codes => codes.map Char.ofNat
  | none => [Char.ofNat ((Run.find? upperRuns c.toNat).getD c.toNat)]

/-- The upper-case form of a text. -/
def upper (text : List Char) : List Char :=
  text.flatMap upperChar

/-- Whether the first character that is not attached to a word is a
cased letter. -/
def meetsCased (text : List Char) : Bool :=
  match text.find? (fun c => !inStretch attachedStretches c.toNat) with
  | some c => inStretch casedStretches c.toNat
  | none => false

/-- The lower-case form of a character between the characters before it,
nearest first, and those after it. -/
def lowerChar (before : List Char) (c : Char) (after : List Char) : List Char :=
  if c = 'İ' then ['i', Char.ofNat 0x307]
  else if c = 'Σ' then
    -- it ends a word when a cased letter stands before it and none after
    if meetsCased before && !meetsCased after then ['ς'] else ['σ']
  else [Char.ofNat ((Run.find? lowerRuns c.toNat).getD c.toNat)]

/-- The lower-case form of a text that follows the characters `before`,
nearest first. -/
def lowerAfter (before : List Char) : List Char → List Char
  | [] => []
  | c :: rest => lowerChar before c rest ++ lowerAfter (c :: before) rest

/-- The lower-case form of a text. -/
def lower (text : List Char) : List Char :=
  lowerAfter [] text

end OdinSchema.Text
