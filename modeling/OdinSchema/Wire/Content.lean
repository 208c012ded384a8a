import OdinSchema.Verbatim
import OdinSchema.Wire.Record

/-!
# The content of a message

What the records of a message say under a number. Of several values of a
field that occurs once the last one counts; a message that occurs several
times is the union of its occurrences. A record whose value has another
form than the field is no value of the field. Texts are taken as they are
given. The last section has the records that say such things.
-/

namespace OdinSchema.Wire

/-- The signed number in the low thirty-two bits. -/
def toInt32 (n : Nat) : Int :=
  Int.bmod n 0x100000000

/-- A signed number as sixty-four bits. -/
def ofInt32 (n : Int) : Nat :=
  (n % 0x10000000000000000).toNat

/-- The varints under a number. -/
def varints (number : Nat) (records : List Record) : List Nat :=
  records.filterMap fun r =>
    match r.value with
    | .varint n => if r.number = number then some n else none
    | _ => none

/-- The payloads under a number. -/
def payloads (number : Nat) (records : List Record) : List Bytes :=
  records.filterMap fun r =>
    match r.value with
    | .bytes payload => if r.number = number then some payload else none
    | _ => none

/-- The texts under a number. -/
def texts (number : Nat) (records : List Record) : List Verbatim :=
  (payloads number records).map .read

/-- The text under a number, empty if there is none. -/
def text (number : Nat) (records : List Record) : Verbatim :=
  (texts number records).getLast?.getD ""

/-- The signed number under a number, if there is one. -/
def int32? (number : Nat) (records : List Record) : Option Int :=
  ((varints number records).map toInt32).getLast?

/-- The signed number under a number, zero if there is none. -/
def int32 (number : Nat) (records : List Record) : Int :=
  (int32? number records).getD 0

/-- The truth value under a number, if there is one. -/
def bool? (number : Nat) (records : List Record) : Option Bool :=
  ((varints number records).map (· != 0)).getLast?

/-- The signed numbers a record adds to a list, alone or packed. -/
def Record.int32s (r : Record) : Option (List Int) :=
  match r.value with
  | .varint n => some [toInt32 n]
  | .bytes payload => (Varint.readAll payload).map (·.map toInt32)
  | _ => some []

/-- The list of signed numbers under a number. -/
def int32s (number : Nat) (records : List Record) : Option (List Int) :=
  ((records.filter (·.number = number)).mapM Record.int32s).map List.flatten

/-- The messages under a number, each read one level further down. -/
def submessages {α : Type} (levels : Nat) (read : Nat → Bytes → Option α) (number : Nat)
    (records : List Record) : Option (List α) :=
  (payloads number records).mapM (below levels read)

/-- The records of the message under a number, all its occurrences taken
together. -/
def merged (levels number : Nat) (records : List Record) : Option (List Record) :=
  (submessages levels Record.readAll number records).map List.flatten

/-! ## Records that say something -/

/-- A record of a text under a number. -/
def textRecord (number : Nat) (text : String) : Record :=
  ⟨number, .bytes (Text.encode text)⟩

/-- A record of a text, as it was given, under a number. -/
def verbatimRecord (number : Nat) (text : Verbatim) : Record :=
  ⟨number, .bytes text.encoded⟩

/-- A record of a signed number under a number. -/
def int32Record (number : Nat) (n : Int) : Record :=
  ⟨number, .varint (ofInt32 n)⟩

/-- A record of a truth value under a number. -/
def boolRecord (number : Nat) (b : Bool) : Record :=
  ⟨number, .varint (if b then 1 else 0)⟩

/-- A record of a message under a number. -/
def messageRecord (number : Nat) (records : List Record) : Record :=
  ⟨number, .bytes (Record.writeAll records)⟩

end OdinSchema.Wire
