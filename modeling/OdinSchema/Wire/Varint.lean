/-!
# Varints

A number is written in bytes of seven bits, lowest first, every byte but
the last with its high bit set. The shortest form is not required, but
there is a limit to its length: ten bytes for a value, of which the low
sixty-four bits count, and five for a number that describes what follows
it, which has to stay below a bound.
-/

namespace OdinSchema.Wire

/-- A string of bytes. -/
abbrev Bytes := List UInt8

namespace Varint

/-- The number in front of a string, in at most `room` bytes, and the bytes
after it. -/
def readWithin : (room : Nat) → Bytes → Option (Nat × Bytes)
  | 0, _ => none
  | _ + 1, [] => none
  | room + 1, byte :: rest =>
    if byte.toNat < 128 then some (byte.toNat, rest)
    else
      match readWithin room rest with
      | some (high, rest) => some (byte.toNat - 128 + 128 * high, rest)
      | none => none

/-- The value in front of a string, and the bytes after it. Bits beyond
the sixty-fourth are dropped. -/
def read (bytes : Bytes) : Option (Nat × Bytes) :=
  match readWithin 10 bytes with
  | some (n, rest) => some (n % 0x10000000000000000, rest)
  | none => none

/-- The short number below a bound in front of a string, and the bytes
after it. -/
def readBelow (bound : Nat) (bytes : Bytes) : Option (Nat × Bytes) :=
  match readWithin 5 bytes with
  | some (n, rest) => if n < bound then some (n, rest) else none
  | none => none

/-- The shortest form of a number. -/
def write (n : Nat) : Bytes :=
  if n < 128 then [n.toUInt8] else (n % 128 + 128).toUInt8 :: write (n / 128)

/-- A number takes at least one byte. -/
theorem readWithin_length_lt {room : Nat} {bytes rest : Bytes} {n : Nat}
    (h : readWithin room bytes = some (n, rest)) : rest.length < bytes.length := by
  induction room generalizing bytes rest n with
  | zero => simp [readWithin] at h
  | succ room ih =>
    cases bytes with
    | nil => simp [readWithin] at h
    | cons byte tail =>
      simp only [readWithin] at h
      split at h
      · simp only [Option.some.injEq, Prod.mk.injEq] at h
        simp [h.2]
      · split at h
        · rename_i high rest' hread
          simp only [Option.some.injEq, Prod.mk.injEq] at h
          have := ih hread
          simp only [List.length_cons, ← h.2]
          omega
        · simp at h

/-- A value takes at least one byte. -/
theorem read_length_lt {bytes rest : Bytes} {n : Nat} (h : read bytes = some (n, rest)) :
    rest.length < bytes.length := by
  simp only [read] at h
  split at h
  · rename_i hread
    simp only [Option.some.injEq, Prod.mk.injEq] at h
    exact h.2 ▸ readWithin_length_lt hread
  · simp at h

/-- A short number takes at least one byte. -/
theorem readBelow_length_lt {bound : Nat} {bytes rest : Bytes} {n : Nat}
    (h : readBelow bound bytes = some (n, rest)) : rest.length < bytes.length := by
  simp only [readBelow] at h
  split at h
  · rename_i hread
    split at h
    · simp only [Option.some.injEq, Prod.mk.injEq] at h
      exact h.2 ▸ readWithin_length_lt hread
    · simp at h
  · simp at h

/-- Every value of a string, in order. -/
def readAll (bytes : Bytes) : Option (List Nat) :=
  if bytes = [] then some []
  else
    match h : read bytes with
    | none => none
    | some (n, rest) =>
      have := read_length_lt h
      (readAll rest).map (n :: ·)
termination_by bytes.length

end Varint

end OdinSchema.Wire
