/-!
# Stretches of characters

A property of characters is given by the stretches of code points that
have it.
-/

namespace OdinSchema.Text

/-- Whether a code point lies in one of the given stretches, ends included. -/
def inStretch (stretches : List (Nat × Nat)) (code : Nat) : Bool :=
  stretches.any fun (first, last) => first ≤ code && code ≤ last

end OdinSchema.Text
