/-!
# Runs of letters that change case together

A case map moves a stretch of letters by one distance, taking every
letter of the stretch or every other one. A run records such a stretch,
and `Run.find?` is the map a list of runs stands for.
-/

namespace OdinSchema.Text

/-- A stretch of code points, `step` apart, and the code point the first
one is mapped to. -/
structure Run where
  first : Nat
  last : Nat
  step : Nat
  image : Nat

/-- The image of a code point under a run that holds it. -/
def Run.image? (r : Run) (code : Nat) : Option Nat :=
  if r.first ≤ code ∧ code ≤ r.last ∧ (code - r.first) % r.step = 0 then
    some (r.image + (code - r.first))
  else
    none

/-- The image of a code point under the first run that holds it. -/
def Run.find? (runs : List Run) (code : Nat) : Option Nat :=
  runs.findSome? (·.image? code)

end OdinSchema.Text
