import OdinSchema.Dictionary
import OdinSchema.Text.Blank
import OdinSchema.Text.Case

/-!
# Parameter lists

A parameter list is a text of entries `key=value`, set apart by commas or
semicolons. Blanks around entries, keys and values do not count, nor do
blank entries; keys are read in lower case, and a key without a value
stands for `true`. A later entry replaces the value of an earlier one.
-/

namespace OdinSchema.ParameterList

/-- The characters between entries. -/
def isSeparator (c : Char) : Bool :=
  c == ',' || c == ';'

/-- What an entry sets; a blank entry sets nothing. The value starts after
the first equals sign. -/
def setting? (piece : List Char) : Option (String × String) :=
  let piece := Text.trim piece
  if piece = [] then none
  else if '=' ∈ piece then
    let key := piece.takeWhile (· ≠ '=')
    let value := (piece.dropWhile (· ≠ '=')).drop 1
    some (.ofList (Text.lower (Text.trim key)), .ofList (Text.trim value))
  else some (.ofList (Text.lower piece), "true")

/-- The settings a text lists, in order, repeated keys included. -/
def entries (text : List Char) : List (String × String) :=
  (text.splitOnP isSeparator).filterMap setting?

/-- The dictionary a parameter list stands for. -/
def read (text : String) : Dictionary String String :=
  Dictionary.empty.setAll (entries text.toList)

end OdinSchema.ParameterList
