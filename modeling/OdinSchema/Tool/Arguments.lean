import OdinSchema.Text.Digit
import OdinSchema.Text.Quote

/-!
# Arguments of the command line

The tool takes the path of a descriptor set and four options. An option
may be shortened as long as no other starts the same way, and its value
follows it as the next argument or after an equals sign. Options of one
letter may share a dash. Two dashes end the options; as the value behind
an equals sign they are dropped, and the option has none.

The arguments are first told apart, each by itself, and then used up from
left to right.
-/

namespace OdinSchema

/-- The options. -/
inductive Flag where
  | help
  | proto
  | out
  | parameter
  deriving DecidableEq, Repr

namespace Flag

/-- The spellings of the options, in the order they are listed in. -/
def spellings : List (String × Flag) :=
  [("-h", help), ("--help", help), ("--proto", proto), ("--out", out), ("--parameter", parameter)]

/-- An option by all its spellings. -/
def title (flag : Flag) : String :=
  "/".intercalate ((spellings.filter (·.2 = flag)).map Prod.fst)

end Flag

/-- Why arguments are not accepted. -/
inductive Usage where
  /-- Nothing is wrong: the usage is asked for. -/
  | help
  | missing (arguments : List String)
  | unrecognized (arguments : List String)
  | ambiguous (argument : String) (options : List String)
  | noValue (flag : Flag)
  | unusedValue (flag : Flag) (value : String)
  deriving DecidableEq, Repr

/-- The wording of a usage error. -/
def Usage.text : Usage → String
  | help => ""
  | missing arguments =>
    "the following arguments are required: " ++ ", ".intercalate arguments
  | unrecognized arguments => "unrecognized arguments: " ++ " ".intercalate arguments
  | ambiguous argument options =>
    "ambiguous option: " ++ argument ++ " could match " ++ ", ".intercalate options
  | noValue flag => "argument " ++ flag.title ++ ": expected one argument"
  | unusedValue flag value =>
    "argument " ++ flag.title ++ ": ignored explicit argument " ++ Text.quote value

/-- What comes of asking for the usage with letters behind the one that
does: no other option has a letter, so they can only ask again. -/
def Usage.ofLetters (letters : List Char) : Usage :=
  match letters.dropWhile (· = 'h') with
  | [] => if letters = [] then .unusedValue .help "" else .help
  | rest => .unusedValue .help (.ofList rest)

/-- The arguments of a run. Of an option that was given, none is a value
that was dropped. -/
structure Arguments where
  descriptorSet : String
  protos : List (Option String) := []
  out : Option String
  parameter : Option String := none
  deriving DecidableEq, Repr

namespace Arguments

/-! ## Telling arguments apart -/

/-- What an argument is. -/
inductive Word where
  | value (text : String)
  | flag (flag : Flag) (attached : Option String)
  /-- The letter that asks for the usage, with letters behind it. -/
  | letters (letters : List Char)
  | unknown (text : String)
  | separator
  deriving DecidableEq, Repr

/-- Whether a text is a number without a sign: digits, or a point with
digits after it and perhaps before. -/
def isUnsignedNumber (text : List Char) : Bool :=
  match text.dropWhile Text.isDecimal with
  | [] => text ≠ []
  | '.' :: fraction => fraction ≠ [] && fraction.all Text.isDecimal
  | _ => false

/-- Whether a text is a negative number, which no option looks like. A
line break after it does not count. -/
def isNegativeNumber : List Char → Bool
  | '-' :: rest =>
    isUnsignedNumber (if rest.getLast? = some '\n' then rest.dropLast else rest)
  | _ => false

/-- The options that an argument of two dashes may be short for. -/
def completions (lead : List Char) : List (String × Flag) :=
  Flag.spellings.filter fun (spelling, _) => lead.isPrefixOf spelling.toList

/-- An argument that starts with a dash and spells no option in full. -/
def readShortened (argument : String) : Except Usage Word :=
  let chars := argument.toList
  let lead := chars.takeWhile (· ≠ '=')
  let attached := if '=' ∈ chars then some (String.ofList (chars.drop (lead.length + 1))) else none
  let fallback :=
    if isNegativeNumber chars || chars.contains ' ' then Word.value argument
    else Word.unknown argument
  match chars with
  | '-' :: '-' :: _ =>
    match completions lead with
    | [] => .ok fallback
    | [(_, flag)] => .ok (.flag flag attached)
    | several => .error (.ambiguous argument (several.map Prod.fst))
  | '-' :: 'h' :: letters => .ok (.letters letters)
  | _ => .ok fallback

/-- What an argument in front of any separator is. -/
def readWord (argument : String) : Except Usage Word :=
  let chars := argument.toList
  let lead := String.ofList (chars.takeWhile (· ≠ '='))
  let attached := chars.drop (lead.length + 1)
  if chars.head? ≠ some '-' || argument = "-" then .ok (.value argument)
  else
    match Flag.spellings.lookup argument, Flag.spellings.lookup lead with
    | some flag, _ => .ok (.flag flag none)
    | none, some flag =>
      if lead = "-h" then .ok (.letters attached) else .ok (.flag flag (some (.ofList attached)))
    | none, none => readShortened argument

/-- What the arguments are; after a separator all are values. -/
def readWords : List String → Except Usage (List Word)
  | [] => .ok []
  | argument :: rest =>
    if argument = "--" then .ok (.separator :: rest.map .value)
    else
      match readWord argument, readWords rest with
      | .error e, _ => .error e
      | .ok _, .error e => .error e
      | .ok word, .ok words => .ok (word :: words)

/-! ## Using arguments up -/

/-- The arguments used up so far, and those that have no use. -/
structure Progress where
  descriptorSet : Option String := none
  protos : List (Option String) := []
  out : Option (Option String) := none
  parameter : Option String := none
  extras : List String := []

/-- Give an option its value, or none. The last value counts, except that
every named file does. -/
def Progress.store (p : Progress) (value : Option String) : Flag → Progress
  | .help => p
  | .proto => { p with protos := p.protos ++ [value] }
  | .out => { p with out := some value }
  | .parameter => { p with parameter := value }

/-- The value behind an equals sign, unless it is two dashes. -/
def keptValue (attached : String) : Option String :=
  if attached = "--" then none else some attached

/-- An argument without a use. -/
def Progress.spare (p : Progress) (argument : String) : Progress :=
  { p with extras := p.extras ++ [argument] }

/-- Use up arguments from left to right. The separator goes with the path
it stands beside. -/
def consume (p : Progress) : List Word → Except Usage Progress
  | [] => .ok p
  | .flag .help none :: _ => .error .help
  | .flag .help (some value) :: _ => .error (.unusedValue .help value)
  | .letters letters :: _ => .error (Usage.ofLetters letters)
  | .flag flag (some attached) :: rest => consume (p.store (keptValue attached) flag) rest
  | .flag flag none :: .value value :: rest => consume (p.store (some value) flag) rest
  | .flag flag none :: _ => .error (.noValue flag)
  | .unknown argument :: rest => consume (p.spare argument) rest
  | .value argument :: .separator :: rest =>
    if p.descriptorSet.isNone then consume { p with descriptorSet := some argument } rest
    else consume ((p.spare argument).spare "--") rest
  | .separator :: .value argument :: rest =>
    if p.descriptorSet.isNone then consume { p with descriptorSet := some argument } rest
    else consume ((p.spare "--").spare argument) rest
  | .value argument :: rest =>
    if p.descriptorSet.isNone then consume { p with descriptorSet := some argument } rest
    else consume (p.spare argument) rest
  | .separator :: rest => consume (p.spare "--") rest

/-- The arguments of a run, if all that are needed are there and all that
are there are needed. -/
def Progress.finish (p : Progress) : Except Usage Arguments :=
  match p.descriptorSet, p.out with
  | some descriptorSet, some out =>
    if p.extras = [] then .ok { descriptorSet, out, protos := p.protos, parameter := p.parameter }
    else .error (.unrecognized p.extras)
  | descriptorSet, out =>
    .error (.missing ((if descriptorSet.isNone then ["descriptor_set"] else []) ++
      (if out.isNone then ["--out"] else [])))

/-- The arguments of a run. -/
def read (arguments : List String) : Except Usage Arguments :=
  match readWords arguments with
  | .error e => .error e
  | .ok words =>
    match consume {} words with
    | .error e => .error e
    | .ok progress => progress.finish

end Arguments

end OdinSchema
