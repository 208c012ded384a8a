import OdinSchema.Generation
import OdinSchema.Tool.Arguments
import OdinSchema.Tool.FileTree

/-!
# The command line tool

The tool reads a set of files, generates code for some or all of them and
writes the results below a directory. Nothing is written unless all of it
was generated.
-/

namespace OdinSchema.Tool

/-- Why a run of the tool breaks off. -/
inductive Failure where
  | path (cause : PathError)
  | malformed
  /-- The directory to write to has no value. -/
  | noDirectory
  /-- A file to generate has no value. -/
  | noTarget
  | unanswered (cause : OdinSchema.Failure)
  deriving DecidableEq, Repr

/-- The wording of a failure. -/
def Failure.text : Failure → String
  | path cause => cause.text
  | malformed => "malformed descriptor set"
  | noDirectory => "expected str, bytes or os.PathLike object, not list"
  | noTarget => "bad argument type for built-in operation"
  | unanswered cause => cause.text

/-- What ends a run with a message. -/
inductive Complaint where
  /-- The generator reports an error. -/
  | reported (error : String)
  /-- An error has no line to be reported at. -/
  | defect (cause : Defect)
  /-- A path holds a character that no name of a file can hold. -/
  | unusablePath
  /-- The name of a file is no text. -/
  | unusableName (flaw : Text.Flaw)
  deriving DecidableEq, Repr

/-- A complaint that ends with what may help. -/
def Complaint.advice (cause : String) : String :=
  "error: " ++ cause ++ "; rebuild the descriptor set with --include_source_info"

/-- The wording of a complaint. -/
def Complaint.text : Complaint → String
  | reported error => "error: " ++ error
  | defect cause => advice cause.text
  | unusablePath => advice PathError.holdsNul.text
  | unusableName flaw => advice flaw.text

/-- How a run ends. -/
inductive Ending where
  | usage (cause : Usage)
  | written (paths : List Path)
  | complaint (cause : Complaint)
  | failure (cause : Failure)
  deriving DecidableEq, Repr

namespace Ending

/-- How a run ends that fails at a path. -/
def ofPathError : PathError → Ending
  | .holdsNul => complaint .unusablePath
  | e => failure (.path e)

/-- How a run ends that gets no answer. -/
def ofFailure : OdinSchema.Failure → Ending
  | .defect cause => complaint (.defect cause)
  | e => failure (.unanswered e)

/-- The exit code of a run that does not break off. -/
def code : Ending → Nat
  | written _ => 0
  | usage .help => 0
  | usage _ => 2
  | complaint _ => 1
  | failure _ => 1

/-- What a run prints: the paths of the files it wrote. -/
def output : Ending → String
  | written paths => joinLines (paths.map Path.text)
  | _ => ""

/-- What a run complains of. -/
def errors : Ending → String
  | complaint cause => cause.text ++ "\n"
  | _ => ""

end Ending

/-- A file of a set as a target: its name has to be text. -/
def targetOfFile (file : FileDescriptor) : Except Ending Verbatim :=
  match file.name with
  | .text name => .ok name
  | .bytes bytes => .error (.complaint (.unusableName (Text.flaw bytes)))

/-- A named file as a target. -/
def targetOfValue : Option String → Except Ending Verbatim
  | some name => .ok name
  | none => .error (.failure .noTarget)

/-- The files to generate: those that are named, or all of a set. -/
def targets (files : List FileDescriptor) (arguments : Arguments) :
    Except Ending (List Verbatim) :=
  if arguments.protos = [] then files.mapM targetOfFile else arguments.protos.mapM targetOfValue

/-- The request for the chosen files of a set. -/
def request (files : List FileDescriptor) (arguments : Arguments) : Except Ending Request :=
  (targets files arguments).map fun targets =>
    { files, targets, parameter := .text (arguments.parameter.getD "") }

/-- The files generated from an encoded set, or how the run ends without
them. -/
def generate (arguments : Arguments) (environment : Option String) (set : Wire.Bytes) :
    Except Ending (List Output) :=
  match FileDescriptor.readSet set with
  | none => .error (.failure .malformed)
  | some files =>
    match request files arguments with
    | .error ending => .error ending
    | .ok request =>
      match request.generate environment with
      | .error e => .error (.ofFailure e)
      | .ok answer =>
        match answer.outcome.response with
        | { error := some error, .. } => .error (.complaint (.reported error))
        | { error := none, files } => .ok files

/-- Where a generated file goes below a directory. -/
def destination (directory : String) (file : Output) : Path :=
  (Path.read directory).join (Path.read file.name)

/-- Write a file, making the directories it needs. -/
def place (tree : FileTree) (p : Path) (content : String) : FileTree × Option PathError :=
  match tree.makeDirectories p.parent with
  | (tree, some e) => (tree, some e)
  | (tree, none) =>
    match tree.write p (Text.encode content) with
    | .error e => (tree, some e)
    | .ok tree => (tree, none)

/-- Write files below a directory in turn. -/
def placeAll (tree : FileTree) (directory : String) : List Output → FileTree × Option PathError
  | [] => (tree, none)
  | file :: rest =>
    match place tree (destination directory file) file.content with
    | (tree, some e) => (tree, some e)
    | (tree, none) => placeAll tree directory rest

/-- Run the tool with arguments that write below a directory: the tree
afterwards, and how the run ends. -/
def runBelow (directory : String) (tree : FileTree) (environment : Option String)
    (arguments : Arguments) : FileTree × Ending :=
  match tree.read (Path.read arguments.descriptorSet) with
  | .error e => (tree, .ofPathError e)
  | .ok set =>
    match generate arguments environment set with
    | .error ending => (tree, ending)
    | .ok files =>
      match placeAll tree directory files with
      | (tree, some e) => (tree, .ofPathError e)
      | (tree, none) => (tree, .written (files.map (destination directory)))

/-- Run the tool: the tree afterwards, and how the run ends. -/
def run (tree : FileTree) (environment : Option String) (words : List String) :
    FileTree × Ending :=
  match Arguments.read words with
  | .error e => (tree, .usage e)
  | .ok arguments =>
    match arguments.out with
    | none => (tree, .failure .noDirectory)
    | some directory => runBelow directory tree environment arguments

end OdinSchema.Tool
