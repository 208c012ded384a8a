import OdinSchema.Tool

/-!
# The program

Run without arguments the program is a compiler plugin: it reads an
encoded request from the standard input and writes the encoded response.
Run with arguments it is the command line tool.
-/

namespace OdinSchema.Program

/-- The environment variable that asks for a level. -/
def levelVariable : String := "PROTOC_GEN_ODIN_LOG_LEVEL"

/-- All that a stream holds, after what has been read of it. -/
partial def readStream (stream : IO.FS.Stream) (before : ByteArray) : IO ByteArray := do
  let chunk ← stream.read 65536
  if chunk.isEmpty then return before else readStream stream (before ++ chunk)

/-- Show events. -/
def showEvents (events : List Event) : IO Unit :=
  events.forM fun event => IO.eprintln (event.level.name ++ ": " ++ event.text)

/-- Run as a compiler plugin. -/
def runPlugin (environment : Option String) : IO UInt32 := do
  let input ← readStream (← IO.getStdin) .empty
  match respond input.data.toList environment with
  | .error cause =>
    IO.eprintln cause.text
    return 1
  | .ok answer =>
    showEvents answer.events
    let output ← IO.getStdout
    output.write ⟨answer.encoded.toArray⟩
    output.flush
    return 0

/-- Write a generated file below a directory and print its path. -/
def writeOutput (directory : String) (file : Output) : IO Unit := do
  let path := Tool.destination directory file
  IO.FS.createDirAll path.parent.text
  IO.FS.writeFile path.text file.content
  IO.println path.text

/-- End a run of the tool that writes nothing. -/
def finish (ending : Tool.Ending) : IO UInt32 := do
  match ending with
  | .usage .help => IO.println "usage: descriptor_set --out DIR [--proto FILE] [--parameter LIST]"
  | .usage cause => IO.eprintln ("error: " ++ cause.text)
  | .complaint cause => IO.eprintln cause.text
  | .failure cause => IO.eprintln cause.text
  | .written _ => pure ()
  return ending.code.toUInt32

/-- Run as the command line tool. -/
def runTool (environment : Option String) (words : List String) : IO UInt32 := do
  match Arguments.read words with
  | .error cause => finish (.usage cause)
  | .ok arguments =>
    match arguments.out with
    | none => finish (.failure .noDirectory)
    | some directory =>
      let set ← IO.FS.readBinFile (Path.read arguments.descriptorSet).text
      match Tool.generate arguments environment set.data.toList with
      | .error ending => finish ending
      | .ok files =>
        files.forM (writeOutput directory)
        return 0

end OdinSchema.Program

def main (words : List String) : IO UInt32 := do
  let environment ← IO.getEnv OdinSchema.Program.levelVariable
  if words.isEmpty then OdinSchema.Program.runPlugin environment
  else OdinSchema.Program.runTool environment words
