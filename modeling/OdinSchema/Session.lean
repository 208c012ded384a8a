import OdinSchema.Generation

/-!
# Asking a request for its files

The files of a request are loaded when one of them is first asked for. What
was found is kept for the next question, also when loading fails, and a
question after a failure loads again.
-/

namespace OdinSchema

/-- A question about a request: its files, as a load or by looking at what is
loaded, one of them, or the names to generate code for. -/
inductive Query where
  | load
  | files
  | file (name : Verbatim)
  | targets
  deriving DecidableEq, Repr

/-- What is replied. -/
inductive Reply where
  | files (files : Dictionary Verbatim File)
  | file (file : File)
  | targets (names : List Verbatim)

/-- The reply to a question once the files are loaded. -/
def Request.reply (request : Request) (loaded : Dictionary Verbatim File) :
    Query → Except Failure Reply
  | .load | .files => .ok (.files loaded)
  | .file name =>
    match loaded.get? name with
    | some file => .ok (.file file)
    | none => .error (.unknownFile name)
  | .targets => .ok (.targets request.targets)

/-- Ask one question. Only the names to generate code for are known without
loading. -/
def Request.ask (request : Request) (catalog : Catalog) :
    Query → Except Failure Reply × Catalog
  | .targets => (.ok (.targets request.targets), catalog)
  | query =>
    match catalog.load request.files with
    | (.ok loaded, catalog) => (request.reply loaded query, catalog)
    | (.error cause, catalog) => (.error (.load cause), catalog)

/-- Ask questions in turn. -/
def Request.session (request : Request) (catalog : Catalog) :
    List Query → List (Except Failure Reply)
  | [] => []
  | query :: rest =>
    match request.ask catalog query with
    | (reply, catalog) => reply :: request.session catalog rest

end OdinSchema
