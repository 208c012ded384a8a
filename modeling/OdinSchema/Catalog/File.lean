import OdinSchema.Catalog.Message

/-!
# Loading files

The files of a request are loaded in turn, then all references are
checked: a type may be declared after it is used. A catalog that is
complete is not loaded again.
-/

namespace OdinSchema

/-- The dialect of a file that does not name one is the oldest. -/
def FileDescriptor.givenDialect (d : FileDescriptor) : Verbatim :=
  d.dialect.given?.getD "proto2"

/-- Load a file. -/
def FileDescriptor.load (d : FileDescriptor) : Load File := do
  let context := ⟨d.givenDialect, d.placements⟩
  let enums ← loadEnums [d.package] d.enums
  let messages ← loadMessages context [d.package] 0 d.messages
  return {
    name := d.name
    package := d.package.given?
    dialect := d.givenDialect
    dependencies := d.dependencies
    messages, enums }

/-- Load files in turn, each under its name. -/
def loadFiles : List FileDescriptor → Load Unit
  | [] => return ()
  | d :: rest => do
    let file ← d.load
    modify fun c => { c with files := c.files.set d.name file }
    loadFiles rest

/-- Check that the types referred to are declared. -/
def checkReferences : Load Unit := do
  let catalog ← get
  match catalog.references.find? (fun r => r.typeName ∉ catalog.types) with
  | some r => throw (.unresolved r.typeName r.field)
  | none => return ()

/-- Load the files of a request and check them. -/
def loadAll (files : List FileDescriptor) : Load Unit := do
  loadFiles files
  checkReferences
  modify fun c => { c with complete := true }

namespace Catalog

/-- Load files into a catalog, unless that is done: the loaded files, or
why there are none, and the catalog afterwards. -/
def load (catalog : Catalog) (files : List FileDescriptor) :
    Except LoadError (Dictionary Verbatim File) × Catalog :=
  if catalog.complete then (.ok catalog.files, catalog)
  else
    match (loadAll files).run.run catalog with
    | (.ok (), catalog) => (.ok catalog.files, catalog)
    | (.error e, catalog) => (.error e, catalog)

end Catalog

end OdinSchema
