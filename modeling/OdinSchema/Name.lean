/-!
# Names of declared types

A type is known by a dotted full name and declared under a flat one. The
flat name drops the package of the file at hand and joins the remaining
segments with underscores; `Scope` fixes the package once for a file.
What Odin accepts as an identifier is said by `isIdentifier`.
-/

namespace OdinSchema

/-- A dotted name without the dot that may stand in front of it. -/
def dropDot : List Char → List Char
  | '.' :: rest => rest
  | name => name

/-- A dotted name as seen from a package: a name inside the package loses
it, any other name stays whole. No name lies inside the empty package. -/
def relativeTo (package name : List Char) : List Char :=
  if package = [] then name else ((package ++ ['.']).isPrefixOf? name).getD name

/-- The identifier a dotted name is declared under, seen from a package. -/
def flatten (package : Option String) (fullName : String) : String :=
  .ofList <| (relativeTo (package.getD "").toList (dropDot fullName.toList)).map
    fun c => if c = '.' then '_' else c

/-- The package clause of a generated file: the base name, followed by the
flattened package if there is one. -/
def packageIdentifier (base : String) (package : Option String) : String :=
  match package.filter (· ≠ "") with
  | none => base
  | some package => base ++ "_" ++ flatten none package

/-- The package that names are seen from. -/
structure Scope where
  package : Option String

/-- The scope of a file; an empty package is none. -/
def Scope.ofPackage (package : Option String) : Scope :=
  ⟨package.filter (· ≠ "")⟩

/-- The identifier of a type in a scope. -/
def Scope.resolve (scope : Scope) (fullName : String) : String :=
  flatten scope.package fullName

/-- A letter or an underscore. -/
def startsIdentifier (c : Char) : Bool :=
  c.isAlpha || c == '_'

/-- A letter, a digit or an underscore. -/
def continuesIdentifier (c : Char) : Bool :=
  c.isAlphanum || c == '_'

/-- Whether a text is an Odin identifier. -/
def isIdentifier : List Char → Bool
  | [] => false
  | c :: rest => startsIdentifier c && rest.all continuesIdentifier

/-- Whether a text passes for an identifier: one line break at its end is
overlooked. -/
def passesForIdentifier (text : List Char) : Bool :=
  isIdentifier text || (text.getLast? == some '\n' && isIdentifier text.dropLast)

end OdinSchema
