/-!
# Imports

What a source parser extracts from one file: the references to other modules, with the line on
which each stands, and the exported names.

* `not_isRelative_of_packageName`: a specifier that names a package is not a relative path.
-/

namespace DepGraph

/-- The form in which one module refers to another. -/
inductive ImportKind where
  /-- A declaration that is bound before the module runs. -/
  | static
  /-- A call that loads the module when it is reached, answering at once. -/
  | require
  /-- A call that loads the module when it is reached, answering later. -/
  | dynamic
  /-- A declaration that exports names of the other module. -/
  | reExport
  deriving Repr, DecidableEq

/-- The written form of the kind. -/
def ImportKind.name : ImportKind → String
  | .static => "static"
  | .require => "require"
  | .dynamic => "dynamic"
  | .reExport => "re-export"

/-- Is the reference followed only at run time? -/
def ImportKind.isDynamic : ImportKind → Bool
  | .dynamic => true
  | _ => false

/-- A reference to another module. Lines count from one. -/
structure Import where
  specifier : String
  kind : ImportKind
  line : Nat
  deriving Repr, DecidableEq

/-- What one source file imports and exports, in source order. -/
structure ParsedFile where
  imports : List Import := []
  exports : List String := []
  deriving Repr, DecidableEq

/-! ## Specifiers -/

/-- A relative path: the directory itself, its parent, or a path that starts at one of them. -/
def isRelativeSpecifier : List Char → Bool
  | ['.'] | ['.', '.'] => true
  | '.' :: '/' :: _ => true
  | '.' :: '.' :: '/' :: _ => true
  | _ => false

/-- The package that a specifier names. A scoped name has two components; a subpath after the name
is not part of it. Paths, relative or absolute, and a scope alone name no package. -/
def packageNameOf : List Char → Option (List Char)
  | [] => none
  | '.' :: _ => none
  | '/' :: _ => none
  | '@' :: rest =>
    match rest.dropWhile (· != '/') with
    | [] => none
    | _ :: inner => some ('@' :: rest.takeWhile (· != '/') ++ '/' :: inner.takeWhile (· != '/'))
  | specifier => some (specifier.takeWhile (· != '/'))

theorem not_isRelative_of_packageName {specifier name : List Char}
    (h : packageNameOf specifier = some name) : isRelativeSpecifier specifier = false := by
  unfold isRelativeSpecifier
  split <;> simp_all [packageNameOf]

/-- Is the specifier a relative path? -/
def Import.isRelative (i : Import) : Bool :=
  isRelativeSpecifier i.specifier.toList

/-- The package that the import names, if any. -/
def Import.packageName (i : Import) : Option String :=
  (packageNameOf i.specifier.toList).map String.ofList

end DepGraph
