import Std.Data.TreeMap

/-!
# Manifests

A manifest declares packages by name, in four classes, each with one version. `select` lists the
declarations of the classes that count.

* `mem_select`: what is selected is declared in a class that counts.
-/

namespace DepGraph

/-- What a package is needed for. -/
inductive DependencyClass where
  /-- At run time. -/
  | production
  /-- To build and to test. -/
  | development
  /-- At run time, provided by whoever uses the package. -/
  | peer
  /-- At run time where it can be had. -/
  | optional
  deriving Repr, DecidableEq

namespace DependencyClass

/-- The written form of the class. -/
def name : DependencyClass → String
  | .production => "production"
  | .development => "development"
  | .peer => "peer"
  | .optional => "optional"

/-- The classes, in the order in which their declarations count. -/
def all : List DependencyClass :=
  [.production, .development, .peer, .optional]

end DependencyClass

/-- A declared package. -/
structure Dependency where
  name : String
  version : String
  dependencyClass : DependencyClass
  deriving Repr, DecidableEq

/-- The declaration as shown to people. -/
def Dependency.text (d : Dependency) : String :=
  s!"{d.name}@{d.version} ({d.dependencyClass.name})"

/-- Versions by the name of the package. -/
abbrev Versions := Std.TreeMap String String

/-- The declared versions of each class. -/
structure Manifest where
  production : Versions := ∅
  development : Versions := ∅
  peer : Versions := ∅
  optional : Versions := ∅

/-- Which classes count beside the production class. -/
structure Selection where
  development : Bool := false
  peer : Bool := false
  optional : Bool := false
  deriving Repr, DecidableEq

/-- Does the class count? -/
def Selection.includes (s : Selection) : DependencyClass → Bool
  | .production => true
  | .development => s.development
  | .peer => s.peer
  | .optional => s.optional

namespace Manifest

/-- The declared versions of a class. -/
def versions (m : Manifest) : DependencyClass → Versions
  | .production => m.production
  | .development => m.development
  | .peer => m.peer
  | .optional => m.optional

/-- The manifest with these production packages; a later version of a package replaces an earlier
one. -/
def ofPairs (pairs : List (String × String)) : Manifest where
  production := pairs.foldl (fun versions pair => versions.insert pair.1 pair.2) ∅

/-- The declarations of a class, by name. -/
def declared (m : Manifest) (c : DependencyClass) : List Dependency :=
  (m.versions c).toList.map fun entry => ⟨entry.1, entry.2, c⟩

/-- The declarations of the classes that count: class after class, by name in each. -/
def select (m : Manifest) (s : Selection) : List Dependency :=
  (DependencyClass.all.filter s.includes).flatMap m.declared

/-- The number of declarations. -/
def size (m : Manifest) : Nat :=
  m.production.size + m.development.size + m.peer.size + m.optional.size

/-- Is nothing declared? -/
def isEmpty (m : Manifest) : Bool :=
  m.size == 0

theorem mem_select {m : Manifest} {s : Selection} {d : Dependency} (h : d ∈ m.select s) :
    s.includes d.dependencyClass ∧ (m.versions d.dependencyClass)[d.name]? = some d.version := by
  simp only [select, List.mem_flatMap, List.mem_filter, declared, List.mem_map] at h
  obtain ⟨c, ⟨_, hc⟩, entry, hentry, rfl⟩ := h
  exact ⟨hc, Std.TreeMap.mem_toList_iff_getElem?_eq_some.mp hentry⟩

end Manifest

end DepGraph
