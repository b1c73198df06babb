import DepGraph.Resolve.PythonModule
import DepGraph.Resolve.Relative
import DepGraph.Text.Quoted

/-!
# Registries of resolvers

Resolvers are asked in the order in which their names were registered, and the first answer counts.
A resolver that is registered again takes the place that its name has.

* `names_register`: a new name goes to the end, and a known one leaves the names as they are.
* `names_unregister`: a name that is taken out leaves the others in their order.
* `remove_fst_iff`: it was there if one can tell that it was taken out.
-/

namespace DepGraph

/-- Resolvers in the order in which they are asked. -/
structure ResolverRegistry where
  resolvers : List Resolver := []

namespace ResolverRegistry

/-- The registry without resolvers. -/
def empty : ResolverRegistry := {}

/-- The names, in order. -/
def names (r : ResolverRegistry) : List String :=
  r.resolvers.map (·.name)

/-- The resolver of a name. -/
def get? (r : ResolverRegistry) (name : String) : Option Resolver :=
  r.resolvers.find? (·.name == name)

/-- Is there no resolver? -/
def isEmpty (r : ResolverRegistry) : Bool :=
  r.resolvers.isEmpty

/-- Puts a resolver into the place of its name, or at the end. -/
def register (r : ResolverRegistry) (resolver : Resolver) : ResolverRegistry :=
  if r.names.contains resolver.name then
    ⟨r.resolvers.map fun old => if old.name == resolver.name then resolver else old⟩
  else ⟨r.resolvers ++ [resolver]⟩

/-- Takes the resolver of a name out. -/
def unregister (r : ResolverRegistry) (name : String) : ResolverRegistry :=
  ⟨r.resolvers.filter (·.name != name)⟩

/-- Takes the resolver of a name out, and tells whether there was one: fewer are left then. -/
def remove (r : ResolverRegistry) (name : String) : Bool × ResolverRegistry :=
  let rest := r.unregister name
  (rest.resolvers.length != r.resolvers.length, rest)

/-- The registry with the resolvers for scripts and for Python sources. -/
def standard : ResolverRegistry :=
  (empty.register .relative).register .python

/-- What the import stands for. -/
def resolve (r : ResolverRegistry) (scope : Scope) (i : Import) (importer : Path) :
    Option Resolution :=
  r.resolvers.findSome? fun resolver => resolver.resolve scope i importer

/-- The registry as shown to people: the names of its resolvers. -/
def description (r : ResolverRegistry) : String :=
  "[" ++ ", ".intercalate (r.names.map Text.quoted) ++ "]"

theorem names_register (r : ResolverRegistry) (resolver : Resolver) :
    (r.register resolver).names =
      if r.names.contains resolver.name then r.names else r.names ++ [resolver.name] := by
  unfold register
  split
  · simp only [names, List.map_map]
    refine List.map_congr_left fun old _ => ?_
    by_cases h : old.name = resolver.name <;> simp [h]
  · simp [names]

theorem names_unregister (r : ResolverRegistry) (name : String) :
    (r.unregister name).names = r.names.filter (· != name) := by
  simp only [unregister, names, List.filter_map]
  rfl

theorem remove_fst_iff (r : ResolverRegistry) (name : String) :
    (r.remove name).1 = true ↔ name ∈ r.names := by
  have hlength : (r.unregister name).resolvers.length = r.resolvers.length ↔
      ∀ resolver ∈ r.resolvers, (resolver.name != name) = true :=
    List.length_filter_eq_length_iff
  rw [remove, bne_iff_ne, ne_eq, hlength]
  simp [names]

end ResolverRegistry

end DepGraph
