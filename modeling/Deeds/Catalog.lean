import Deeds.Deed

/-!
# Catalogs

A catalog holds the templates of valid definitions with different names, in the order in which they
were written.

* `Catalog.load` : the catalog of a list of definitions, or all their errors.
-/

namespace Deeds

/-- Every action that can be invoked. -/
structure Catalog where
  templates : List Template
  deriving DecidableEq

namespace Catalog

/-- No actions. -/
def empty : Catalog := ⟨[]⟩

instance : EmptyCollection Catalog := ⟨empty⟩

/-- The position of a name. -/
def slot? (c : Catalog) (name : String) : Option Nat := c.templates.findIdx? (·.name == name)

/-- The template of a name. -/
def get? (c : Catalog) (name : String) : Option Template := c.templates.find? (·.name == name)

/-- There is a template of this name. -/
def contains (c : Catalog) (name : String) : Bool := (c.slot? name).isSome

/-- The names, in order. -/
def names (c : Catalog) : List String := c.templates.map Template.name

/-- How many templates there are. -/
def size (c : Catalog) : Nat := c.templates.length

/-- There is no template. -/
def isEmpty (c : Catalog) : Bool := c.templates.isEmpty

/-- A new deed of a named template. -/
def instantiate (c : Catalog) (id : DeedId) (name : String) (target : Target) : Option Deed :=
  (c.get? name).map fun t => .ofTemplate id t target

/-- Adds the template of one definition, or reports its errors. -/
def register (c : Catalog) (d : Definition) : Catalog × List LoadError :=
  match Template.ofDefinition d with
  | .error errors => (c, errors)
  | .ok t =>
    if c.contains t.name then (c, [⟨t.name, .duplicateName⟩])
    else (⟨c.templates ++ [t]⟩, [])

/-- Adds the templates of all definitions in turn, and collects the errors. -/
def registerAll (c : Catalog) : List Definition → Catalog × List LoadError
  | [] => (c, [])
  | d :: rest =>
    let (c, errors) := c.register d
    let (c, more) := c.registerAll rest
    (c, errors ++ more)

/-- The catalog of all definitions, or everything that is wrong with them. -/
def load (definitions : List Definition) : Except LoadErrors Catalog :=
  match empty.registerAll definitions with
  | (c, []) => .ok c
  | (_, errors) => .error ⟨errors⟩

end Catalog

end Deeds
