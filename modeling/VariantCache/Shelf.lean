import VariantCache.Representation.Basic

/-!
# Shared representations

Several entries of a cache may hold one and the same representation, and a body
that is made for one of them is there for all. The bodies therefore stand on a
shelf, and an entry holds the details of its representation and the place of its
bodies. A copy of a representation has a place of its own.
-/

namespace VariantCache

/-- A representation whose bodies stand on a shelf. -/
structure Shared where
  details : Details
  /-- Where the bodies stand. -/
  place : Nat

/-- The bodies of all representations in use. -/
structure Shelf where
  bodies : Array Bodies
  /-- The codings of the bodies that were made from others, last first. -/
  conversions : List Coding

namespace Shelf

/-- The shelf without bodies. -/
def empty : Shelf := ⟨#[], []⟩

/-- The bodies of a representation. -/
def bodiesOf (shelf : Shelf) (s : Shared) : Bodies := shelf.bodies.getD s.place .empty

/-- A representation as it is now. -/
def read (shelf : Shelf) (s : Shared) : Representation := ⟨s.details, shelf.bodiesOf s⟩

/-- Puts a representation on the shelf. -/
def add (shelf : Shelf) (r : Representation) : Shared × Shelf :=
  (⟨r.details, shelf.bodies.size⟩, { shelf with bodies := shelf.bodies.push r.bodies })

/-- Puts a copy of a representation on the shelf. -/
def copy (shelf : Shelf) (s : Shared) : Shared × Shelf := shelf.add (shelf.read s)

/-- Puts in the body of a representation in a coding. -/
def insertBody (shelf : Shelf) (s : Shared) (coding : Coding) (body : Bytes) : Shelf :=
  { shelf with
    bodies := shelf.bodies.setIfInBounds s.place ((shelf.bodiesOf s).insert coding body) }

/-- The body of a representation in a coding. One that had to be made is kept. -/
def fetch (shelf : Shelf) (s : Shared) (coding : Coding) : Option Bodies.Answer × Shelf :=
  match (shelf.bodiesOf s).fetch coding with
  | (some answer, bodies) =>
    if answer.isNew then
      (some answer, ⟨shelf.bodies.setIfInBounds s.place bodies, coding :: shelf.conversions⟩)
    else (some answer, shelf)
  | (none, _) => (none, shelf)

/-- The bytes that a representation takes now. -/
def sizeOf (shelf : Shelf) (s : Shared) : Nat := (shelf.read s).size

end Shelf
end VariantCache
