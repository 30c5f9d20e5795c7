import VariantCache.Number.Binary64

/-!
# Values of documents

A document is a tree of tables and lists with texts, numbers and truth values at
its leaves. A table has at most one value for each name. Documents are laid over
each other: a table over a table goes name by name, and anything else replaces
what it is laid over.
-/

namespace VariantCache.Document

/-- A value in a document. -/
inductive Value where
  /-- Nothing at all. -/
  | null
  | bool (b : Bool)
  | integer (n : Int)
  | real (x : Binary64)
  | text (s : String)
  | list (items : List Value)
  | table (entries : List (String × Value))

instance : Inhabited Value := ⟨.null⟩

namespace Value

/-- The value of a name among the entries of a table. -/
def lookup? (entries : List (String × Value)) (name : String) : Option Value :=
  (entries.find? (·.1 == name)).map (·.2)

/-- The entries with a new value for a name, in the place of the old one if there is one. -/
def put (name : String) (value : Value) : List (String × Value) → List (String × Value)
  | [] => [(name, value)]
  | entry :: rest =>
    if entry.1 = name then (name, value) :: rest else entry :: put name value rest

/-- The entries of a table. Anything else has none. -/
def entries : Value → List (String × Value)
  | table entries => entries
  | _ => []

/-- The items of a list. Anything else has none. -/
def items : Value → List Value
  | list items => items
  | _ => []

/-- The value of a name in a table, and nothing in any other value. -/
def get (v : Value) (name : String) : Value := (lookup? v.entries name).getD null

/-- The value with a new value for a name. Anything but a table gives way to a new table. -/
def set (v : Value) (name : String) (new : Value) : Value := table (put name new v.entries)

/-- The table that nothing stands for; any other value stands for itself. -/
def orTable : Value → Value
  | null => table []
  | v => v

mutual

/-- A value laid over another. -/
def overlay (old : Value) : Value → Value
  | table entries => overlayAll old.orTable entries
  | new => new

/-- The entries of a table laid over a value. -/
def overlayAll (old : Value) : List (String × Value) → Value
  | [] => old
  | (name, new) :: rest => overlayAll (old.set name (overlay (old.get name) new)) rest

end

/-! ### Names in tables -/

theorem lookup?_put (entries : List (String × Value)) (name other : String) (value : Value) :
    lookup? (put name value entries) other =
      if other = name then some value else lookup? entries other := by
  induction entries with
  | nil =>
    by_cases h : other = name
    · simp [put, lookup?, h]
    · simp [put, lookup?, h, Ne.symm h]
  | cons entry rest ih =>
    simp only [put]
    split
    · next he =>
      by_cases h : other = name
      · simp [lookup?, h]
      · simp [lookup?, h, he, Ne.symm h]
    · next he =>
      by_cases ho : entry.1 = other
      · have h : other ≠ name := fun h => he (ho.trans h)
        simp [lookup?, ho, h]
      · simpa [lookup?, ho] using ih

theorem get_set (v : Value) (name other : String) (new : Value) :
    (v.set name new).get other = if other = name then new else v.get other := by
  simp only [get, set, entries, lookup?_put]
  split <;> rfl

end Value
end VariantCache.Document
