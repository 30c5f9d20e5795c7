import Mathlib
import VariantCache.Document.Path

/-!
# What is laid over a document

A document comes about by assignments, each of which lays a value over what is at the end of some
steps. Only assignments that go into the value of a name can change it (`Assignment.inside`), as
long as none makes anything but a table of the value around it (`Value.get_applyAll`). So the
value of a setting is what its own assignments make of it, one after the other, whatever is
assigned elsewhere (`setting_merge`).
-/

namespace VariantCache.Document

namespace Value

/-! ### Names in tables -/

/-- The names in a table. -/
def names (v : Value) : List String := v.entries.map (·.1)

theorem mem_names_put {name other : String} {value : Value} {entries : List (String × Value)} :
    other ∈ (put name value entries).map (·.1) ↔ other = name ∨ other ∈ entries.map (·.1) := by
  induction entries with
  | nil => simp [put]
  | cons entry rest ih =>
    rw [put]
    split
    · next same =>
      subst same
      simp
    · simp only [List.map_cons, List.mem_cons, ih]
      exact or_left_comm

theorem nodup_names_put {entries : List (String × Value)} (h : (entries.map (·.1)).Nodup)
    (name : String) (value : Value) : ((put name value entries).map (·.1)).Nodup := by
  induction entries with
  | nil => simp [put]
  | cons entry rest ih =>
    rw [List.map_cons, List.nodup_cons] at h
    rw [put]
    split
    · next same =>
      rw [List.map_cons, List.nodup_cons, ← same]
      exact h
    · next other =>
      rw [List.map_cons, List.nodup_cons, mem_names_put, not_or]
      exact ⟨⟨other, h.1⟩, ih h.2⟩

theorem mem_names_set {v new : Value} {name other : String} :
    other ∈ (v.set name new).names ↔ other = name ∨ other ∈ v.names := mem_names_put

theorem nodup_names_set {v : Value} (h : v.names.Nodup) (name : String) (new : Value) :
    (v.set name new).names.Nodup := nodup_names_put h name new

theorem get_orTable (v : Value) (name : String) : v.orTable.get name = v.get name := by
  cases v <;> rfl

end Value

/-! ### Assignments -/

/-- A value that is laid over what is at the end of some steps. -/
structure Assignment where
  steps : List Step
  value : Value

namespace Assignment

/-- The assignment that an entry of a document stands for. -/
def ofEntry (entry : String × Value) : Assignment :=
  let path := (Path.parse? entry.1).getD ⟨entry.1, []⟩
  ⟨.name path.first :: path.steps, entry.2⟩

/-- What an assignment makes of a value. -/
def apply (a : Assignment) (v : Value) : Value := v.updateAt (Value.overlay · a.value) a.steps

/-- What an assignment to a value assigns to the value of a name in it. -/
def inside (name : String) : Assignment → List Assignment
  | ⟨[], .table entries⟩ => (entries.filter (·.1 == name)).map fun entry => ⟨[], entry.2⟩
  | ⟨.name other :: rest, value⟩ => if other = name then [⟨rest, value⟩] else []
  | _ => []

/-- The assignment is to names in a table. -/
def isToNames : Assignment → Bool
  | ⟨[], .table _⟩ => true
  | ⟨.name _ :: _, _⟩ => true
  | _ => false

/-- The assignment is to an item of a list. -/
def isToItem : Assignment → Bool
  | ⟨.index _ :: _, _⟩ => true
  | _ => false

end Assignment

namespace Value

/-- What assignments make of a value, one after the other. -/
def applyAll (v : Value) (as : List Assignment) : Value := as.foldl (fun v a => a.apply v) v

theorem applyAll_append (v : Value) (as bs : List Assignment) :
    v.applyAll (as ++ bs) = (v.applyAll as).applyAll bs := List.foldl_append

theorem get_overlayAll (v : Value) (entries : List (String × Value)) (name : String) :
    (v.overlayAll entries).get name =
      (v.get name).applyAll ((entries.filter (·.1 == name)).map fun entry => ⟨[], entry.2⟩) := by
  induction entries generalizing v with
  | nil => rfl
  | cons entry rest ih =>
    obtain ⟨other, new⟩ := entry
    rw [overlayAll, ih, get_set]
    by_cases same : name = other
    · subst same
      rw [if_pos rfl, List.filter_cons_of_pos (by simp)]
      rfl
    · rw [if_neg same, List.filter_cons_of_neg (by simpa using Ne.symm same)]

/-- An assignment changes the value of a name only where it goes into it. -/
theorem get_apply {a : Assignment} (h : a.isToNames) (v : Value) (name : String) :
    (a.apply v).get name = (v.get name).applyAll (a.inside name) := by
  obtain ⟨steps, value⟩ := a
  cases steps with
  | nil =>
    cases value with
    | table entries =>
      show (overlay v (table entries)).get name = _
      rw [overlay, get_overlayAll, get_orTable]
      rfl
    | _ => cases h
  | cons step rest =>
    cases step with
    | index number => cases h
    | name other =>
      show (v.set other (updateAt (overlay · value) rest (v.get other))).get name = _
      rw [get_set, Assignment.inside]
      by_cases same : name = other
      · subst same
        rw [if_pos rfl, if_pos rfl]
        rfl
      · rw [if_neg same, if_neg (Ne.symm same)]
        rfl

/-- **The value of a name is made by the assignments that go into it**, and by no others. -/
theorem get_applyAll {as : List Assignment} (h : ∀ a ∈ as, a.isToNames) (v : Value)
    (name : String) :
    (v.applyAll as).get name = (v.get name).applyAll (as.flatMap (Assignment.inside name)) := by
  induction as generalizing v with
  | nil => rfl
  | cons a rest ih =>
    rw [List.flatMap_cons, applyAll_append, ← get_apply (h a List.mem_cons_self)]
    exact ih (fun b hb => h b (List.mem_cons_of_mem a hb)) _

end Value

/-! ### Sections -/

namespace Value

/-- The value is a table with one value for each of its names, or there is nothing. -/
inductive IsSection : Value → Prop where
  | null : IsSection null
  | table {entries : List (String × Value)} (nodup : (entries.map (·.1)).Nodup) :
    IsSection (table entries)

namespace IsSection

variable {v : Value}

theorem nodup (h : v.IsSection) : v.names.Nodup := by
  cases h with
  | null => exact List.nodup_nil
  | table nodup => exact nodup

theorem set (h : v.IsSection) (name : String) (new : Value) : (v.set name new).IsSection :=
  .table (nodup_names_set h.nodup name new)

theorem orTable (h : v.IsSection) : v.orTable.IsSection := by
  cases h with
  | null => exact .table List.nodup_nil
  | table nodup => exact .table nodup

theorem overlayAll (h : v.IsSection) (entries : List (String × Value)) :
    (v.overlayAll entries).IsSection := by
  induction entries generalizing v with
  | nil => exact h
  | cons entry rest ih => exact ih (h.set _ _)

theorem apply (h : v.IsSection) {a : Assignment} (toNames : a.isToNames) :
    (a.apply v).IsSection := by
  obtain ⟨steps, value⟩ := a
  cases steps with
  | nil =>
    cases value with
    | table entries =>
      show (overlay v (Value.table entries)).IsSection
      rw [overlay]
      exact h.orTable.overlayAll entries
    | _ => cases toNames
  | cons step rest =>
    cases step with
    | index number => cases toNames
    | name name => exact h.set _ _

/-- Assignments to names keep a table. -/
theorem applyAll {as : List Assignment} (toNames : ∀ a ∈ as, a.isToNames) (h : v.IsSection) :
    (v.applyAll as).IsSection := by
  induction as generalizing v with
  | nil => exact h
  | cons a rest ih =>
    exact ih (fun b hb => toNames b (List.mem_cons_of_mem a hb))
      (h.apply (toNames a List.mem_cons_self))

end IsSection

end Value

/-! ### Documents -/

/-- The assignments that documents stand for. -/
def assignments (documents : List (List (String × Value))) : List Assignment :=
  documents.flatten.map .ofEntry

theorem merge_eq (documents : List (List (String × Value))) :
    merge documents = (Value.table []).applyAll (assignments documents) := by
  rw [merge, assignments, Value.applyAll, List.foldl_map, List.foldl_flatten]
  rfl

theorem isToNames_of_mem_assignments {documents : List (List (String × Value))} {a : Assignment}
    (h : a ∈ assignments documents) : a.isToNames := by
  obtain ⟨entry, -, rfl⟩ := List.mem_map.1 h
  rfl

/-- The assignments to a table in documents. -/
def assignmentsTo (table : String) (documents : List (List (String × Value))) : List Assignment :=
  (assignments documents).flatMap (Assignment.inside table)

/-- The assignments to a setting in a table in documents. -/
def assignmentsIn (table name : String) (documents : List (List (String × Value))) :
    List Assignment :=
  (assignmentsTo table documents).flatMap (Assignment.inside name)

theorem get_merge (documents : List (List (String × Value))) (table : String) :
    (merge documents).get table = Value.null.applyAll (assignmentsTo table documents) := by
  rw [merge_eq, Value.get_applyAll fun a => isToNames_of_mem_assignments]
  rfl

theorem isSection_merge (documents : List (List (String × Value))) :
    (merge documents).IsSection := by
  rw [merge_eq]
  exact .applyAll (fun a => isToNames_of_mem_assignments) (.table List.nodup_nil)

theorem isSection_get_merge {table : String} {documents : List (List (String × Value))}
    (h : ∀ a ∈ assignmentsTo table documents, a.isToNames) :
    ((merge documents).get table).IsSection := by
  rw [get_merge]
  exact .applyAll h .null

/-- **The value of a setting is made by the assignments to it**, if all assignments to its table
are to names there. -/
theorem setting_merge {table : String} {documents : List (List (String × Value))}
    (h : ∀ a ∈ assignmentsTo table documents, a.isToNames) (name : String) :
    ((merge documents).get table).get name =
      Value.null.applyAll (assignmentsIn table name documents) := by
  rw [get_merge, Value.get_applyAll h]
  rfl

end VariantCache.Document
