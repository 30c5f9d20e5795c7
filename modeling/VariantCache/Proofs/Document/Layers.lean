import VariantCache.Proofs.Document.Overlay

/-!
# Layers over a document

A layer gives a value, or an empty table, or nothing for a setting, and what it gives is laid over
what the layers below have given. `Follows` says what can come of that: every assignment keeps it
(`Follows.apply`), so it holds for every layer (`follows_layer`). What comes of it can be
told from the value of the layer alone, unless that is a table over a table or gives nothing.
-/

namespace VariantCache.Document

namespace Value

/-! ### Nulls -/

mutual

/-- There is a null somewhere in the value. -/
def hasNull : Value → Bool
  | null => true
  | list items => anyHasNull items
  | table entries => anyEntryHasNull entries
  | _ => false

/-- There is a null somewhere in some values. -/
def anyHasNull : List Value → Bool
  | [] => false
  | v :: rest => hasNull v || anyHasNull rest

/-- There is a null somewhere in some entries. -/
def anyEntryHasNull : List (String × Value) → Bool
  | [] => false
  | entry :: rest => hasNull entry.2 || anyEntryHasNull rest

end

theorem hasNull_entry {entries : List (String × Value)} (h : ¬ (table entries).hasNull)
    {entry : String × Value} (member : entry ∈ entries) : ¬ entry.2.hasNull := by
  have none : anyEntryHasNull entries = false := by simpa [hasNull] using h
  induction entries with
  | nil => cases member
  | cons first rest ih =>
    rw [anyEntryHasNull, Bool.or_eq_false_iff] at none
    rcases List.mem_cons.1 member with rfl | later
    · simp [none.1]
    · exact ih (by simp [hasNull, none.2]) later none.2

/-! ### What is given -/

/-- The value says something: it is not null, and not an empty table. -/
def isGiven : Value → Bool
  | null | table [] => false
  | _ => true

/-- The last of some values that says something; null if there is none. -/
def highest (values : List Value) : Value := ((values.filter isGiven).getLast?).getD null

theorem highest_concat (values : List Value) (v : Value) :
    highest (values ++ [v]) = if v.isGiven then v else highest values := by
  unfold highest
  rw [List.filter_append]
  by_cases given : v.isGiven
  · rw [if_pos given, List.filter_cons_of_pos given, List.filter_nil, List.getLast?_concat]
    rfl
  · rw [if_neg given, List.filter_cons_of_neg given, List.filter_nil, List.append_nil]

/-- The value is no table, and not null. -/
def isLeaf : Value → Bool
  | null | table _ => false
  | _ => true

end Value

open Value

/-! ### What comes of a layer -/

/-- The names of the first value are in the second one too, and there is one value for each. -/
structure NamesWithin (own merged : Value) : Prop where
  nodup : own.names.Nodup
  subset : own.names ⊆ merged.names

/-- What a merged value can be when its topmost layer has the value `own` and the layers below have
the value `below`. That both are lists is possible only where items are assigned to. -/
inductive Follows (toItems : Prop) (below : Value) : Value → Value → Prop where
  | unset : Follows toItems below null below
  | empty : Follows toItems below (table []) below.orTable
  | leaf {v : Value} (h : v.isLeaf) : Follows toItems below v v
  | tables {own merged : List (String × Value)} (h : own ≠ [])
    (names : NamesWithin (table own) (table merged)) :
    Follows toItems below (table own) (table merged)
  | lists {own merged : List Value} (h : toItems) : Follows toItems below (list own) (list merged)

namespace Follows

variable {toItems : Prop} {below own merged : Value}

theorem namesWithin (h : Follows toItems below own merged) : NamesWithin own merged := by
  cases h with
  | unset => exact ⟨List.nodup_nil, List.nil_subset _⟩
  | empty => exact ⟨List.nodup_nil, List.nil_subset _⟩
  | leaf h =>
    cases own with
    | null | table => cases h
    | _ => exact ⟨List.nodup_nil, List.nil_subset _⟩
  | tables h names => exact names
  | lists => exact ⟨List.nodup_nil, List.nil_subset _⟩

theorem set (names : NamesWithin own merged) (name : String) (new new' : Value) :
    Follows toItems below (own.set name new) (merged.set name new') := by
  refine .tables ?_ ⟨nodup_names_set names.nodup name new, fun other h => ?_⟩
  · intro none
    have member : name ∈ (own.set name new).names := mem_names_set.2 (Or.inl rfl)
    rw [Value.set, Value.names, Value.entries, none] at member
    cases member
  · rcases mem_names_set.1 h with rfl | old
    · exact mem_names_set.2 (Or.inl rfl)
    · exact mem_names_set.2 (Or.inr (names.subset old))

/-- A table that is not empty makes a table of both. -/
theorem overlayAll (names : NamesWithin own merged) (entry : String × Value)
    (rest : List (String × Value)) :
    Follows toItems below (own.overlayAll (entry :: rest)) (merged.overlayAll (entry :: rest)) := by
  induction rest generalizing own merged entry with
  | nil => exact set names _ _ _
  | cons next rest ih =>
    rw [Value.overlayAll, Value.overlayAll]
    have begun : Follows toItems below (own.set entry.1 (overlay (own.get entry.1) entry.2))
      (merged.set entry.1 (overlay (merged.get entry.1) entry.2)) := set names _ _ _
    exact ih begun.namesWithin next

theorem orTable (h : Follows toItems below own merged) :
    Follows toItems below own.orTable merged.orTable := by
  cases h with
  | unset => exact .empty
  | empty =>
    have same : below.orTable.orTable = below.orTable := by cases below <;> rfl
    rw [same]
    exact .empty
  | leaf h =>
    cases own with
    | null | table => cases h
    | _ => exact .leaf h
  | tables h names => exact .tables h names
  | lists h => exact .lists h

/-- Every assignment keeps what can come of a layer. -/
theorem apply (h : Follows toItems below own merged) {a : Assignment} (noNull : ¬ a.value.hasNull)
    (items : a.isToItem → toItems) : Follows toItems below (a.apply own) (a.apply merged) := by
  obtain ⟨steps, value⟩ := a
  cases steps with
  | nil =>
    show Follows toItems below (own.overlay value) (merged.overlay value)
    cases value with
    | null => exact absurd rfl noNull
    | table entries =>
      rw [overlay, overlay]
      cases entries with
      | nil => exact h.orTable
      | cons entry rest => exact overlayAll h.orTable.namesWithin entry rest
    | _ => exact .leaf rfl
  | cons step rest =>
    cases step with
    | name name => exact set h.namesWithin name _ _
    | index number => exact .lists (items rfl)

theorem applyAll {as : List Assignment} (noNulls : ∀ a ∈ as, ¬ a.value.hasNull)
    (items : ∀ a ∈ as, a.isToItem → toItems) (h : Follows toItems below own merged) :
    Follows toItems below (own.applyAll as) (merged.applyAll as) := by
  induction as generalizing own merged with
  | nil => exact h
  | cons a rest ih =>
    exact ih (fun b hb => noNulls b (List.mem_cons_of_mem a hb))
      (fun b hb => items b (List.mem_cons_of_mem a hb))
      (h.apply (noNulls a List.mem_cons_self) (items a List.mem_cons_self))

end Follows

/-! ### Settings of layers -/

/-- What documents laid over each other assign to a setting. -/
def settingOf (table name : String) (documents : List (List (String × Value))) : Value :=
  Value.null.applyAll (assignmentsIn table name documents)

theorem assignmentsIn_append (table name : String) (first rest : List (List (String × Value))) :
    assignmentsIn table name (first ++ rest) =
      assignmentsIn table name first ++ assignmentsIn table name rest := by
  simp only [assignmentsIn, assignmentsTo, assignments, List.flatten_append, List.map_append,
    List.flatMap_append]

/-- A layer without nulls changes a setting in one of the ways that are possible. -/
theorem follows_layer {table name : String} {toItems : Prop} {layer : List (String × Value)}
    (noNulls : ∀ a ∈ assignmentsIn table name [layer], ¬ a.value.hasNull)
    (items : ∀ a ∈ assignmentsIn table name [layer], a.isToItem → toItems)
    (below : List (List (String × Value))) :
    Follows toItems (settingOf table name below) (settingOf table name [layer])
      (settingOf table name (below ++ [layer])) := by
  rw [settingOf, settingOf, settingOf, assignmentsIn_append, applyAll_append]
  exact Follows.applyAll noNulls items .unset

theorem noNull_inside {name : String} {a b : Assignment} (h : ¬ a.value.hasNull)
    (hb : b ∈ a.inside name) : ¬ b.value.hasNull := by
  unfold Assignment.inside at hb
  split at hb
  · obtain ⟨entry, member, rfl⟩ := List.mem_map.1 hb
    exact hasNull_entry h (List.mem_of_mem_filter member)
  · split at hb
    · rw [List.mem_singleton.1 hb]
      exact h
    · cases hb
  · cases hb

/-- Documents without nulls assign none to a setting. -/
theorem noNull_of_mem_assignmentsIn {table name : String} {documents : List (List (String × Value))}
    (h : ∀ document ∈ documents, ∀ entry ∈ document, ¬ entry.2.hasNull) {a : Assignment}
    (ha : a ∈ assignmentsIn table name documents) : ¬ a.value.hasNull := by
  obtain ⟨b, hb, inside⟩ := List.mem_flatMap.1 ha
  obtain ⟨c, hc, inside'⟩ := List.mem_flatMap.1 hb
  obtain ⟨entry, listed, rfl⟩ := List.mem_map.1 hc
  obtain ⟨document, hd, he⟩ := List.mem_flatten.1 listed
  exact noNull_inside (noNull_inside (h document hd entry he) inside') inside

end VariantCache.Document
