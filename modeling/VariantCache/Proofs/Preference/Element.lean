import VariantCache.Preference
import VariantCache.Proofs.Number.Weight
import VariantCache.Proofs.Text.Spelling

/-!
# What an element of a list states

An element between two commas is a list of parts between semicolons: a name, and settings of a key
and a value each. The texts set for the key `q` have to be weights, and the last of them counts;
the other settings are the parameters. So an element states something or is malformed (`States`,
`Malformed`): it is read as what it states (`parse?_eq_some_iff`), with the weight nearest to the
number that is spelled, and a malformed one is not read (`parse?_eq_none_iff`).
-/

namespace VariantCache.Preference

open Text

variable {element : List Char} {parts : List (List Char)} {p q : Preference}

/-! ### Parts -/

/-- The parts of an element, without the blanks around them. -/
def partsOf (element : List Char) : List (List Char) := (splitAt ';' element).map trimmed

/-- The name in an element, as it is written. -/
def nameOf (element : List Char) : List Char := (partsOf element).headD []

/-- The keys and the values in some parts. Empty parts have none. -/
def settings (parts : List (List Char)) : List (List Char × List Char) :=
  (parts.filter (! ·.isEmpty)).map splitParameter

/-- The texts that some parts set as weights. -/
def weightTexts (parts : List (List Char)) : List (List Char) :=
  ((settings parts).filter (·.1 == ['q'])).map (·.2)

/-- The parameters in some parts: all settings but the weights. -/
def parametersIn (parts : List (List Char)) : List (String × String) :=
  ((settings parts).filter (·.1 != ['q'])).map fun (key, value) => (String.ofList key, String.ofList value)

theorem addParameter?_nil (p : Preference) : addParameter? p [] = some p := rfl

theorem weightTexts_cons_nil : weightTexts ([] :: parts) = weightTexts parts := rfl

theorem parametersIn_cons_nil : parametersIn ([] :: parts) = parametersIn parts := rfl

section Cons

variable {part : List Char} (h : part.isEmpty = false)

include h

theorem settings_cons : settings (part :: parts) = splitParameter part :: settings parts := by
  rw [settings, List.filter_cons_of_pos (by rw [h]; rfl), List.map_cons, settings]

theorem weightTexts_cons_of_eq (key : (splitParameter part).1 = ['q']) :
    weightTexts (part :: parts) = (splitParameter part).2 :: weightTexts parts := by
  rw [weightTexts, settings_cons h, List.filter_cons_of_pos (by rw [key]; rfl), List.map_cons,
    weightTexts]

theorem weightTexts_cons_of_ne (key : (splitParameter part).1 ≠ ['q']) :
    weightTexts (part :: parts) = weightTexts parts := by
  rw [weightTexts, settings_cons h, List.filter_cons_of_neg (by simpa using key), weightTexts]

theorem parametersIn_cons_of_eq (key : (splitParameter part).1 = ['q']) :
    parametersIn (part :: parts) = parametersIn parts := by
  rw [parametersIn, settings_cons h, List.filter_cons_of_neg (by simpa using key), parametersIn]

theorem parametersIn_cons_of_ne (key : (splitParameter part).1 ≠ ['q']) :
    parametersIn (part :: parts) =
      (String.ofList (splitParameter part).1, String.ofList (splitParameter part).2) ::
        parametersIn parts := by
  rw [parametersIn, settings_cons h, List.filter_cons_of_pos (by simpa using key), List.map_cons,
    parametersIn]

end Cons

/-- Blanks around an element do not count. -/
theorem parts_trimmed (element : List Char) : partsOf (trimmed element) = partsOf element :=
  have ends : IgnoresEnds trimmed := ⟨trimmed_cons, trimmed_concat⟩
  (ends.pieces isBlank_semicolon).trimmed element

/-! ### Statements -/

/-- What an element states: a name, which is not empty, parameters, and a weight. That stands for the
number that the last text set as one spells, and for one where none is set. -/
structure States (element : List Char) (p : Preference) : Prop where
  named : nameOf element ≠ []
  name : p.name = String.ofList (lowered (nameOf element))
  parameters : p.parameters = parametersIn (partsOf element).tail
  stated : ∀ text ∈ weightTexts (partsOf element).tail, Weight.Stated text
  unweighted : weightTexts (partsOf element).tail = [] → p.weight.value = 1
  weighted : ∀ text ∈ (weightTexts (partsOf element).tail).getLast?, Weight.StatedAs text p.weight

/-- An element is malformed that has no name, or sets a weight that is none. -/
def Malformed (element : List Char) : Prop :=
  nameOf element = [] ∨ ∃ text ∈ weightTexts (partsOf element).tail, ¬Weight.Stated text

/-! ### Reading -/

/-- Some parts of an element are read when all texts that they set as weights are. Their parameters
come after those before them, and the last weight counts. -/
theorem foldlM_addParameter?_eq_some_iff :
    parts.foldlM addParameter? p = some q ↔
      q.name = p.name ∧ q.parameters = p.parameters ++ parametersIn parts ∧
        (∀ text ∈ weightTexts parts, Weight.Stated text) ∧
        (weightTexts parts).getLast?.elim (some p.weight) Weight.parse? = some q.weight := by
  induction parts generalizing p with
  | nil =>
    rw [List.foldlM_nil, Option.pure_def, Option.some.injEq]
    constructor
    · rintro rfl
      exact ⟨rfl, (List.append_nil _).symm, fun _ h => absurd h List.not_mem_nil, rfl⟩
    · rintro ⟨name, parameters, -, weight⟩
      have parameters := parameters.trans (List.append_nil _)
      have weight := Option.some.inj weight
      cases p
      cases q
      simp_all
  | cons part parts ih =>
    rw [List.foldlM_cons, Option.bind_eq_bind]
    cases empty : part.isEmpty with
    | true =>
      obtain rfl := List.isEmpty_iff.1 empty
      rw [addParameter?_nil, Option.bind_some, weightTexts_cons_nil, parametersIn_cons_nil]
      exact ih
    | false =>
      by_cases key : (splitParameter part).1 = ['q']
      · rw [weightTexts_cons_of_eq empty key, parametersIn_cons_of_eq empty key, List.forall_mem_cons,
          List.getLast?_cons, ← Weight.isSome_parse?_iff]
        simp only [addParameter?, empty, key, ↓reduceIte, Bool.false_eq_true]
        cases first : Weight.parse? (splitParameter part).2 with
        | none => simp
        | some w =>
          rw [Option.map_some, Option.bind_some, ih]
          -- The weight counts unless there is one after it.
          have last : (some ((weightTexts parts).getLast?.getD (splitParameter part).2)).elim
              (some p.weight) Weight.parse? =
                (weightTexts parts).getLast?.elim (some w) Weight.parse? := by
            cases (weightTexts parts).getLast? with
            | none => rw [Option.getD_none, Option.elim_some, Option.elim_none, first]
            | some text => rfl
          rw [last, Option.isSome_some]
          simp only [true_and]
      · rw [weightTexts_cons_of_ne empty key, parametersIn_cons_of_ne empty key]
        simp only [addParameter?, empty, key, ↓reduceIte, Bool.false_eq_true, Option.bind_some, ih]
        simp only [List.append_assoc, List.cons_append, List.nil_append]

/-- The weight that counts is that of the last text, or one without any. -/
theorem weight_counts_iff (texts : List (List Char)) (w : Weight) :
    texts.getLast?.elim (some .one) Weight.parse? = some w ↔
      (texts = [] → w.value = 1) ∧ ∀ text ∈ texts.getLast?, Weight.StatedAs text w := by
  cases last : texts.getLast? with
  | none =>
    rw [Option.elim_none, Option.some.injEq, eq_comm, ← Weight.value_eq_one_iff]
    simp [List.getLast?_eq_none_iff.1 last]
  | some text =>
    have nonempty : texts ≠ [] := by
      rintro rfl
      cases last
    rw [Option.elim_some, Weight.parse?_eq_some_iff]
    simp [nonempty]

/-- **An element is read as what it states.** -/
theorem parse?_eq_some_iff : parse? (trimmed element) = some p ↔ States element p := by
  have shape : partsOf (trimmed element) = nameOf element :: (partsOf element).tail := by
    rw [parts_trimmed, nameOf]
    cases h : partsOf element with
    | nil => exact absurd (List.map_eq_nil_iff.1 h) (splitAt_ne_nil ';' element)
    | cons name parts => rfl
  unfold parse?
  rw [show (splitAt ';' (trimmed element)).map trimmed = partsOf (trimmed element) from rfl, shape]
  simp only
  split
  · next unnamed =>
    refine iff_of_false (Option.some_ne_none p).symm fun states => ?_
    exact states.named (List.isEmpty_iff.1 unnamed)
  · next named =>
    rw [foldlM_addParameter?_eq_some_iff, List.nil_append, weight_counts_iff]
    constructor
    · rintro ⟨name, parameters, stated, unweighted, weighted⟩
      exact ⟨mt List.isEmpty_iff.2 named, name, parameters, stated, unweighted, weighted⟩
    · rintro ⟨-, name, parameters, stated, unweighted, weighted⟩
      exact ⟨name, parameters, stated, unweighted, weighted⟩

/-- An element that is not malformed states something. -/
theorem exists_states (h : ¬Malformed element) : ∃ p, States element p := by
  unfold Malformed at h
  push Not at h
  obtain ⟨named, stated⟩ := h
  obtain ⟨w, hw⟩ : ∃ w, (weightTexts (partsOf element).tail).getLast?.elim (some .one)
      Weight.parse? = some w := by
    cases last : (weightTexts (partsOf element).tail).getLast? with
    | none => exact ⟨.one, rfl⟩
    | some text =>
      have isStated := stated text (List.mem_of_getLast? last)
      exact Option.isSome_iff_exists.1 ((Weight.isSome_parse?_iff text).2 isStated)
  obtain ⟨unweighted, weighted⟩ := (weight_counts_iff _ w).1 hw
  exact ⟨⟨String.ofList (lowered (nameOf element)), parametersIn (partsOf element).tail, w⟩, named,
    rfl, rfl, stated, unweighted, weighted⟩

/-- **An element is not read when it is malformed.** -/
theorem parse?_eq_none_iff : parse? (trimmed element) = none ↔ Malformed element := by
  constructor
  · intro unread
    by_contra wellFormed
    obtain ⟨p, states⟩ := exists_states wellFormed
    rw [parse?_eq_some_iff.2 states] at unread
    cases unread
  · intro malformed
    rw [Option.eq_none_iff_forall_ne_some]
    intro p read
    have states := parse?_eq_some_iff.1 read
    rcases malformed with unnamed | ⟨text, member, unstated⟩
    · exact states.named unnamed
    · exact unstated (states.stated text member)

end VariantCache.Preference
