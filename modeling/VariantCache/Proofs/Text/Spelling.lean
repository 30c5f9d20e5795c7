import VariantCache.Proofs.Text.Folding

/-!
# Spellings of a header

A header is a list of elements between commas, and an element is a list of parts between
semicolons. Letter case does not count in a header, nor do blanks around a comma, around a
semicolon or at either end (`Respelling`). What is left of a header when these are taken
away are its parts, folded (`foldedElements`): headers that are spellings of each other have the
same ones (`Respelled.foldedElements_eq`).

The proof goes from the parts outwards. A function of texts that does not see blanks at the
ends (`IgnoresEnds`) gives another one when it is applied to every piece of a text, and that one
does not see the blanks around the separator either.
-/

namespace VariantCache.Text

/-! ### Blanks at the ends -/

theorem trimmed_cons {c : Char} (blank : isBlank c) (cs : List Char) :
    trimmed (c :: cs) = trimmed cs := by
  rw [trimmed, List.dropWhile_cons_of_pos blank, trimmed]

theorem trimmed_concat {c : Char} (blank : isBlank c) (cs : List Char) :
    trimmed (cs ++ [c]) = trimmed cs := by
  rw [trimmed, trimmed, List.dropWhile_append]
  cases h : cs.dropWhile isBlank with
  | nil => simp [blank]
  | cons d rest => simp [blank, List.dropWhile_append]

/-- What the function makes of a text does not depend on blanks at its ends. -/
structure IgnoresEnds {β : Type} (f : List Char → β) : Prop where
  cons : ∀ {c : Char}, isBlank c → ∀ cs, f (c :: cs) = f cs
  concat : ∀ {c : Char}, isBlank c → ∀ cs, f (cs ++ [c]) = f cs

namespace IgnoresEnds

variable {β : Type} {f : List Char → β}

theorem trimmed (h : IgnoresEnds f) (cs : List Char) : f (trimmed cs) = f cs := by
  have front (cs : List Char) : f (cs.dropWhile isBlank) = f cs := by
    induction cs with
    | nil => rfl
    | cons c rest ih =>
      by_cases blank : isBlank c
      · rw [List.dropWhile_cons_of_pos blank, ih, h.cons blank]
      · rw [List.dropWhile_cons_of_neg blank]
  have back (cs : List Char) : f (cs.rdropWhile isBlank) = f cs := by
    induction cs using List.reverseRecOn with
    | nil => rfl
    | append_singleton rest c ih =>
      by_cases blank : isBlank c
      · rw [List.rdropWhile_concat_pos isBlank rest c blank, ih, h.concat blank]
      · rw [List.rdropWhile_concat_neg isBlank rest c blank]
  rw [trimmed_eq, back, front]

end IgnoresEnds

/-! ### Pieces of a text -/

variable {β : Type} {f : List Char → β} {separator c : Char}

theorem exists_splitAt_eq_cons (separator : Char) (cs : List Char) :
    ∃ first rest, splitAt separator cs = first :: rest :=
  List.exists_cons_of_ne_nil (splitAt_ne_nil separator cs)

/-- What stands before the first separator belongs to the first piece. -/
theorem splitAt_append_of_notMem {a b first : List Char} {rest : List (List Char)}
    (absent : separator ∉ a) (hb : splitAt separator b = first :: rest) :
    splitAt separator (a ++ b) = (a ++ first) :: rest := by
  induction a with
  | nil => exact hb
  | cons c a ih =>
    obtain ⟨other, absent⟩ := List.ne_and_not_mem_of_not_mem_cons absent
    rw [List.cons_append, splitAt, if_neg other.symm, ih absent]
    rfl

/-- A change to one piece that the function does not see is not seen in the list of pieces. -/
theorem map_splitAt_congr {m n b first : List Char} {rest : List (List Char)}
    (hm : separator ∉ m) (hn : separator ∉ n) (hb : splitAt separator b = first :: rest)
    (same : ∀ x, f (x ++ (m ++ first)) = f (x ++ (n ++ first))) (a : List Char) :
    (splitAt separator (a ++ (m ++ b))).map f = (splitAt separator (a ++ (n ++ b))).map f := by
  induction a generalizing f with
  | nil =>
    simp only [List.nil_append, splitAt_append_of_notMem hm hb, splitAt_append_of_notMem hn hb,
      List.map_cons]
    rw [show f (m ++ first) = f (n ++ first) from same []]
  | cons d a ih =>
    -- The first piece gets one more character, so the rest is needed of `f` after that character.
    have rests := ih same
    have firsts := ih (f := fun x => f (d :: x)) fun x => same (d :: x)
    obtain ⟨p, ps, hp⟩ := exists_splitAt_eq_cons separator (a ++ (m ++ b))
    obtain ⟨q, qs, hq⟩ := exists_splitAt_eq_cons separator (a ++ (n ++ b))
    rw [hp, hq, List.map_cons, List.map_cons] at rests firsts
    simp only [List.cons_append, splitAt, hp, hq]
    by_cases cut : d = separator
    · rw [if_pos cut, if_pos cut, List.map_cons, List.map_cons, List.map_cons, List.map_cons, rests]
    · rw [if_neg cut, if_neg cut, List.map_cons, List.map_cons, (List.cons.inj firsts).1,
        (List.cons.inj rests).2]

theorem ne_separator (blank : isBlank c) (h : isBlank separator = false) : separator ≠ c := by
  rintro rfl
  rw [h] at blank
  cases blank

namespace IgnoresEnds

/-- Blanks at the end of any piece are not seen. -/
theorem before_piece (h : IgnoresEnds f) (hs : isBlank separator = false) (blank : isBlank c)
    (a : List Char) {b : List Char} {rest : List (List Char)}
    (hb : splitAt separator b = [] :: rest) :
    (splitAt separator (a ++ c :: b)).map f = (splitAt separator (a ++ b)).map f :=
  map_splitAt_congr (m := [c]) (n := []) (by simpa using ne_separator blank hs)
    List.not_mem_nil hb (fun x => by simpa using h.concat blank x) a

/-- The list of what a function makes of the pieces of a text does not depend on blanks at the
ends either. -/
theorem pieces (h : IgnoresEnds f) (hs : isBlank separator = false) :
    IgnoresEnds fun cs => (splitAt separator cs).map f where
  cons := by
    intro c blank cs
    obtain ⟨first, rest, hcs⟩ := exists_splitAt_eq_cons separator cs
    have absent : separator ∉ [c] := by simpa using ne_separator blank hs
    have split := splitAt_append_of_notMem absent hcs
    rw [List.singleton_append, List.singleton_append] at split
    simp only [split, hcs, List.map_cons, h.cons blank]
  concat := by
    intro c blank cs
    simpa using h.before_piece hs blank cs (b := []) rfl

theorem before_separator (h : IgnoresEnds f) (hs : isBlank separator = false) (blank : isBlank c)
    (a b : List Char) :
    (splitAt separator (a ++ c :: separator :: b)).map f =
      (splitAt separator (a ++ separator :: b)).map f :=
  have begins : splitAt separator (separator :: b) = [] :: splitAt separator b := by
    rw [splitAt, if_pos rfl]
  h.before_piece hs blank a begins

theorem after_separator (h : IgnoresEnds f) (hs : isBlank separator = false) (blank : isBlank c)
    (a b : List Char) :
    (splitAt separator (a ++ separator :: c :: b)).map f =
      (splitAt separator (a ++ separator :: b)).map f := by
  rw [splitAt_append, splitAt_append, List.map_append, List.map_append, (h.pieces hs).cons blank]

end IgnoresEnds

/-! ### What counts in a header -/

/-- What counts of a piece of a text: what is left of it without blanks at the ends, in lower case. -/
def folded (cs : List Char) : List Char := lowered (trimmed cs)

/-- What counts of an element: its parts between semicolons, folded. -/
def foldedParts (element : List Char) : List (List Char) := (splitAt ';' element).map folded

/-- What counts of a header: its elements between commas, each by its parts. -/
def foldedElements (header : List Char) : List (List (List Char)) :=
  (splitAt ',' header).map foldedParts

theorem isBlank_comma : isBlank ',' = false := by decide

theorem isBlank_semicolon : isBlank ';' = false := by decide

theorem ignoresEnds_folded : IgnoresEnds folded where
  cons blank cs := congrArg lowered (trimmed_cons blank cs)
  concat blank cs := congrArg lowered (trimmed_concat blank cs)

theorem ignoresEnds_foldedParts : IgnoresEnds foldedParts := ignoresEnds_folded.pieces isBlank_semicolon

theorem ignoresEnds_foldedElements : IgnoresEnds foldedElements :=
  ignoresEnds_foldedParts.pieces isBlank_comma

theorem folded_lowered (cs : List Char) : folded (lowered cs) = folded cs := by
  rw [folded, trimmed_lowered, lowered_lowered, folded]

theorem foldedParts_lowered (element : List Char) :
    foldedParts (lowered element) = foldedParts element := by
  rw [foldedParts, splitAt_lowered (toLower_eq_iff (by decide)), List.map_map, foldedParts]
  exact List.map_congr_left fun part _ => folded_lowered part

theorem foldedElements_lowered (header : List Char) :
    foldedElements (lowered header) = foldedElements header := by
  rw [foldedElements, splitAt_lowered (toLower_eq_iff (by decide)), List.map_map, foldedElements]
  exact List.map_congr_left fun element _ => foldedParts_lowered element

theorem eq_of_splitAt_eq_singleton {cs piece : List Char} (h : splitAt separator cs = [piece]) :
    cs = piece := by
  induction cs generalizing piece with
  | nil => exact (List.cons.inj h).1
  | cons c rest ih =>
    obtain ⟨first, others, hr⟩ := exists_splitAt_eq_cons separator rest
    simp only [splitAt, hr] at h
    split at h
    · cases h
    · obtain ⟨rfl, rfl⟩ := List.cons.inj h
      rw [ih hr]

/-- A header is blank when it has one element and that has one empty part. -/
theorem trimmed_eq_nil_iff (header : List Char) :
    trimmed header = [] ↔ foldedElements header = [[[]]] := by
  constructor
  · intro blank
    rw [← ignoresEnds_foldedElements.trimmed, blank]
    rfl
  · intro h
    obtain ⟨element, he, parts⟩ := List.map_eq_singleton_iff.1 h
    obtain ⟨part, hp, empty⟩ := List.map_eq_singleton_iff.1 parts
    rw [eq_of_splitAt_eq_singleton he, eq_of_splitAt_eq_singleton hp]
    exact List.map_eq_nil_iff.1 empty

/-! ### Spellings -/

/-- The character separates elements or parts. -/
def IsSeparator (c : Char) : Prop := c = ',' ∨ c = ';'

/-- One way to write a header in another spelling: letters in another case, or a blank more. -/
inductive Respelling : List Char → List Char → Prop where
  | recased {a b : List Char} (h : lowered a = lowered b) : Respelling a b
  | atStart {c : Char} (blank : isBlank c) (cs : List Char) : Respelling cs (c :: cs)
  | atEnd {c : Char} (blank : isBlank c) (cs : List Char) : Respelling cs (cs ++ [c])
  | before {c separator : Char} (blank : isBlank c) (h : IsSeparator separator) (a b : List Char) :
    Respelling (a ++ separator :: b) (a ++ c :: separator :: b)
  | after {c separator : Char} (blank : isBlank c) (h : IsSeparator separator) (a b : List Char) :
    Respelling (a ++ separator :: b) (a ++ separator :: c :: b)

/-- The texts are spellings of one header: letters may be in another case, and blanks may be more
or fewer around commas, around semicolons and at either end. -/
def Respelled : List Char → List Char → Prop := Relation.EqvGen Respelling

namespace Respelling

variable {a b : List Char}

theorem foldedElements_eq (h : Respelling a b) : foldedElements a = foldedElements b := by
  cases h with
  | recased h => rw [← foldedElements_lowered a, h, foldedElements_lowered]
  | atStart blank => exact (ignoresEnds_foldedElements.cons blank a).symm
  | atEnd blank => exact (ignoresEnds_foldedElements.concat blank a).symm
  | @before c separator blank h a b =>
    rcases h with rfl | rfl
    · exact (ignoresEnds_foldedParts.before_separator isBlank_comma blank a b).symm
    · obtain ⟨first, rest, hb⟩ := exists_splitAt_eq_cons ',' b
      refine map_splitAt_congr (m := [';']) (n := [c, ';']) (by decide) ?_ hb (fun x => ?_) a
      · simpa using ne_separator blank isBlank_comma
      · exact (ignoresEnds_folded.before_separator isBlank_semicolon blank x first).symm
  | @after c separator blank h a b =>
    rcases h with rfl | rfl
    · exact (ignoresEnds_foldedParts.after_separator isBlank_comma blank a b).symm
    · obtain ⟨first, rest, hb⟩ := exists_splitAt_eq_cons ',' b
      refine map_splitAt_congr (m := [';']) (n := [';', c]) (by decide) ?_ hb (fun x => ?_) a
      · simpa using ne_separator blank isBlank_comma
      · exact (ignoresEnds_folded.after_separator isBlank_semicolon blank x first).symm

end Respelling

theorem Respelled.foldedElements_eq {a b : List Char} (h : Respelled a b) :
    foldedElements a = foldedElements b := by
  induction h with
  | rel a b h => exact h.foldedElements_eq
  | refl a => rfl
  | symm a b _ ih => exact ih.symm
  | trans a b c _ _ first second => exact first.trans second

end VariantCache.Text
