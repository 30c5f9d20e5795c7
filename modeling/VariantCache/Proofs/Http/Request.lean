import VariantCache.Http.Request
import VariantCache.Proofs.Bytes
import VariantCache.Text.Split

/-!
# What a request asks for

The path of a target that was read holds no question mark (`Target.questionMark_notMem_path`),
and neither does that of a request for it. So the first question mark of a logical key ends
the path (`Request.cut?_logicalKey`), and the key tells both path and query
(`Request.logicalKey_inj`).
-/

namespace VariantCache

namespace Text

variable {separator : Char} {front : List Char}

theorem cut?_of_notMem (h : separator ∉ front) : cut? separator front = none := by
  induction front with
  | nil => rfl
  | cons c front ih =>
    rw [List.mem_cons, not_or] at h
    rw [cut?, if_neg (Ne.symm h.1), ih h.2, Option.map_none]

theorem cut?_append (h : separator ∉ front) (rest : List Char) :
    cut? separator (front ++ separator :: rest) = some (front, rest) := by
  induction front with
  | nil => rw [List.nil_append, cut?, if_pos rfl]
  | cons c front ih =>
    rw [List.mem_cons, not_or] at h
    rw [List.cons_append, cut?, if_neg (Ne.symm h.1), ih h.2, Option.map_some]

end Text

namespace Http

namespace Target

variable {text : Bytes} {target : Target}

/-- A question mark is no part of a path. -/
theorem isPathByte_questionMark : isPathByte questionMark = false := by decide

theorem questionMark_notMem_of_pathAndQuery? (h : pathAndQuery? text = some target) :
    questionMark ∉ target.path := by
  unfold pathAndQuery? at h
  extract_lets path rest query at h
  split at h
  · next allowed =>
    obtain rfl := Option.some.inj h
    rw [Bool.and_eq_true, List.all_eq_true] at allowed
    simp only
    split
    · decide
    · intro member
      have isPath := allowed.1 _ member
      rw [isPathByte_questionMark] at isPath
      cases isPath
  · cases h

/-- A path holds no question mark, in whatever form the target was given. -/
theorem questionMark_notMem_path (h : parse? text = some target) : questionMark ∉ target.path := by
  unfold parse? at h
  simp only [Option.bind_eq_bind] at h
  split at h
  · cases h
  · split at h
    · cases h
    · obtain rfl := Option.some.inj h
      decide
    · obtain rfl := Option.some.inj h
      decide
    · exact questionMark_notMem_of_pathAndQuery? h
    · obtain ⟨rest, -, h⟩ := Option.bind_eq_some_iff.1 h
      split at h
      · obtain ⟨length, -, h⟩ := Option.bind_eq_some_iff.1 h
        split at h
        · obtain rfl := Option.some.inj h
          decide
        · cases h
      · obtain ⟨length, -, h⟩ := Option.bind_eq_some_iff.1 h
        split at h
        · cases h
        · exact questionMark_notMem_of_pathAndQuery? h

end Target

namespace Request

variable {r : Request}

theorem path_of_ofHttp? {target : Target} {headers : Headers}
    (h : ofHttp? target headers = some r) :
    Bytes.toString? target.path = some r.path := by
  unfold ofHttp? at h
  simp only [Option.bind_eq_bind, Option.pure_def] at h
  obtain ⟨path, hp, h⟩ := Option.bind_eq_some_iff.1 h
  rw [hp]
  split at h
  · rw [← Option.some.inj h]
  · split at h
    · rw [← Option.some.inj h]
    · obtain ⟨query, -, h⟩ := Option.bind_eq_some_iff.1 h
      rw [← Option.some.inj h]

/-- The request came in over HTTP, for some target and with some headers. -/
def IsHttp (r : Request) : Prop :=
  ∃ text target headers, Target.parse? text = some target ∧ ofHttp? target headers = some r

theorem IsHttp.questionMark_notMem_path (h : r.IsHttp) : '?' ∉ r.path.toList := by
  obtain ⟨text, target, headers, parsed, given⟩ := h
  intro member
  refine Target.questionMark_notMem_path parsed ?_
  rw [← Bytes.ofString_of_toString? (path_of_ofHttp? given), Bytes.ofString_eq_flatMap]
  exact List.mem_flatMap.2 ⟨'?', member, by decide⟩

/-- The first question mark of a logical key ends the path. -/
theorem cut?_logicalKey (h : '?' ∉ r.path.toList) :
    Text.cut? '?' r.logicalKey.toList = r.query.map fun query => (r.path.toList, query.toList) := by
  unfold logicalKey
  cases r.query with
  | none => exact Text.cut?_of_notMem h
  | some query =>
    have spelled : (r.path ++ "?" ++ query).toList = r.path.toList ++ '?' :: query.toList := by
      simp [String.toList_append]
    simp only [spelled, Text.cut?_append h, Option.map_some]

/-- The logical key of a request tells its path and its query. -/
theorem logicalKey_inj {a b : Request} (ha : '?' ∉ a.path.toList) (hb : '?' ∉ b.path.toList)
    (same : a.logicalKey = b.logicalKey) : a.path = b.path ∧ a.query = b.query := by
  have cuts := cut?_logicalKey ha
  rw [same, cut?_logicalKey hb] at cuts
  cases qa : a.query with
  | none =>
    cases qb : b.query with
    | none =>
      rw [logicalKey, logicalKey, qa, qb] at same
      exact ⟨same, rfl⟩
    | some query =>
      rw [qa, qb] at cuts
      cases cuts
  | some query =>
    cases qb : b.query with
    | none =>
      rw [qa, qb] at cuts
      cases cuts
    | some query' =>
      rw [qa, qb] at cuts
      have parts := Prod.mk.inj (Option.some.inj cuts)
      exact ⟨(String.toList_inj.1 parts.1).symm, congrArg some (String.toList_inj.1 parts.2).symm⟩

end Request
end Http
end VariantCache
