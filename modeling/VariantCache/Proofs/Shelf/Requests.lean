import VariantCache.Proofs.Representation.Conversion
import VariantCache.Proofs.Shelf.Payload

/-!
# Requests for the bodies of representations at hand

Whoever has representations on a shelf at hand asks them for bodies and copies them, in any order
(`Desk.run`). A request touches the bodies in one place only (`bodiesOf_fetch_self`,
`bodiesOf_fetch_of_ne`) and a copy touches none, so that what stands in a place is enriched by each
call (`Desk.enriches_call`), and so by any number of them (`Desk.enriches_run`). Two things follow:
what one request does to a representation and to the others is known exactly (`fetch_exact`), and
all that is ever made of a representation, or of its copies, carries the payload that it had at the
start (`made_of_one_payload`).
-/

namespace VariantCache.Shelf

variable {shelf : Shelf} {s t : Shared} {coding : Coding}

/-! ### One request -/

/-- What a request leaves in the place that it goes to. -/
theorem bodiesOf_fetch_self (placed : s.place < shelf.bodies.size) (coding : Coding) :
    (shelf.fetch s coding).2.bodiesOf s = ((shelf.bodiesOf s).fetch coding).2 := by
  have request := Bodies.request_fetch (shelf.bodiesOf s) coding
  unfold Shelf.fetch
  generalize (shelf.bodiesOf s).fetch coding = result at *
  cases request with
  | stored | missing => rfl
  | made => simp [bodiesOf, Array.getD_eq_getD_getElem?, placed]

/-- The other places are left as they are. -/
theorem bodiesOf_fetch_of_ne (apart : t.place ≠ s.place) (coding : Coding) :
    (shelf.fetch s coding).2.bodiesOf t = shelf.bodiesOf t := by
  unfold Shelf.fetch
  split
  · split
    · simp [bodiesOf, Array.getD_eq_getD_getElem?, apart.symm]
    · rfl
  · rfl

/-- A body that is there is handed out. -/
theorem fetch_of_stored {body : Bytes} (h : (shelf.bodiesOf s).get? coding = some body) :
    shelf.fetch s coding = (some ⟨body, false⟩, shelf) := by
  unfold Shelf.fetch
  rw [Bodies.fetch_of_stored h]
  rfl

/-! ### Many requests -/

/-- Somebody asks for a body of a representation at hand, or copies it. -/
inductive Call where
  | fetch (which : Nat) (coding : Coding)
  | copy (which : Nat)

/-- A shelf, and representations on it that are at hand. -/
structure Desk where
  shelf : Shelf
  atHand : List Shared

namespace Desk

/-- What a call leaves. A copy is the last of the representations at hand. -/
def call (d : Desk) : Call → Desk
  | .fetch which coding =>
    match d.atHand[which]? with
    | some s => { d with shelf := (d.shelf.fetch s coding).2 }
    | none => d
  | .copy which =>
    match d.atHand[which]? with
    | some s => ⟨(d.shelf.copy s).2, d.atHand ++ [(d.shelf.copy s).1]⟩
    | none => d

/-- What calls leave, one after the other. -/
def run (d : Desk) (calls : List Call) : Desk := calls.foldl call d

variable {d : Desk} {b : Bodies}

/-- A place is still there, and its bodies are at most enriched. -/
theorem enriches_call (placed : t.place < d.shelf.bodies.size)
    (h : (d.shelf.bodiesOf t).Enriches b) (c : Call) :
    t.place < (d.call c).shelf.bodies.size ∧ ((d.call c).shelf.bodiesOf t).Enriches b := by
  cases c with
  | fetch which coding =>
    simp only [call]
    split
    · refine ⟨by rwa [size_fetch], ?_⟩
      exact bodiesOf_fetch (P := (·.Enriches b)) (fun _ h => h.fetch coding) placed h
    · exact ⟨placed, h⟩
  | copy which =>
    simp only [call]
    split
    · next s _ =>
      have grows := d.shelf.grows_copy s
      exact ⟨grows.place_lt placed, by rwa [grows.bodiesOf placed]⟩
    · exact ⟨placed, h⟩

theorem enriches_run (placed : t.place < d.shelf.bodies.size)
    (h : (d.shelf.bodiesOf t).Enriches b) (calls : List Call) :
    t.place < (d.run calls).shelf.bodies.size ∧ ((d.run calls).shelf.bodiesOf t).Enriches b := by
  unfold run
  induction calls generalizing d with
  | nil => exact ⟨placed, h⟩
  | cons c calls ih =>
    obtain ⟨placed, h⟩ := enriches_call placed h c
    exact ih placed h

/-- All that is at hand has these bodies, enriched. -/
def Has (d : Desk) (b : Bodies) : Prop :=
  ∀ t ∈ d.atHand, t.place < d.shelf.bodies.size ∧ (d.shelf.bodiesOf t).Enriches b

theorem Has.call (h : d.Has b) (c : Call) : (d.call c).Has b := by
  have old (t : Shared) (ht : t ∈ d.atHand) := enriches_call (h t ht).1 (h t ht).2 c
  cases c with
  | fetch which coding =>
    have same : (d.call (.fetch which coding)).atHand = d.atHand := by
      simp only [Desk.call]
      split <;> rfl
    intro t ht
    exact old t (same ▸ ht)
  | copy which =>
    cases hs : d.atHand[which]? with
    | none =>
      have same : d.call (.copy which) = d := by simp only [Desk.call, hs]
      rwa [same]
    | some s =>
      have after : d.call (.copy which) = ⟨(d.shelf.copy s).2, d.atHand ++ [(d.shelf.copy s).1]⟩ := by
        simp only [Desk.call, hs]
      rw [after] at old ⊢
      intro t ht
      rcases List.mem_append.1 ht with ht | ht
      · exact old t ht
      · obtain rfl := List.mem_singleton.1 ht
        refine ⟨d.shelf.place_copy_lt s, ?_⟩
        rw [show (d.shelf.copy s).2.bodiesOf (d.shelf.copy s).1 = d.shelf.bodiesOf s from
          bodiesOf_copy d.shelf s]
        exact (h s (List.mem_of_getElem? hs)).2

theorem Has.run (h : d.Has b) (calls : List Call) : (d.run calls).Has b := by
  unfold Desk.run
  induction calls generalizing d with
  | nil => exact h
  | cons c calls ih => exact ih (h.call c)

end Desk

/-- **A request does what it must and nothing else.** A body that is there is handed out. One that
is not there is made exactly when the coding is real and one of the sources decodes; then it is put
in, which is all that changes of the representation, its size grows by the length of the body, and
from then on the very same body is handed out, whatever else is asked of the representations on the
shelf or copied. A request that is not answered changes nothing, and none changes what stands in
another place. -/
theorem fetch_exact (placed : s.place < shelf.bodies.size) (coding : Coding) :
    (∀ stored, (shelf.read s).bodies.get? coding = some stored →
      shelf.fetch s coding = (some ⟨stored, false⟩, shelf)) ∧
    ((shelf.read s).bodies.get? coding = none →
      ((shelf.fetch s coding).1.isSome ↔ coding.isReal = true ∧
        ∃ source ∈ Coding.sourceOrder, ∃ stored plain,
          (shelf.read s).bodies.get? source = some stored ∧ source.decode stored = .ok plain) ∧
      ((shelf.fetch s coding).1 = none → (shelf.fetch s coding).2 = shelf) ∧
      ∀ answer, (shelf.fetch s coding).1 = some answer →
        answer.isNew = true ∧
        (shelf.fetch s coding).2.read s = (shelf.read s).insertBody coding answer.body ∧
        (shelf.fetch s coding).2.sizeOf s = shelf.sizeOf s + answer.body.length ∧
        ∀ atHand calls,
          let later := (Desk.mk (shelf.fetch s coding).2 atHand).run calls
          later.shelf.fetch s coding = (some ⟨answer.body, false⟩, later.shelf)) ∧
    ∀ t, t.place ≠ s.place → (shelf.fetch s coding).2.read t = shelf.read t := by
  refine ⟨fun stored h => fetch_of_stored h, fun absent => ?_, fun t apart => ?_⟩
  · have absent : (shelf.bodiesOf s).get? coding = none := absent
    refine ⟨?_, snd_fetch_of_none, fun answer ha => ?_⟩
    · rw [fst_fetch, Bodies.isSome_fetch_iff absent, Bodies.isSome_payload?_iff]
      rfl
    · rw [fst_fetch] at ha
      obtain ⟨new, after⟩ := Bodies.fetch_of_answer absent ha
      have left := (bodiesOf_fetch_self placed coding).trans after
      refine ⟨new, congrArg (Representation.mk s.details) left, ?_, fun atHand calls => ?_⟩
      · simp only [sizeOf, Representation.size, read, left, Bodies.size_insert absent]
        omega
      · have start : ((shelf.fetch s coding).2.bodiesOf s).Enriches
            ((shelf.bodiesOf s).insert coding answer.body) := left ▸ .refl _
        obtain ⟨-, enriches⟩ := Desk.enriches_run (d := ⟨_, atHand⟩) (by rwa [size_fetch]) start calls
        exact fetch_of_stored (enriches.stored (Bodies.get?_insert_self _ _ _))
  · exact congrArg (Representation.mk t.details) (bodiesOf_fetch_of_ne apart coding)

/-- A page with malformed bytes in Zstandard, "hi" in gzip and "ho" in Brotli. -/
def halfSpoiled : Shelf where
  bodies := #[((Bodies.empty.insert .zstandard [1, 2, 3]).insert .gzip
    [0x1f, 0x8b, 8, 0, 0, 0, 0, 0, 0, 0xff, 1, 2, 0, 0xfd, 0xff, 0x68, 0x69, 0xac, 0x2a, 0x93, 0xd8,
      2, 0, 0, 0]).insert .brotli [0x6b, 0, 0x08, 0, 0x08, 0x68, 0x6f, 3]]
  conversions := []

/-- The page on that shelf. -/
def spoiledPage : Shared := ⟨⟨["news"], [], .ofSeconds 60⟩, 0⟩

/-- The malformed body is passed over: the plain page is made from gzip. -/
theorem fetch_exact_halfSpoiled :
    spoiledPage.place < halfSpoiled.bodies.size ∧
    ∃ answer, (halfSpoiled.fetch spoiledPage .identity).1 = some answer ∧
      answer.body = [0x68, 0x69] ∧ answer.isNew = true ∧
      (halfSpoiled.fetch spoiledPage .identity).2.read spoiledPage =
        (halfSpoiled.read spoiledPage).insertBody .identity answer.body ∧
      (halfSpoiled.fetch spoiledPage .identity).2.sizeOf spoiledPage =
        halfSpoiled.sizeOf spoiledPage + answer.body.length ∧
      ∀ atHand calls,
        let later := (Desk.mk (halfSpoiled.fetch spoiledPage .identity).2 atHand).run calls
        later.shelf.fetch spoiledPage .identity = (some ⟨answer.body, false⟩, later.shelf) := by
  have placed : spoiledPage.place < halfSpoiled.bodies.size := by decide
  have answered : (halfSpoiled.fetch spoiledPage .identity).1.map (·.body) = some [0x68, 0x69] := by
    decide +kernel
  obtain ⟨answer, ha, body⟩ := Option.map_eq_some_iff.1 answered
  obtain ⟨-, missing, -⟩ := fetch_exact placed .identity
  obtain ⟨-, -, made⟩ := missing rfl
  exact ⟨placed, answer, ha, body, made answer ha⟩

/-! ### The order of requests -/

/-- What the answer to a request decodes to. -/
def decoded? (shelf : Shelf) (s : Shared) (coding : Coding) : Option (Except Coding.Failure Bytes) :=
  (shelf.fetch s coding).1.map fun answer => coding.decode answer.body

/-- What the answers decode to when one coding is asked for after the other. -/
def decodedInTurn (shelf : Shelf) (s : Shared) :
    List Coding → List (Coding × Option (Except Coding.Failure Bytes))
  | [] => []
  | coding :: rest =>
    (coding, shelf.decoded? s coding) :: decodedInTurn (shelf.fetch s coding).2 s rest

/-- Each answer decodes to what it would have decoded to if it had been the first. -/
theorem decodedInTurn_eq {larger : Shelf} (placed : s.place < larger.bodies.size)
    (h : (larger.bodiesOf s).Enriches (shelf.bodiesOf s)) (order : List Coding) :
    larger.decodedInTurn s order = order.map fun coding => (coding, shelf.decoded? s coding) := by
  induction order generalizing larger with
  | nil => rfl
  | cons coding rest ih =>
    have first : larger.decoded? s coding = shelf.decoded? s coding := by
      simp only [decoded?, fst_fetch]
      exact h.decoded_fetch coding
    have after : ((larger.fetch s coding).2.bodiesOf s).Enriches (shelf.bodiesOf s) := by
      rw [bodiesOf_fetch_self placed]
      exact h.fetch coding
    rw [decodedInTurn, List.map_cons, first, ih (by rwa [size_fetch]) after]

/-- **All that is made carries one payload.** Take any representation, whatever its bodies are, and
let it be asked for bodies and copied, and its copies too, as often as one likes. The payload of
each of them is that of the representation at the start; whatever body is made decodes to it; and an
answer decodes to the same as the answer to the very first request would have. So codings that are
asked for in two orders are answered with bodies that decode to the same. -/
theorem made_of_one_payload (placed : s.place < shelf.bodies.size) :
    (∀ calls,
      let later := (Desk.mk shelf [s]).run calls
      ∀ t ∈ later.atHand,
        (later.shelf.read t).bodies.payload? = (shelf.read s).bodies.payload? ∧
        ∀ coding,
          (∀ answer, (later.shelf.fetch t coding).1 = some answer → answer.isNew = true →
            ∃ payload, (shelf.read s).bodies.payload? = some payload ∧
              coding.decode answer.body = .ok payload) ∧
          later.shelf.decoded? t coding = shelf.decoded? s coding) ∧
    ∀ {order order' : List Coding}, order.Perm order' →
      (shelf.decodedInTurn s order).Perm (shelf.decodedInTurn s order') := by
  refine ⟨fun calls t ht => ?_, fun same => ?_⟩
  · have start : (Desk.mk shelf [s]).Has (shelf.bodiesOf s) :=
      List.forall_mem_singleton.2 ⟨placed, .refl _⟩
    obtain ⟨-, enriches⟩ := start.run calls t ht
    refine ⟨enriches.payload, fun coding => ⟨fun answer ha new => ?_, ?_⟩⟩
    · rw [fst_fetch] at ha
      exact enriches.decode_of_isNew ha new
    · simp only [decoded?, fst_fetch]
      exact enriches.decoded_fetch coding
  · rw [decodedInTurn_eq placed (.refl _), decodedInTurn_eq placed (.refl _)]
    exact same.map _

/-- The payload of the half spoiled page is the one in gzip, and that of its copy too, whatever is
asked for first. -/
theorem made_of_one_payload_halfSpoiled :
    spoiledPage.place < halfSpoiled.bodies.size ∧
    (let later :=
        (Desk.mk halfSpoiled [spoiledPage]).run [.copy 0, .fetch 1 .identity, .fetch 0 .deflate];
      later.atHand.length = 2 ∧
      ∀ t ∈ later.atHand, (later.shelf.read t).bodies.payload? = some [0x68, 0x69] ∧
        later.shelf.decoded? t .brotli = halfSpoiled.decoded? spoiledPage .brotli) ∧
    (halfSpoiled.decodedInTurn spoiledPage [.identity, .brotli, .zstandard]).Perm
      (halfSpoiled.decodedInTurn spoiledPage [.zstandard, .identity, .brotli]) := by
  have placed : spoiledPage.place < halfSpoiled.bodies.size := by decide
  have payload : (halfSpoiled.read spoiledPage).bodies.payload? = some [0x68, 0x69] := by
    decide +kernel
  obtain ⟨always, inTurn⟩ := made_of_one_payload placed
  refine ⟨placed, ⟨rfl, fun t ht => ?_⟩, inTurn (by decide)⟩
  obtain ⟨same, made⟩ := always _ t ht
  exact ⟨same.trans payload, (made .brotli).2⟩

end VariantCache.Shelf
