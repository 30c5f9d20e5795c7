import VariantCache.Engine.Basic
import VariantCache.Proofs.Bytes
import VariantCache.Proofs.Representation.Payload

/-!
# What a response says about its body

A response with a representation names the coding of its body in one header and says in
another whether the body came from the cache. The headers that are replayed cannot touch
either: they are none of the transport (`contentCoding_respond`, `cacheStatus_respond`).
So a client that decodes the body as the response says gets the payload
(`plain?_respond`). How long a response may be kept and where its body came from show in
two headers and nowhere else (`lasting_respond`).
-/

namespace VariantCache

open Http

/-! ### Header fields -/

namespace Http.Headers

variable {headers : Headers} {name other : String}

theorem first?_replace_self (value : Bytes) :
    (headers.replace name value).first? name = some value := by
  have gone : (headers.filter (·.1 != name)).find? (·.1 == name) = none := by
    rw [List.find?_eq_none]
    intro field hf
    simpa using (List.mem_filter.1 hf).2
  rw [replace, append, first?, List.find?_append, gone]
  simp

theorem first?_replace_of_ne (value : Bytes) (ne : other ≠ name) :
    (headers.replace name value).first? other = headers.first? other := by
  have same :
      (fun field : String × Bytes =>
        decide ((field.1 != name) = true ∧ (field.1 == other) = true)) =
      fun field => field.1 == other := by
    funext field
    by_cases h : field.1 = other <;> simp [h, ne]
  have last : ((name == other) : Bool) = false := by simpa using Ne.symm ne
  rw [replace, append, first?, List.find?_append, List.find?_filter, same, first?]
  simp [last]

theorem first?_replaceText_of_ne (text : String) (ne : other ≠ name) :
    (headers.replaceText name text).first? other = headers.first? other := by
  unfold replaceText
  simp only
  split
  · exact first?_replace_of_ne _ ne
  · rfl

/-- The fields of other names. -/
def without (names : List String) (headers : Headers) : Headers :=
  headers.filter fun field => !names.contains field.1

theorem without_replaceText_of_mem {names : List String} (mem : name ∈ names) (text : String) :
    (headers.replaceText name text).without names = headers.without names := by
  have dropped : names.contains name = true := by simpa using mem
  have others (field : String × Bytes) :
      (!names.contains field.1 && field.1 != name) = !names.contains field.1 := by
    by_cases same : field.1 = name
    · rw [same, dropped]
      rfl
    · rw [bne_iff_ne.2 same, Bool.and_true]
  unfold replaceText
  simp only
  split
  · rw [replace, append, without, List.filter_append, List.filter_filter]
    simp only [others, List.filter_cons, dropped, Bool.not_true, Bool.false_eq_true, if_false,
      List.filter_nil, List.append_nil]
    rfl
  · rfl

theorem without_replaceText_of_notMem {names : List String} (notMem : name ∉ names)
    (text : String) :
    (headers.replaceText name text).without names =
      Headers.replaceText (headers.without names) name text := by
  have kept : names.contains name = false := by simpa using notMem
  unfold replaceText
  simp only
  split
  · rw [replace, append, without, List.filter_append, List.filter_filter, replace, append, without,
      List.filter_filter]
    simp only [Bool.and_comm, List.filter_cons, kept, Bool.not_false, if_true, List.filter_nil]
  · rfl

end Http.Headers

/-! ### Reading a response -/

namespace Http.Response

/-- The coding that the response names for its body; none is the identity. -/
def contentCoding (r : Response) : Coding :=
  match r.headers.first? "content-encoding" with
  | none => .identity
  | some value => ((Bytes.toString? value).map Coding.ofToken).getD .unsupported

/-- The body decoded as the response says. -/
def plain? (r : Response) : Option Bytes := (r.contentCoding.decode r.body).toOption

/-- The response says that its body came from the cache, or did not. -/
def SaysCache (r : Response) (status : Engine.CacheStatus) : Prop :=
  r.headers.first? Engine.cacheStatusHeader = some (Bytes.ofString status.text)

end Http.Response

namespace Engine

open Http.Headers

variable {key : CacheKey} {coding : Coding} {stored : List Field} {body : Bytes}
  {maxAge : Option Nat} {status : CacheStatus}

/-- No header of the transport is replayed. -/
theorem first?_replayed {name : String} (transport : name ∈ transportHeaders)
    (clean : ∀ field ∈ stored, isTransportHeader field.1 = false) :
    (replayed stored).first? name = none := by
  rw [Headers.first?, Option.map_eq_none_iff, List.find?_eq_none]
  intro sent hs
  obtain ⟨field, hf, hb⟩ := List.mem_filterMap.1 hs
  obtain ⟨fieldName, hn, hv⟩ := Option.bind_eq_some_iff.1 hb
  have sent_eq : sent.1 = fieldName := by
    split at hv
    · exact (congrArg (·.1) (Option.some.inj hv)).symm
    · cases hv
  rintro same
  obtain rfl : fieldName = name := by rw [← sent_eq]; exact beq_iff_eq.1 same
  unfold fieldName? at hn
  split at hn
  · have isTransport : isTransportHeader field.1 = true := by
      rw [isTransportHeader, List.any_eq_true]
      exact ⟨_, transport, by rw [Bytes.ofString_of_toString? hn, beq_self_eq_true]⟩
    rw [clean field hf] at isTransport
    cases isTransport
  · cases hn

/-- The headers before those of the single response do not name a coding. -/
theorem first?_contentEncoding_addCommon (headers : Headers) :
    (addCommon headers).first? "content-encoding" = headers.first? "content-encoding" := by
  rw [addCommon, first?_replaceText_of_ne _ (by decide), first?_replaceText_of_ne _ (by decide)]

theorem first?_setUnlessEmpty_of_ne {headers : Headers} {name other : String} (value : String)
    (ne : other ≠ name) :
    (setUnlessEmpty headers name value).first? other = headers.first? other := by
  unfold setUnlessEmpty
  split
  · rfl
  · exact first?_replaceText_of_ne value ne

/-- The token of a real coding may stand in a header, and names the coding. -/
theorem token_names (real : coding.isReal = true) (coded : coding ≠ .identity) (headers : Headers) :
    ∃ value,
      (setUnlessEmpty headers "content-encoding" (coding.token?.getD "")).first?
        "content-encoding" = some value ∧
      (Bytes.toString? value).map Coding.ofToken = some coding := by
  have text : coding.token?.getD "" ≠ "" ∧
      isFieldValue (Bytes.ofString (coding.token?.getD "")) = true ∧
      (Bytes.toString? (Bytes.ofString (coding.token?.getD ""))).map Coding.ofToken =
        some coding := by
    cases coding with
    | compress | unsupported => cases real
    | identity => exact absurd rfl coded
    | brotli | deflate | gzip | zstandard => decide +kernel
  obtain ⟨nonempty, value, names⟩ := text
  refine ⟨_, ?_, names⟩
  rw [setUnlessEmpty, if_neg nonempty, Headers.replaceText]
  simp only [value, if_true]
  exact first?_replace_self _

/-- **A response names the coding that its body is in.** -/
theorem contentCoding_respond (real : coding.isReal = true)
    (clean : ∀ field ∈ stored, isTransportHeader field.1 = false) :
    (respond key coding stored body maxAge status).contentCoding = coding := by
  have unnamed : ∀ headers : Headers, headers.first? "content-encoding" = none →
      ((if key.contentType = "" then headers
        else headers.replaceText "content-type" (contentType key)).first?
          "content-encoding") = none := by
    intro headers h
    split
    · exact h
    · rw [first?_replaceText_of_ne _ (by decide), h]
  have replays := unnamed _ (first?_replayed (by decide) clean)
  unfold Response.contentCoding respond
  simp only
  rw [first?_replaceText_of_ne _ (by decide), first?_contentEncoding_addCommon,
    first?_replaceText_of_ne _ (by decide)]
  by_cases plainly : coding = .identity
  · rw [if_pos plainly, first?_setUnlessEmpty_of_ne _ (by decide), replays, plainly]
  · rw [if_neg plainly]
    obtain ⟨value, hf, names⟩ := token_names real plainly (setUnlessEmpty
      (if key.contentType = "" then replayed stored
        else (replayed stored).replaceText "content-type" (contentType key))
      "content-language" key.language)
    rw [hf]
    simp only [names, Option.getD_some]

theorem saysCache_respond : (respond key coding stored body maxAge status).SaysCache status := by
  have text : isFieldValue (Bytes.ofString status.text) = true := by cases status <;> decide +kernel
  unfold Response.SaysCache respond
  simp only [Headers.replaceText, text, if_true]
  exact first?_replace_self _

/-- The headers of a response that tell more than which representation it is of. -/
def momentary : List String := ["cache-control", cacheStatusHeader]

/-- The other headers tell neither how long the response may be kept nor where it came from. -/
theorem lasting_respond (maxAge' : Option Nat) (status' : CacheStatus) (body' : Bytes) :
    (respond key coding stored body maxAge status).headers.without momentary =
      (respond key coding stored body' maxAge' status').headers.without momentary := by
  unfold respond addCommon
  simp only
  generalize (if coding = .identity then _ else _ : Headers) = headers
  rw [without_replaceText_of_mem (by decide), without_replaceText_of_notMem (by decide),
    without_replaceText_of_notMem (by decide), without_replaceText_of_mem (by decide),
    without_replaceText_of_mem (by decide), without_replaceText_of_notMem (by decide),
    without_replaceText_of_notMem (by decide), without_replaceText_of_mem (by decide)]

/-- **Who decodes the body as the response says gets the payload.** -/
theorem plain?_respond {payload : Bytes} (decodes : coding.decode body = .ok payload)
    (clean : ∀ field ∈ stored, isTransportHeader field.1 = false) :
    (respond key coding stored body maxAge status).plain? = some payload := by
  rw [Response.plain?, contentCoding_respond (Coding.isReal_of_decode decodes) clean]
  show (coding.decode body).toOption = some payload
  rw [decodes]
  rfl

/-- A response does not say both. -/
theorem saysCache_unique {r : Response} {first second : CacheStatus} (h : r.SaysCache first)
    (h' : r.SaysCache second) : first = second := by
  have texts : Bytes.ofString first.text = Bytes.ofString second.text :=
    Option.some.inj (h.symm.trans h')
  revert texts
  cases first <;> cases second <;> decide +kernel

/-- A response that has no representation to send says nothing about the cache. -/
theorem not_saysCache_respondError (outcome : Status) (status : CacheStatus) :
    ¬ (respondError outcome).SaysCache status := by
  unfold Response.SaysCache respondError addCommon cacheStatusHeader
  simp only
  rw [first?_replaceText_of_ne _ (by decide), first?_replaceText_of_ne _ (by decide),
    first?_replaceText_of_ne _ (by decide)]
  simp [Response.ofText, Headers.first?]

end Engine
end VariantCache
