import VariantCache.Proofs.Engine.Descent
import VariantCache.Proofs.Http.Field

/-!
# The headers of a response

A response has two kinds of headers: those that its production gave, and those that are set
anew. `values_respond` says for every field what values it has. So the fields of the
transport are set anew or are not there; the content type and the language are those of the
variant, or else those of the production; and all other fields have the values that the
production gave, in order (`Sends`). That is so for all responses from the cache and from
producers, in every run (`response_sends`).
-/

namespace VariantCache

open Http

/-! ### What a production gives -/

namespace Production

variable {p : Production} {name : String}

/-- The values that the production gave of a field, in order. A field with an invalid name or an
invalid value is none. -/
def values (p : Production) (name : String) : List Bytes :=
  p.headers.filterMap fun field =>
    let value := Bytes.ofString field.2
    if fieldName? (Bytes.ofString field.1) = some name ∧ isFieldValue value = true then some value
    else none

/-- The fields of the transport are told by their names in lower case. -/
theorem isTransportHeader_iff {bytes : Bytes} (h : fieldName? bytes = some name) :
    isTransportHeader bytes = true ↔ name ∈ transportHeaders := by
  unfold fieldName? at h
  split at h
  · have lowered : Bytes.ofString name = bytes.map Text.lowerByte := Bytes.ofString_of_toString? h
    rw [isTransportHeader, List.any_eq_true]
    constructor
    · rintro ⟨header, mem, same⟩
      have spelled : ∀ header ∈ transportHeaders,
          Bytes.toString? (Bytes.ofString header) = some header := by decide +kernel
      rw [← beq_iff_eq.1 same, spelled header mem] at h
      exact Option.some.inj h ▸ mem
    · exact fun mem => ⟨name, mem, beq_iff_eq.2 lowered⟩
  · cases h

/-- What is kept of the headers of a production. -/
theorem headers_represent (p : Production) (date : Instant) :
    (p.represent date).details.headers =
      (p.headers.map fun field => (Bytes.ofString field.1, Bytes.ofString field.2)).filter
        fun field => !isTransportHeader field.1 := by
  simp [represent, Representation.insertBody, Details.addHeaders, Details.addGroups,
    Details.untilDate]

end Production

namespace Engine

open Http.Headers

variable {key : CacheKey} {coding : Coding} {body : Bytes} {maxAge : Option Nat}
  {status : CacheStatus} {p : Production} {name : String}

theorem values_replayed (stored : List Field) (name : String) :
    (replayed stored).values name =
      stored.filterMap fun field =>
        if fieldName? field.1 = some name ∧ isFieldValue field.2 = true then some field.2
        else none := by
  unfold Headers.values replayed
  rw [List.filter_filterMap, List.map_filterMap]
  congr 1
  funext field
  cases fieldName? field.1 with
  | none => simp
  | some given =>
    by_cases sent : isFieldValue field.2 = true
    · by_cases same : given = name <;> simp [sent, same]
    · simp [sent]

/-- **What is replayed of a production** is what it gave, without the fields of the transport. -/
theorem values_replayed_represent (p : Production) (date : Instant) (name : String) :
    (replayed (p.represent date).details.headers).values name =
      if name ∈ transportHeaders then [] else p.values name := by
  rw [values_replayed, Production.headers_represent, List.filterMap_filter, List.filterMap_map]
  by_cases transport : name ∈ transportHeaders
  · rw [if_pos transport, List.filterMap_eq_nil_iff]
    intro field _
    by_cases named : fieldName? (Bytes.ofString field.1) = some name
    · simp [(Production.isTransportHeader_iff named).2 transport]
    · simp [named]
  · rw [if_neg transport, Production.values]
    congr 1
    funext field
    by_cases named : fieldName? (Bytes.ofString field.1) = some name
    · have kept : isTransportHeader (Bytes.ofString field.1) = false := by
        rw [← Bool.not_eq_true, Production.isTransportHeader_iff named]
        exact transport
      simp [kept]
    · simp [named]

/-! ### What a response sends -/

/-- The parts of the variant in a key may be sent. -/
structure SendableKey (key : CacheKey) : Prop where
  contentType : IsSendable key.contentType
  charset : IsSendable key.charset
  language : IsSendable key.language

/-- The parts of a variant may be sent. -/
structure SendableVariant {H : Type} (v : Variant H) : Prop where
  contentType : IsSendable v.contentType
  charset : IsSendable v.charset
  language : IsSendable v.language

theorem SendableVariant.keyOf {H : Type} {v : Variant H} (h : SendableVariant v)
    (request : Request) : SendableKey (keyOf request v) :=
  ⟨h.contentType.fold, h.charset.fold, h.language.fold⟩

theorem isSendable_cacheControl (maxAge : Option Nat) : IsSendable (cacheControl maxAge) := by
  cases maxAge with
  | none => decide +kernel
  | some seconds =>
    have start : IsSendable "max-age=" := by decide +kernel
    exact start.append (isSendable_toString seconds)

theorem isSendable_contentType (sendable : SendableKey key) : IsSendable (contentType key) := by
  unfold contentType
  split
  · exact sendable.contentType
  · have between : IsSendable "; charset=" := by decide +kernel
    exact (sendable.contentType.append between).append sendable.charset

theorem isSendable_token (coding : Coding) : IsSendable (coding.token?.getD "") := by
  cases coding <;> decide +kernel

theorem isSendable_statusText (status : CacheStatus) : IsSendable status.text := by
  cases status <;> decide +kernel

theorem values_setUnlessEmpty {headers : Headers} {field value : String} (h : IsSendable value) :
    (setUnlessEmpty headers field value).values name =
      if name = field ∧ value ≠ "" then [Bytes.ofString value] else headers.values name := by
  unfold setUnlessEmpty
  by_cases empty : value = ""
  · simp [empty]
  · simp [empty, values_replaceText h]

/-- How long a response may be kept, whatever its variant is. -/
theorem cacheControl_respond (stored : List Field) :
    (respond key coding stored body maxAge status).headers.values "cache-control" =
      [Bytes.ofString (cacheControl maxAge)] := by
  unfold respond addCommon
  simp only
  rw [values_replaceText_of_ne _ (by decide), values_replaceText_of_ne _ (by decide),
    values_replaceText_of_ne _ (by decide), values_replaceText (isSendable_cacheControl maxAge),
    if_pos rfl]

/-- **The values of every field of a response.** -/
theorem values_respond (sendable : SendableKey key) (stored : List Field) (name : String) :
    (respond key coding stored body maxAge status).headers.values name =
      if name = cacheStatusHeader then [Bytes.ofString status.text]
      else if name = "server" then [Bytes.ofString serverName]
      else if name = "vary" then [Bytes.ofString varyOn]
      else if name = "cache-control" then [Bytes.ofString (cacheControl maxAge)]
      else if name = "content-encoding" ∧ coding ≠ .identity ∧ coding.token?.getD "" ≠ "" then
        [Bytes.ofString (coding.token?.getD "")]
      else if name = "content-language" ∧ key.language ≠ "" then [Bytes.ofString key.language]
      else if name = "content-type" ∧ key.contentType ≠ "" then [Bytes.ofString (contentType key)]
      else (replayed stored).values name := by
  have server : IsSendable serverName := by decide +kernel
  have vary : IsSendable varyOn := by decide +kernel
  have typed (headers : Headers) :
      (if key.contentType = "" then headers
        else headers.replaceText "content-type" (contentType key)).values name =
      if name = "content-type" ∧ key.contentType ≠ "" then [Bytes.ofString (contentType key)]
      else headers.values name := by
    by_cases untyped : key.contentType = ""
    · simp [untyped]
    · simp [untyped, values_replaceText (isSendable_contentType sendable)]
  have coded (headers : Headers) :
      (if coding = .identity then headers
        else setUnlessEmpty headers "content-encoding" (coding.token?.getD "")).values name =
      if name = "content-encoding" ∧ coding ≠ .identity ∧ coding.token?.getD "" ≠ "" then
        [Bytes.ofString (coding.token?.getD "")]
      else headers.values name := by
    by_cases plainly : coding = .identity
    · simp [plainly]
    · simp [plainly, values_setUnlessEmpty (isSendable_token coding)]
  unfold respond addCommon
  simp only
  rw [values_replaceText (isSendable_statusText status), values_replaceText server,
    values_replaceText vary, values_replaceText (isSendable_cacheControl maxAge), coded,
    values_setUnlessEmpty sendable.language, typed]

end Engine

open Engine

/-- A response sends what a production gave of a variant, in a coding. -/
structure Http.Response.Sends (r : Response) (p : Production) (key : CacheKey) (coding : Coding)
    (maxAge : Option Nat) (status : CacheStatus) : Prop where
  cacheControl : r.headers.values "cache-control" = [Bytes.ofString (cacheControl maxAge)]
  vary : r.headers.values "vary" = [Bytes.ofString varyOn]
  server : r.headers.values "server" = [Bytes.ofString serverName]
  cacheStatus : r.headers.values cacheStatusHeader = [Bytes.ofString status.text]
  plain : coding = .identity → r.headers.values "content-encoding" = []
  coded : coding ≠ .identity → ∃ token, coding.token? = some token ∧
    r.headers.values "content-encoding" = [Bytes.ofString token]
  absent : ∀ name ∈ ["connection", "content-length", "date", "transfer-encoding"],
    r.headers.values name = []
  contentType : r.headers.values "content-type" =
    if key.contentType = "" then p.values "content-type" else [Bytes.ofString (contentType key)]
  contentLanguage : r.headers.values "content-language" =
    if key.language = "" then p.values "content-language" else [Bytes.ofString key.language]
  others : ∀ name ∉ transportHeaders ++ ["content-type", "content-language"],
    r.headers.values name = p.values name

namespace Engine

/-- **A response sends what its production gave**, with the fields set anew that belong to the
single response. -/
theorem sends_respond (sendable : SendableKey key) (real : coding.isReal = true) (p : Production)
    (date : Instant) :
    (respond key coding (p.represent date).details.headers body maxAge status).Sends p key coding
      maxAge status := by
  -- The fields of the transport that are not set anew are not there.
  have untouched (name : String) (transport : name ∈ transportHeaders) :
      (replayed (p.represent date).details.headers).values name = [] := by
    rw [values_replayed_represent, if_pos transport]
  have given (name : String) (other : name ∉ transportHeaders) :
      (replayed (p.represent date).details.headers).values name = p.values name := by
    rw [values_replayed_represent, if_neg other]
  have values (name : String) : (respond key coding (p.represent date).details.headers body maxAge
      status).headers.values name = _ := values_respond sendable _ name
  constructor
  case cacheControl => exact cacheControl_respond _
  case vary => rw [values]; simp [cacheStatusHeader]
  case server => rw [values]; simp [cacheStatusHeader]
  case cacheStatus => rw [values, if_pos rfl]
  case plain =>
    intro plainly
    rw [values, ← untouched "content-encoding" (by decide)]
    simp [cacheStatusHeader, plainly]
  case coded =>
    intro coded
    obtain ⟨token, isToken, nonempty⟩ : ∃ token, coding.token? = some token ∧ token ≠ "" := by
      cases coding with
      | identity => exact absurd rfl coded
      | compress | unsupported => cases real
      | brotli | deflate | gzip | zstandard => exact ⟨_, rfl, by decide⟩
    refine ⟨token, isToken, ?_⟩
    rw [values]
    simp [cacheStatusHeader, coded, isToken, nonempty]
  case absent =>
    intro name mem
    rw [values, ← untouched name (by revert mem; revert name; decide)]
    simp only [List.mem_cons, List.not_mem_nil, or_false] at mem
    rcases mem with rfl | rfl | rfl | rfl <;> simp [cacheStatusHeader]
  case contentType =>
    rw [values, ← given "content-type" (by decide)]
    by_cases untyped : key.contentType = "" <;> simp [cacheStatusHeader, untyped]
  case contentLanguage =>
    rw [values, ← given "content-language" (by decide)]
    by_cases unspoken : key.language = "" <;> simp [cacheStatusHeader, unspoken]
  case others =>
    intro name other
    rw [List.mem_append, not_or] at other
    rw [values, ← given name other.1]
    simp only [transportHeaders, List.mem_cons, List.not_mem_nil, or_false, not_or] at other
    simp [cacheStatusHeader, other]

end Engine

namespace Session

/-- **A response with a representation sends what one production gave**, in every run over every
tree of stores, whatever fields producers give: all valid fields that are not of the transport, with
all their values in order, and beside them only those that are set anew. A response from the cache
sends what was made for its key before, and any other what its producer makes. -/
theorem response_sends {start : Session} (new : start.IsNew) (moves : List Move) {H : Type}
    {resource : Resource H} {run : H → Request → CacheKey → Except ProduceFailure Production}
    {request : Request} {v : Variant H} {coding : Coding}
    (chosen : (start.run moves).engine.Chosen resource request v coding)
    (sendable : SendableVariant v)
    (ok : ((start.run moves).serve resource run request).response.status = .ok) :
    (∃ o ∈ (start.run moves).productions, o.key = keyOf request v ∧
      ((start.run moves).serve resource run request).produced = none ∧
      ((start.run moves).serve resource run request).response.Sends o.production (keyOf request v)
        coding (some ((start.run moves).now.durationUntil o.expiration).seconds) .hit) ∨
    ∃ p, run v.handler request (keyOf request v) = .ok p ∧
      ((start.run moves).serve resource run request).produced = some (keyOf request v) ∧
      ((start.run moves).serve resource run request).response.Sends p (keyOf request v) coding
        (if start.engine.backend.isSome && !p.lifetime.isZero then some p.lifetime.seconds
          else none) .miss := by
  have faithful := Trace.faithful_followAll (Trace.faithful_ofSession new) moves
  have same : ((Trace.ofSession start).followAll moves).session = start.run moves :=
    Trace.session_followAll _ moves
  obtain ⟨isBacked, held⟩ := And.intro faithful.isBacked faithful.held
  have loaded := Trace.descends_load (keyOf request v)
    ((start.run moves).serve resource run request) [] held
  have outcome := outcome_of_chosen run (start.run moves).now chosen
  rw [same] at isBacked loaded
  unfold serve at *
  generalize (start.run moves).engine.serve _ resource run request = served at *
  have sendableKey := sendable.keyOf request
  cases outcome with
  | @replayed s answer found fetched =>
    obtain ⟨-, -, -, o, isNumber, isKey, details, -⟩ := loaded.2 s found
    refine .inl ⟨o, by simpa using List.mem_of_getElem? isNumber, isKey, rfl, ?_⟩
    rw [details]
    exact sends_respond sendableKey chosen.isReal o.production o.date
  | failed | spoiled => cases ok
  | @made p answer lacks isOk fetched =>
    refine .inr ⟨p, isOk, rfl, ?_⟩
    have backed : ((start.run moves).engine.load (start.run moves).now
        (keyOf request v)).2.counted.backend.isSome = start.engine.backend.isSome :=
      isSome_load.trans isBacked
    rw [← backed]
    exact sends_respond sendableKey chosen.isReal p (start.run moves).now

/-- A page in English, with a field of the transport, a name and a value that are invalid, and a
field in two letter cases. -/
def noted : Production :=
  ⟨[("Set-Cookie", "a"), ("CONNECTION", "close"), ("my note", "b"), ("x-note", "\n"),
    ("set-cookie", "c")], [0x68, 0x69], .identity, [], .ofSeconds 60⟩

/-- The one variant of the page. -/
def notedPage : Variant Unit := ⟨"text/html", "utf-8", "en", ()⟩

/-- The page is asked for, and half a minute goes by. -/
def notedBefore : List Move :=
  [.serve [notedPage] (fun _ _ _ => .ok noted) (.ofPath "/"),
    .tick ⟨30, 0, Duration.zero.nanos_lt⟩]

/-- The page that is asked for in gzip then. -/
def notedLater : Served :=
  (Trace.overNested.run notedBefore).serve [notedPage] (fun _ _ _ => .ok noted)
    ⟨"/", none, none, none, some "gzip"⟩

/-- The page is sent from the cache with its cookies, and in the type of its variant. -/
theorem response_sends_noted :
    notedLater.response.headers.values "set-cookie" = [Bytes.ofString "a", Bytes.ofString "c"] ∧
    notedLater.response.headers.values "connection" = [] ∧
    notedLater.response.headers.values "content-type" =
      [Bytes.ofString "text/html; charset=utf-8"] ∧
    notedLater.response.headers.values "content-encoding" = [Bytes.ofString "gzip"] ∧
    notedLater.response.headers.values "x-cache" = [Bytes.ofString "HIT"] := by
  have chosen : (Trace.overNested.run notedBefore).engine.Chosen [notedPage]
      ⟨"/", none, none, none, some "gzip"⟩ notedPage .gzip :=
    ⟨by decide +kernel, by decide +kernel⟩
  have sendable : SendableVariant notedPage :=
    ⟨by decide +kernel, by decide +kernel, by decide +kernel⟩
  have ok : notedLater.response.status = .ok := by decide +kernel
  have produced : notedLater.produced = none := by decide +kernel
  have made : (Trace.overNested.run notedBefore).productions.map (·.production.headers) =
      [noted.headers] := by
    decide +kernel
  rcases response_sends Trace.isNew_overNested notedBefore chosen sendable ok with
    ⟨o, mem, -, -, sends⟩ | ⟨p, -, ran, -⟩
  · have headers : o.production.headers = noted.headers :=
      List.mem_singleton.1 (made ▸ List.mem_map_of_mem mem)
    refine ⟨?_, sends.absent "connection" (by decide), ?_, ?_, sends.cacheStatus⟩
    · refine (sends.others "set-cookie" (by decide)).trans ?_
      rw [Production.values, headers]
      decide +kernel
    · refine sends.contentType.trans ((if_neg (by decide +kernel)).trans ?_)
      decide +kernel
    · obtain ⟨token, isToken, values⟩ := sends.coded (by decide)
      obtain rfl := Option.some.inj isToken
      exact values
  · exact nomatch produced.symm.trans ran

end Session
end VariantCache
