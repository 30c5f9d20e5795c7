import VariantCache.Coding
import VariantCache.Preference

/-!
# Choosing a content coding

The first element of the client's list that names a coding which can be sent
decides. A star stands for the first coding that the list does not mention. When
no element decides the body is sent as it is, unless the client refuses that.
-/

namespace VariantCache.Negotiation

/-- The element stands for every coding that is not mentioned. -/
def isStar (p : Preference) : Bool := p.name == "*"

/-- The codings that a list mentions, refused or not. -/
def mentioned (preferences : List Preference) : List Coding :=
  (preferences.filter (! isStar ·)).map fun p => Coding.ofToken p.name

/-- The coding that an element asks for, if it can be sent. -/
def codingOf? (supported listed : List Coding) (p : Preference) : Option Coding :=
  if isStar p then supported.find? fun c => c.isReal && !listed.contains c
  else
    let coding := Coding.ofToken p.name
    if coding = .identity ∨ (coding.isReal ∧ coding ∈ supported) then some coding else none

/-- The list refuses a body without coding: an element refuses it by its name or by a
star, and none allows it by its name. -/
def refusesIdentity (preferences : List Preference) : Bool :=
  preferences.any (fun p => p.isRefused && (p.name == "identity" || isStar p)) &&
    !preferences.any fun p => p.name == "identity" && !p.isRefused

/-- The coding that a request is answered in; nothing when it refuses all that can be sent. -/
def chooseCoding? (acceptEncoding : Option String) (supported : List Coding) : Option Coding :=
  match acceptEncoding with
  | none => some .identity
  | some header =>
    if (Text.trim header).isEmpty then some .identity
    else
      let preferences := Preference.ofHeader header
      let listed := mentioned preferences
      match (preferences.filter (! ·.isRefused)).findSome? (codingOf? supported listed) with
      | some coding => some coding
      | none => if refusesIdentity preferences then none else some .identity

/-- What a refusal of every coding is called in messages. -/
def nothingAcceptable : String := "no acceptable content coding"

end VariantCache.Negotiation
