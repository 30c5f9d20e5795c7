import VariantCache.Document.Json
import VariantCache.Number.Natural

/-!
# Addresses to listen on

An address is an IPv4 or IPv6 address with a port. An IPv6 address stands in
brackets, may leave out one run of zero groups, may end in an IPv4 address, and
may name a zone by its number. Every address has one canonical text.
-/

namespace VariantCache.Net

/-- The address of a host. -/
inductive Host where
  /-- Four bytes. -/
  | v4 (a b c d : Nat)
  /-- Eight groups of two bytes, and the number of a zone. -/
  | v6 (groups : List Nat) (zone : Nat)
  deriving DecidableEq

/-- The address of a host and a port there. -/
structure Address where
  host : Host
  port : Nat
  deriving DecidableEq

namespace Address

/-! ### Reading -/

/-- Reads a decimal number within a limit. -/
def decimal? (limit : Nat) (cs : List Char) : Option (Nat × List Char) :=
  (Natural.ofDigits? limit (cs.takeWhile Char.isDigit)).map (·, cs.dropWhile Char.isDigit)

/-- Reads a byte in at most three decimal digits, without a zero in front. -/
def byte? (cs : List Char) : Option (Nat × List Char) :=
  let digits := cs.takeWhile Char.isDigit
  if 3 < digits.length || (1 < digits.length && digits.head? == some '0') then none
  else decimal? 255 cs

/-- Reads a character. -/
def char? (c : Char) : List Char → Option (List Char)
  | [] => none
  | d :: rest => if d = c then some rest else none

/-- Reads an IPv4 address. -/
def v4? (cs : List Char) : Option (List Nat × List Char) := do
  let (a, cs) ← byte? cs
  let (b, cs) ← byte? (← char? '.' cs)
  let (c, cs) ← byte? (← char? '.' cs)
  let (d, cs) ← byte? (← char? '.' cs)
  return ([a, b, c, d], cs)

/-- Reads a group: at most four hexadecimal digits. -/
def group? (cs : List Char) : Option (Nat × List Char) :=
  let digits := cs.takeWhile fun c => (Document.Json.hexDigit? c).isSome
  if digits.isEmpty || 4 < digits.length then none
  else (Document.Json.hexadecimal? digits).map (·, cs.drop digits.length)

/-- Reads groups with colons between them, at most `left` ones, as far as they go. The last two
may be an IPv4 address; it is said whether they are. -/
def groups (left : Nat) (isFirst : Bool) (cs : List Char) : List Nat × Bool × List Char :=
  match left with
  | 0 => ([], false, cs)
  | left + 1 =>
    match if isFirst then some cs else char? ':' cs with
    | none => ([], false, cs)
    | some body =>
      match if 1 ≤ left then v4? body else none with
      | some ([a, b, c, d], rest) => ([256 * a + b, 256 * c + d], true, rest)
      | _ =>
        match group? body with
        | none => ([], false, cs)
        | some (group, rest) =>
          let (more, endsInV4, rest) := groups left false rest
          (group :: more, endsInV4, rest)

/-- Reads the groups of an IPv6 address. Two colons stand for at least one zero group. -/
def v6? (cs : List Char) : Option (List Nat × List Char) := do
  let (front, endsInV4, rest) := groups 8 true cs
  if front.length = 8 then return (front, rest)
  if endsInV4 then none
  let rest ← char? ':' (← char? ':' rest)
  let (back, _, rest) := groups (7 - front.length) true rest
  return (front ++ List.replicate (8 - front.length - back.length) 0 ++ back, rest)

/-- Reads the number of a zone, if one is named. -/
def zone? : List Char → Option (Nat × List Char)
  | '%' :: rest => decimal? 0xffffffff rest
  | cs => some (0, cs)

/-- Reads the address of a host. -/
def host? (cs : List Char) : Option (Host × List Char) :=
  match cs with
  | '[' :: rest => do
    let (groups, rest) ← v6? rest
    let (zone, rest) ← zone? rest
    let rest ← char? ']' rest
    return (.v6 groups zone, rest)
  | _ =>
    match v4? cs with
    | some ([a, b, c, d], rest) => some (.v4 a b c d, rest)
    | _ => none

/-- Reads an address: a host, a colon and a port. -/
def parse? (text : String) : Option Address := do
  let (host, rest) ← host? text.toList
  let (port, rest) ← decimal? Natural.max16 (← char? ':' rest)
  if rest.isEmpty then return ⟨host, port⟩ else none

/-! ### Writing -/

/-- The text of an IPv4 address. -/
def v4Text (a b c d : Nat) : String := s!"{a}.{b}.{c}.{d}"

/-- The groups in hexadecimal digits, with colons between them. -/
def groupsText (groups : List Nat) : String :=
  ":".intercalate (groups.map fun g => String.ofList (Nat.toDigits 16 g))

/-- How many groups are zero at the start. -/
def zeroRun (groups : List Nat) : Nat := (groups.takeWhile (· == 0)).length

/-- Where the longest run of zero groups begins, and how long it is. The first of several counts. -/
def longestZeroRun : (position : Nat) → List Nat → Nat × Nat
  | position, [] => (position, 0)
  | position, g :: rest =>
    let here := zeroRun (g :: rest)
    let later := longestZeroRun (position + 1) rest
    if later.2 ≤ here then (position, here) else later

/-- The text of an IPv6 address. -/
def v6Text (groups : List Nat) : String :=
  match groups with
  | [0, 0, 0, 0, 0, 0xffff, high, low] =>
    "::ffff:" ++ v4Text (high / 256) (high % 256) (low / 256) (low % 256)
  | _ =>
    let (start, length) := longestZeroRun 0 groups
    if 1 < length then
      groupsText (groups.take start) ++ "::" ++ groupsText (groups.drop (start + length))
    else groupsText groups

/-- The text of an address. -/
def text (a : Address) : String :=
  match a.host with
  | .v4 b c d e => s!"{v4Text b c d e}:{a.port}"
  | .v6 groups zone =>
    let zoneText := if zone = 0 then "" else s!"%{zone}"
    s!"[{v6Text groups}{zoneText}]:{a.port}"

end Address
end VariantCache.Net
