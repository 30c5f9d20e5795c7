import VariantCache.Bytes
import VariantCache.Text.Ascii

/-!
# Request targets

A request names its target by a path with an optional query, by a whole URI, by an
authority alone, or by a star. Of a target only its path and its query matter
here; a fragment is left out.
-/

namespace VariantCache.Http

/-- What a request asks for. -/
structure Target where
  path : Bytes
  query : Option Bytes
  deriving DecidableEq

namespace Target

/-- The longest target. -/
def limit : Nat := 65534

/-- The byte may stand in a path. -/
def isPathByte (b : UInt8) : Bool :=
  b == 0x21 || b == 0x22 || (0x24 ≤ b && b ≤ 0x3b) || b == 0x3d || (0x40 ≤ b && b ≤ 0x5f) ||
    (0x61 ≤ b && b ≤ 0x7e) || 0x7f ≤ b

/-- The byte may stand in a query. -/
def isQueryByte (b : UInt8) : Bool :=
  b == 0x21 || (0x24 ≤ b && b ≤ 0x3b) || b == 0x3d || 0x3f ≤ b

/-- The byte before a query. -/
def questionMark : UInt8 := 0x3f

/-- The byte before a fragment. -/
def numberSign : UInt8 := 0x23

/-- Reads a path, a query and a fragment. An empty path is the root. -/
def pathAndQuery? (text : Bytes) : Option Target :=
  let path := text.takeWhile fun b => b != questionMark && b != numberSign
  let rest := text.dropWhile fun b => b != questionMark && b != numberSign
  let query := match rest with
    | b :: rest => if b = questionMark then some (rest.takeWhile (· != numberSign)) else none
    | [] => none
  if path.all isPathByte && (query.getD []).all isQueryByte then
    some ⟨if path.isEmpty then [0x2f] else path, query⟩
  else none

/-! ### Authorities -/

/-- The marks that may stand in an authority, apart from letters and digits. -/
def authorityMarks : List Char :=
  ['!', '#', '$', '&', '\'', '(', ')', '*', '+', ',', '-', '.', '/', ':', ';', '=', '?', '@', '[',
    ']', '_', '~']

/-- What was seen of an authority. -/
structure AuthorityScan where
  colons : Nat
  opened : Bool
  closed : Bool
  percent : Bool
  /-- The last character was the sign after the user's name. -/
  endsWithAt : Bool

/-- Goes on to the next character of an authority. Colons and percent signs count since
the user's name or the bracketed address; brackets stand once. -/
def AuthorityScan.step (scan : AuthorityScan) (c : Char) : Option AuthorityScan :=
  let scan := { scan with endsWithAt := false }
  if c = ':' then if 8 ≤ scan.colons then none else some { scan with colons := scan.colons + 1 }
  else if c = '[' then
    if scan.percent || scan.opened then none else some { scan with opened := true }
  else if c = ']' then
    if !scan.opened || scan.closed then none
    else some { scan with closed := true, colons := 0, percent := false }
  else if c = '@' then some { scan with colons := 0, percent := false, endsWithAt := true }
  else if c = '%' then some { scan with percent := true }
  else if c.toNat < 128 && (c.isAlphanum || authorityMarks.contains c) then some scan
  else none

/-- The byte ends an authority. -/
def endsAuthority (b : UInt8) : Bool := b == 0x2f || b == questionMark || b == numberSign

/-- The length of the authority at the start of a text, if it is well-formed. -/
def authorityLength? (text : Bytes) : Option Nat := do
  let authority := text.takeWhile (!endsAuthority ·)
  let scan ← (authority.map fun b => Char.ofNat b.toNat).foldlM AuthorityScan.step
    ⟨0, false, false, false, false⟩
  if scan.opened != scan.closed || 1 < scan.colons || scan.endsWithAt || scan.percent then none
  else some authority.length

/-! ### Schemes -/

/-- The longest scheme. -/
def schemeLimit : Nat := 64

/-- The byte may stand in a scheme. -/
def isSchemeByte (b : UInt8) : Bool :=
  let c := Char.ofNat b.toNat
  b < 128 && (c.isAlphanum || c == '+' || c == '-' || c == '.')

/-- What follows the scheme and its three marks, if a text has them. A scheme that is too
long is an error. -/
def afterScheme? (text : Bytes) : Option (Option Bytes) :=
  let scheme := text.takeWhile isSchemeByte
  let rest := text.drop scheme.length
  if rest.take 3 == [0x3a, 0x2f, 0x2f] && 3 < text.length then
    if schemeLimit < scheme.length then none else some (some (rest.drop 3))
  else some none

/-- Reads a target. -/
def parse? (text : Bytes) : Option Target := do
  if limit < text.length then none
  match text with
  | [] => none
  | [0x2f] => some ⟨[0x2f], none⟩
  | [0x2a] => some ⟨[0x2a], none⟩
  | 0x2f :: _ => pathAndQuery? text
  | _ =>
    match ← afterScheme? text with
    | none =>
      if (← authorityLength? text) = text.length then some ⟨[], none⟩ else none
    | some rest =>
      let length ← authorityLength? rest
      if length = 0 then none else pathAndQuery? (rest.drop length)

end Target
end VariantCache.Http
