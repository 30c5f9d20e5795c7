import VariantCache.Document.Value
import VariantCache.Document.Json

/-!
# Numbers, truth values and dates of TOML

These values are words without quotes. Digits may be grouped by underscores, each
between two digits. Whole numbers have 64 bits and no zero in front; they may be
written in base two, eight or sixteen too. A date is kept as its text.
-/

namespace VariantCache.Document.Toml

/-- The digits without the underscores between them. -/
def ungrouped? (isDigit : Char → Bool) : List Char → Option (List Char)
  | [] => none
  | [c] => if isDigit c then some [c] else none
  | c :: '_' :: rest => if isDigit c then (ungrouped? isDigit rest).map (c :: ·) else none
  | c :: rest => if isDigit c then (ungrouped? isDigit rest).map (c :: ·) else none

/-- The digits of a whole number in base ten. -/
def wholeDigits? (cs : List Char) : Option (List Char) :=
  match ungrouped? Char.isDigit cs with
  | some ('0' :: _ :: _) | none => none
  | some digits => some digits

/-- The largest whole number. -/
def maxInteger : Nat := 0x7fffffffffffffff

/-- Reads a whole number in base ten. -/
def decimalInteger? (word : List Char) : Option Int := do
  let (negative, rest) := Decimal.sign word
  let size := Decimal.ofDigits (← wholeDigits? rest)
  if negative then if size ≤ maxInteger + 1 then some (-(size : Int)) else none
  else if size ≤ maxInteger then some size else none

/-- Reads a whole number in a base that its first two characters name. -/
def basedInteger? : List Char → Option Int
  | '0' :: mark :: rest => do
    let base ← [('x', 16), ('o', 8), ('b', 2)].lookup mark
    let isDigit (c : Char) : Bool := (Json.hexDigit? c).any (· < base)
    let digits ← ungrouped? isDigit rest
    let n := digits.foldl (fun n c => base * n + (Json.hexDigit? c).getD 0) 0
    if n ≤ maxInteger then some n else none
  | _ => none

/-- Reads a real number: digits with a fraction or an exponent, or the name of a special one. -/
def real? (word : List Char) : Option Binary64 :=
  let (negative, rest) := Decimal.sign word
  if rest = ['i', 'n', 'f'] then some (.infinite negative)
  else if rest = ['n', 'a', 'n'] then some .notANumber
  else do
    let isMark (c : Char) : Bool := c == 'e' || c == 'E'
    let mantissa := rest.takeWhile (!isMark ·)
    let exponent ← match rest.dropWhile (!isMark ·) with
      | [] => some none
      | _ :: text =>
        let (negative, digits) := Decimal.sign text
        (ungrouped? Char.isDigit digits).map fun digits =>
          let size : Int := Decimal.ofDigits digits
          some (if negative then -size else size)
    let whole ← wholeDigits? (mantissa.takeWhile (· != '.'))
    let places ← match mantissa.dropWhile (· != '.') with
      | [] => some none
      | _ :: digits => (ungrouped? Char.isDigit digits).map some
    if exponent.isNone && places.isNone then none
    let digits := Decimal.ofDigits (whole ++ places.getD [])
    match Binary64.ofDecimal (.finite negative digits
        (exponent.getD 0 - ((places.getD []).length : Int))) with
    | .infinite _ => none
    | x => some x

/-! ### Dates and times -/

/-- Reads two digits as a number within limits. -/
def twoDigits? (least most : Nat) : List Char → Option (List Char)
  | a :: b :: rest =>
    if a.isDigit && b.isDigit && least ≤ Decimal.ofDigits [a, b] && Decimal.ofDigits [a, b] ≤ most then
      some rest
    else none
  | _ => none

/-- Reads the day of a date and gives what follows it. -/
def afterDate? (cs : List Char) : Option (List Char) := do
  if (cs.take 4).length < 4 || !(cs.take 4).all Char.isDigit then none
  match cs.drop 4 with
  | '-' :: rest =>
    match ← twoDigits? 1 12 rest with
    | '-' :: day => twoDigits? 1 31 day
    | _ => none
  | _ => none

/-- Reads a time of day and gives what follows it. -/
def afterTime? (cs : List Char) : Option (List Char) := do
  match ← twoDigits? 0 23 cs with
  | ':' :: rest =>
    match ← twoDigits? 0 59 rest with
    | ':' :: rest =>
      match ← twoDigits? 0 60 rest with
      | '.' :: rest =>
        if (rest.takeWhile Char.isDigit).isEmpty then none else some (rest.dropWhile Char.isDigit)
      | rest => some rest
    | rest => some rest
  | _ => none

/-- The rest of a word is an offset from universal time, or empty. -/
def isOffset : List Char → Bool
  | [] => true
  | sign :: rest =>
    if sign == 'Z' then rest.isEmpty
    else if sign == '+' || sign == '-' then
      match twoDigits? 0 23 rest with
      | some (':' :: minutes) => twoDigits? 0 59 minutes == some []
      | _ => false
    else false

/-- The word is a date, a time of day, or both, in capital letters. -/
def isDate (word : List Char) : Bool :=
  match afterDate? word with
  | some [] => true
  | some ('T' :: time) => (afterTime? time).any isOffset
  | some _ => false
  | none => afterTime? word == some []

/-! ### Words -/

/-- The character may stand in a word. -/
def isWordChar (c : Char) : Bool :=
  c.isAlphanum || c == '_' || c == '+' || c == '-' || c == '.' || c == ':'

/-- The value of a word. -/
def ofWord? (word : List Char) : Option Value :=
  let upper := word.map Char.toUpper
  if word = ['t', 'r', 'u', 'e'] then some (.bool true)
  else if word = ['f', 'a', 'l', 's', 'e'] then some (.bool false)
  else
    match decimalInteger? word, basedInteger? word, real? word with
    | some n, _, _ | none, some n, _ => some (.integer n)
    | none, none, some x => some (.real x)
    | none, none, none => if isDate upper then some (.text (String.ofList upper)) else none

/-- Reads a word. A date and a time of day may have a blank between them. -/
def word? (cs : List Char) : Option (Value × List Char) :=
  let word := cs.takeWhile isWordChar
  let rest := cs.dropWhile isWordChar
  let together := match rest with
    | ' ' :: time =>
      let both := word ++ 'T' :: time.takeWhile isWordChar
      if isDate word && isDate (both.map Char.toUpper) then
        some (both, time.dropWhile isWordChar)
      else none
    | _ => none
  let (word, rest) := together.getD (word, rest)
  (ofWord? word).map (·, rest)

end VariantCache.Document.Toml
