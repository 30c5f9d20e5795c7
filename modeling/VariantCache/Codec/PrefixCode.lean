import VariantCache.Codec.BitSource

/-!
# Prefix codes given by their lengths

All three entropy-coded formats describe a prefix code by the length of each
symbol's code word alone; the words themselves follow from a fixed order. The
code is built here as a binary tree, one level at a time from the deepest up: the
nodes of a level are the symbols whose words end there and, paired up, the nodes
of the level below. An odd node is paired with an unused branch, so lengths that
leave words over give a tree with unused branches, and lengths that ask for too
many words give more than one root.
-/

namespace VariantCache.Codec

/-- A prefix code: following the bits of a word from the root leads to its symbol. -/
inductive PrefixCode where
  /-- No code word begins like this. -/
  | unused
  /-- A code word ends here. -/
  | symbol (value : Nat)
  /-- Go on with the next bit: the first branch for zero, the second for one. -/
  | branch (zero one : PrefixCode)

namespace PrefixCode

/-- Every sequence of bits begins with a code word. -/
def isComplete : PrefixCode → Bool
  | unused => false
  | symbol _ => true
  | branch zero one => zero.isComplete && one.isComplete

/-- Joins the nodes of a level two by two. -/
def pairUp : List PrefixCode → List PrefixCode
  | a :: b :: rest => branch a b :: pairUp rest
  | [a] => [branch a unused]
  | [] => []

/-- The symbols whose code words have `length` bits, in the order of `lengths`. -/
def wordsOf (length : Nat) (lengths : List (Nat × Nat)) : List PrefixCode :=
  (lengths.filter (·.2 == length)).map fun entry => symbol entry.1

/-- How the nodes of one level are ordered. -/
inductive Order where
  /-- Shorter words have the smaller codes. -/
  | shortFirst
  /-- Longer words have the smaller codes. -/
  | longFirst

/-- The nodes at `depth` levels below the root, when `more` levels lie below them. -/
def level (order : Order) (lengths : List (Nat × Nat)) : (depth more : Nat) → List PrefixCode
  | depth, 0 => wordsOf depth lengths
  | depth, more + 1 =>
    let below := pairUp (level order lengths (depth + 1) more)
    match order with
    | .shortFirst => wordsOf depth lengths ++ below
    | .longFirst => below ++ wordsOf depth lengths

/-- The code whose words have the given lengths, a list of symbols and the lengths of
their words. Symbols of length zero have no word. Lengths that ask for more words
than there are give none. -/
def ofLengths? (order : Order) (lengths : List (Nat × Nat)) : Option PrefixCode :=
  let used := lengths.filter (·.2 != 0)
  let deepest := used.foldl (fun m entry => max m entry.2) 0
  match pairUp (level order used 1 (deepest - 1)) with
  | [] => some unused
  | [root] => some root
  | _ => none

/-- Reads one symbol. -/
def read : PrefixCode → BitDecoder Nat
  | unused => BitDecoder.malformed
  | symbol value => pure value
  | branch zero one => do if ← BitDecoder.bit then one.read else zero.read

/-- Numbers the lengths of an alphabet from zero on. -/
def enumerate (lengths : List Nat) : List (Nat × Nat) :=
  lengths.zipIdx.map fun entry => (entry.2, entry.1)

end PrefixCode
end VariantCache.Codec
