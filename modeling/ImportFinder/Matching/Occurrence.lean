import ImportFinder.Text.Basic

/-!
# Bounded occurrences

Where a token stands in a text, if its surroundings allow it. Two kinds of
boundary are known:

* a *word* has no word byte directly before or after it;
* a *segment* directly follows a path separator and has no word byte after it,
  so `./utils.js` holds the segment `utils` and `./utilsx` does not.

Word bytes are the ASCII letters, the digits and the underscore. Occurrences are
taken from left to right and do not overlap: behind one that counts the search
goes on at its end, behind one that does not at the next byte.
-/

namespace ImportFinder.Matching

/-- Whether a byte belongs to a word. -/
def isWordByte (b : UInt8) : Bool :=
  b == 0x5F || (0x61 ≤ b && b ≤ 0x7A) || (0x41 ≤ b && b ≤ 0x5A) || (0x30 ≤ b && b ≤ 0x39)

/-- Whether a byte separates the segments of a path. -/
def isSeparator (b : UInt8) : Bool := b == 0x2F || b == 0x5C

/-- What has to surround an occurrence. -/
inductive Boundary
  | word
  | segment
  deriving DecidableEq, Repr

/-- Whether an occurrence counts between the bytes directly before and after
    it; there are none at the ends of the text. -/
def Boundary.accepts : Boundary → Option UInt8 → Option UInt8 → Bool
  | .word, before, after => !before.any isWordByte && !after.any isWordByte
  | .segment, before, after => before.any isSeparator && !after.any isWordByte

/-- The bytes from `start` up to but not including `stop`. -/
structure Span where
  start : Nat
  stop : Nat
  deriving DecidableEq, Repr

/-- The occurrences of a token in the part of a text from `offset` on, where
    `before` is the byte in front of it and the first `skip` bytes belong to an
    occurrence already found. -/
def occurrencesFrom (boundary : Boundary) (token : Text) :
    (skip : Nat) → (before : Option UInt8) → (offset : Nat) → Text → List Span
  | _, _, _, [] => []
  | skip + 1, _, offset, b :: rest =>
    occurrencesFrom boundary token skip (some b) (offset + 1) rest
  | 0, before, offset, b :: rest =>
    if token.isPrefixOf (b :: rest) &&
        boundary.accepts before ((b :: rest).drop token.length).head? then
      ⟨offset, offset + token.length⟩ ::
        occurrencesFrom boundary token (token.length - 1) (some b) (offset + 1) rest
    else occurrencesFrom boundary token 0 (some b) (offset + 1) rest

/-- The occurrences of a token in a text, from left to right. The empty token
    has none. -/
def occurrences (boundary : Boundary) (token t : Text) : List Span :=
  if token.isEmpty then [] else occurrencesFrom boundary token 0 none 0 t

/-- Whether a token occurs in a text. -/
def occurs (boundary : Boundary) (token t : Text) : Bool :=
  !(occurrences boundary token t).isEmpty

/-- How often a token occurs in a text. -/
def countOccurrences (boundary : Boundary) (token t : Text) : Nat :=
  (occurrences boundary token t).length

end ImportFinder.Matching
