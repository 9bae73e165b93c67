/-!
# Blank characters, trimming and words

A character is *blank* when it has the Unicode property `White_Space`. Texts
are lists of characters here, so that every function is a recursion on the
text it reads. `trim` drops the blanks at both ends, and `words` is the list
of maximal runs of characters that are not blank.
-/

namespace FallingSand.Text

/-- The code points with the property `White_Space`, as inclusive ranges. -/
def blankRanges : List (Nat × Nat) :=
  [(0x09, 0x0D), (0x20, 0x20), (0x85, 0x85), (0xA0, 0xA0), (0x1680, 0x1680),
   (0x2000, 0x200A), (0x2028, 0x2029), (0x202F, 0x202F), (0x205F, 0x205F),
   (0x3000, 0x3000)]

/-- Whether a character has the property `White_Space`. -/
def isBlank (c : Char) : Bool :=
  blankRanges.any fun (low, high) => low ≤ c.toNat && c.toNat ≤ high

def trimStart (text : List Char) : List Char :=
  text.dropWhile isBlank

def trimEnd (text : List Char) : List Char :=
  (text.reverse.dropWhile isBlank).reverse

def trim (text : List Char) : List Char :=
  trimEnd (trimStart text)

/-- The maximal runs of characters that are not blank, in order. -/
def words (text : List Char) : List (List Char) :=
  match _start : trimStart text with
  | [] => []
  | c :: rest =>
    (c :: rest.takeWhile (!isBlank ·)) :: words (rest.dropWhile (!isBlank ·))
termination_by text.length
decreasing_by
  have shorter : (trimStart text).length ≤ text.length :=
    (List.dropWhile_sublist _).length_le
  have tail : (rest.dropWhile (!isBlank ·)).length ≤ rest.length :=
    (List.dropWhile_sublist _).length_le
  rw [_start, List.length_cons] at shorter
  omega

/-- The first word of a text, or the text itself when it has none. -/
def firstWord (text : List Char) : List Char :=
  (words text).headD text

end FallingSand.Text
