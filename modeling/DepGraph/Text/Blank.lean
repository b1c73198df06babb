/-!
# Blank characters

`isBlank` is the Unicode property White_Space, and `trim` removes blanks at both ends of a text.

* `isBlank_of_isWhitespace`: the class contains the usual ASCII blanks.
* `trim_eq_trimMatches`: `trim` is the instance of `trimMatches` for blanks.
-/

namespace DepGraph.Text

/-- Is `c` white space? -/
def isBlank (c : Char) : Bool :=
  let n := c.toNat
  (9 ≤ n && n ≤ 13) || n == 0x20 || n == 0x85 || n == 0xa0 || n == 0x1680 ||
    (0x2000 ≤ n && n ≤ 0x200a) || n == 0x2028 || n == 0x2029 || n == 0x202f || n == 0x205f ||
    n == 0x3000

theorem isBlank_of_isWhitespace {c : Char} (h : c.isWhitespace) : isBlank c := by
  simp only [Char.isWhitespace, Bool.or_eq_true, decide_eq_true_eq] at h
  rcases h with ((rfl | rfl) | rfl) | rfl <;> decide

/-- The text without the blanks at its end. -/
def trimEnd (text : List Char) : List Char :=
  (text.reverse.dropWhile isBlank).reverse

/-- The text without the blanks at its start and at its end. -/
def trim (text : List Char) : List Char :=
  trimEnd (text.dropWhile isBlank)

@[simp] theorem trim_nil : trim [] = [] := rfl

/-- The text without the characters of the class `p` at its start and at its end. -/
def trimMatches (p : Char → Bool) (text : List Char) : List Char :=
  ((text.dropWhile p).reverse.dropWhile p).reverse

theorem trim_eq_trimMatches (text : List Char) : trim text = trimMatches isBlank text := rfl

end DepGraph.Text
