/-
White space, and what is read through it.

Constants arrive with stray space around them and keywords in any case, so most
readers start by trimming and some by folding case.  Both are defined here over
`List Char`, where the rest of the readers work.

White space is the Unicode property of that name: twenty-five code points, most
of them outside ASCII.  Case is folded for the letters A to Z only, which is all
that the fixed keywords of this library need.
-/

namespace FilterSelect

namespace Text

/-- Code points with the Unicode property `White_Space`. -/
def isBlank (c : Char) : Bool :=
  let n := c.toNat
  (9 ≤ n && n ≤ 13) || n == 0x20 || n == 0x85 || n == 0xA0 || n == 0x1680 ||
    (0x2000 ≤ n && n ≤ 0x200A) || n == 0x2028 || n == 0x2029 || n == 0x202F ||
    n == 0x205F || n == 0x3000

/-- Drops the white space in front. -/
def trimLeft (s : List Char) : List Char :=
  s.dropWhile isBlank

/-- Drops the white space at the end. -/
def trimRight (s : List Char) : List Char :=
  (trimLeft s.reverse).reverse

/-- Drops the white space on both sides. -/
def trim (s : List Char) : List Char :=
  trimRight (trimLeft s)

/-- Folds the letters A to Z to a to z and leaves every other character alone. -/
def lower (s : List Char) : List Char :=
  s.map Char.toLower

/-! ### What trimming leaves -/

theorem trimLeft_cons_of_blank {c : Char} (h : isBlank c = true) (s : List Char) :
    trimLeft (c :: s) = trimLeft s := by
  simp [trimLeft, h]

theorem trimLeft_cons_of_not_blank {c : Char} (h : isBlank c = false) (s : List Char) :
    trimLeft (c :: s) = c :: s := by
  simp [trimLeft, h]

end Text

end FilterSelect
