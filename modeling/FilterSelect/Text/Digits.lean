/-
Decimal digits.

A number is written by `digits` and read by `numeral`, both over `List Char` and
both in base ten with ASCII digits only.  `padded` is the fixed-width form that
dates and times use.
-/

namespace FilterSelect

namespace Text

/-- The value of one digit; any other character counts from the same origin. -/
def digitValue (c : Char) : Nat :=
  c.toNat - '0'.toNat

/-- The number that a run of digits writes, most significant digit first. -/
def numeral (ds : List Char) : Nat :=
  ds.foldl (fun n d => 10 * n + digitValue d) 0

/-- The digits of a number without leading zeros; zero is one digit. -/
def digits (n : Nat) : List Char :=
  Nat.toDigits 10 n

/-- The digits of a number, with zeros in front up to `width` places. -/
def padded (width n : Nat) : List Char :=
  let ds := digits n
  List.replicate (width - ds.length) '0' ++ ds

/-- The digits of an integer, after a minus sign if it is negative. -/
def signedDigits (i : Int) : List Char :=
  if i < 0 then '-' :: digits i.natAbs else digits i.natAbs

/-- Splits off the run of digits in front, at most `most` of them. -/
def takeDigits : Nat → List Char → List Char × List Char
  | 0, s => ([], s)
  | _ + 1, [] => ([], [])
  | most + 1, c :: rest =>
    if c.isDigit then
      let taken := takeDigits most rest
      (c :: taken.1, taken.2)
    else ([], c :: rest)

/-- Splits off the whole run of digits in front. -/
def takeAllDigits (s : List Char) : List Char × List Char :=
  (s.takeWhile Char.isDigit, s.dropWhile Char.isDigit)

/-- Splits off a sign in front; true stands for minus. -/
def splitSign : List Char → Bool × List Char
  | '-' :: rest => (true, rest)
  | '+' :: rest => (false, rest)
  | s => (false, s)

/-- The integer that a whole text writes: digits, at least one, after an optional sign. -/
def signedNumeral? (s : List Char) : Option Int :=
  let (negative, ds) := splitSign s
  if ds.isEmpty || !ds.all Char.isDigit then none
  else some (if negative then -(numeral ds : Int) else numeral ds)

/-! ### What is split off -/

/-- Nothing is lost: the digits taken and the rest are the text. -/
theorem takeDigits_append (most : Nat) (s : List Char) :
    (takeDigits most s).1 ++ (takeDigits most s).2 = s := by
  fun_induction takeDigits most s with
  | case1 => rfl
  | case2 => rfl
  | case3 m c rest h taken ih => simpa using ih
  | case4 => rfl

/-- What is taken is digits only. -/
theorem isDigit_of_mem_takeDigits {most : Nat} {s : List Char} {c : Char}
    (h : c ∈ (takeDigits most s).1) : c.isDigit = true := by
  fun_induction takeDigits most s with
  | case1 => simp at h
  | case2 => simp at h
  | case3 m d rest hd taken ih =>
    rcases List.mem_cons.mp h with rfl | h
    · exact hd
    · exact ih h
  | case4 => simp at h

end Text

end FilterSelect
