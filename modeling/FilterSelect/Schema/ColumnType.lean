/-
Column types and their hierarchy.

A type may specialise a more general one, so that whatever is registered for the
general type also covers its specialisations: a double is a float and a float is
numeric.  A type that a host brings is known by its name and specialises nothing.
-/

namespace FilterSelect

/-- The declared type of a column. -/
inductive ColumnType where
  | integer
  | smallInteger
  | bigInteger
  | numeric
  | decimal
  | float
  | double
  | string
  | text
  | unicode
  | unicodeText
  | enum
  | date
  | dateTime
  | time
  | boolean
  | json
  /-- A type of the host. -/
  | custom (name : String)
deriving DecidableEq, Repr

namespace ColumnType

/-- The more general type that a type specialises. -/
def parent? : ColumnType → Option ColumnType
  | .smallInteger | .bigInteger => some .integer
  | .decimal | .float => some .numeric
  | .double => some .float
  | .text | .unicode | .enum => some .string
  | .unicodeText => some .text
  | _ => none

/-- A type with the types above it, at most `steps` of them. -/
def lineageUpto : Nat → ColumnType → List ColumnType
  | 0, t => [t]
  | steps + 1, t =>
    match t.parent? with
    | none => [t]
    | some p => t :: lineageUpto steps p

/-- A type with all types above it; no type has more than two above it. -/
def lineage (t : ColumnType) : List ColumnType :=
  lineageUpto 2 t

/-- Whether a type is another one or one of its specialisations. -/
def isA (t general : ColumnType) : Bool :=
  t.lineage.contains general

/-- Whether patterns can be matched against columns of a type. -/
def isStringLike (t : ColumnType) : Bool :=
  t.isA .string

/-- The name of a type in messages. -/
def name : ColumnType → String
  | .integer => "Integer"
  | .smallInteger => "SmallInteger"
  | .bigInteger => "BigInteger"
  | .numeric => "Numeric"
  | .decimal => "Decimal"
  | .float => "Float"
  | .double => "Double"
  | .string => "String"
  | .text => "Text"
  | .unicode => "Unicode"
  | .unicodeText => "UnicodeText"
  | .enum => "Enum"
  | .date => "Date"
  | .dateTime => "DateTime"
  | .time => "Time"
  | .boolean => "Boolean"
  | .json => "Json"
  | .custom name => name

/-! ### The hierarchy is complete -/

/-- A type's lineage is the type itself and the lineage of its parent. -/
theorem lineage_eq (t : ColumnType) :
    t.lineage = t :: (t.parent?.map lineage).getD [] := by
  cases t <;> rfl

theorem isA_self (t : ColumnType) : t.isA t = true := by
  rw [isA, lineage_eq]
  simp

/-- A type is a general one if it is that type or its parent is one. -/
theorem isA_iff (t general : ColumnType) :
    t.isA general = true ↔ t = general ∨ ∃ p, t.parent? = some p ∧ p.isA general = true := by
  rw [isA, lineage_eq, List.contains_cons, Bool.or_eq_true, beq_iff_eq, eq_comm (a := general)]
  cases t.parent? with
  | none => simp
  | some p => simp [isA]

end ColumnType

end FilterSelect
