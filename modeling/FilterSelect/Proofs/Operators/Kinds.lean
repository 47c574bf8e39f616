/-
What kind of constant a column is compared with.

Columns of a type are compared with constants of one kind, which is that of the nearest
converter at or above the type.  A table of converters is not searched that way: it goes
from the front and takes whichever entry comes first, the general one as well.  That the
two agree is a matter of the order of the built-in table (`Converters.find?_builtIn`), and
everything about kinds is read off it.

The type of a column decides about an operator in two places: a pattern is refused before
its constant is looked at, and every other constant goes to the converter, except null,
which no converter is asked about.  So what comes of an operator depends on a few cases
only, which do not overlap (`Comparison.Decides`).
-/
import FilterSelect.Proofs.Operators.Test

namespace FilterSelect

/-! ### Kinds of constants -/

/-- The kinds of constants that converters make. -/
inductive Kind where
  | integer
  /-- A finite double. -/
  | float
  | decimal
  | date
  | dateTime
  | time
  | boolean
  /-- The scalar itself. -/
  | scalar
deriving DecidableEq, Repr

/-- The kind of the converter that is registered for just this type. -/
def Kind.ofRegistered? : ColumnType → Option Kind
  | .integer => some .integer
  | .float => some .float
  | .numeric => some .decimal
  | .date => some .date
  | .dateTime => some .dateTime
  | .time => some .time
  | .boolean => some .boolean
  | _ => none

/-- The kind of the nearest converter at or above a type; without one, the scalar itself. -/
def ColumnType.kind (type : ColumnType) : Kind :=
  (type.lineage.findSome? Kind.ofRegistered?).getD .scalar

/-- The kinds of all types. -/
theorem ColumnType.kind_eq (type : ColumnType) : type.kind =
    match type with
    | .integer | .smallInteger | .bigInteger => .integer
    | .float | .double => .float
    | .numeric | .decimal => .decimal
    | .date => .date
    | .dateTime => .dateTime
    | .time => .time
    | .boolean => .boolean
    | _ => .scalar := by
  cases type <;> rfl

theorem ColumnType.kind_of_isStringLike {type : ColumnType} (h : type.isStringLike = true) :
    type.kind = .scalar := by
  cases type <;> first | rfl | cases h

/-- A value of a kind, made of a scalar.  A number is kept as a word or as its nearest double. -/
inductive Kind.Makes : Kind → Json → Value → Prop
  | integer (raw : Json) (i : Int64) : Makes .integer raw (.integer i)
  | float (raw : Json) (x : Binary64) : Makes .float raw (.float x)
  | decimal (raw : Json) (d : Decimal) : Makes .decimal raw (.decimal d)
  | date (raw : Json) (d : Date) : Makes .date raw (.date d)
  | dateTime (raw : Json) (t : DateTime) : Makes .dateTime raw (.dateTime t)
  | time (raw : Json) (t : Time) : Makes .time raw (.time t)
  | boolean (raw : Json) (b : Bool) : Makes .boolean raw (.bool b)
  | null : Makes .scalar .null .null
  | bool (b : Bool) : Makes .scalar (.bool b) (.bool b)
  | string (s : String) : Makes .scalar (.string s) (.string s)
  | word {n : Json.Number} {i : Int64} (h : n.toInt64? = some i) :
      Makes .scalar (.number n) (.integer i)
  | double {n : Json.Number} (h : n.toInt64? = none) :
      Makes .scalar (.number n) (.float n.toBinary64)

/-- The converter of a kind. -/
def Kind.converter? : Kind → Option Converter
  | .integer => some fun _ raw => (Value.readInteger raw).map .integer
  | .float => some fun _ raw => (Value.readFloat raw).map .float
  | .decimal => some fun _ raw => (Value.readDecimal raw).map .decimal
  | .date => some fun clock raw => (Value.readDate clock raw).map .date
  | .dateTime => some fun clock raw => (Value.readDateTime clock raw).map .dateTime
  | .time => some fun clock raw => (Value.readTime clock raw).map .time
  | .boolean => some fun _ raw => (Value.readBool raw).map .bool
  | .scalar => none

/-- The entry that is found first is that of the nearest type. -/
theorem Converters.find?_builtIn (type : ColumnType) :
    builtIn.find? type = type.kind.converter? := by
  cases type <;> rfl

theorem Value.makes_of_ofScalar {raw : Json} {v : Value} (h : ofScalar raw = .ok v) :
    Kind.scalar.Makes raw v := by
  cases raw with
  | null =>
      cases h
      exact .null
  | bool b =>
      cases h
      exact .bool b
  | string s =>
      cases h
      exact .string s
  | number n =>
      cases hword : n.toInt64? with
      | some i =>
          simp only [ofScalar, hword, Except.ok.injEq] at h
          rw [← h]
          exact .word hword
      | none =>
          simp only [ofScalar, hword, Except.ok.injEq] at h
          rw [← h]
          exact .double hword
  | array items => cases h
  | object members => cases h

private theorem Kind.makes_of_converter? {kind : Kind} {converter : Converter} {clock : DateTime}
    {raw : Json} {v : Value} (hconverter : kind.converter? = some converter)
    (h : converter clock raw = .ok v) : kind.Makes raw v := by
  have hmap {α : Type} {make : α → Value} {run : Except Refusal α} (hrun : run.map make = .ok v) :
      ∃ a, v = make a := by
    cases run with
    | error refusal => cases hrun
    | ok a =>
        cases hrun
        exact ⟨a, rfl⟩
  cases kind with
  | scalar => cases hconverter
  | _ =>
      cases hconverter
      obtain ⟨a, rfl⟩ := hmap h
      constructor

/-- What is converted for a column is of the kind of the column's type. -/
theorem Converters.makes_of_convert {given : Option Converters} {clock : DateTime}
    {type : ColumnType} {raw : Json} {v : Value} (hgiven : orBuiltIn given = builtIn)
    (h : convert given clock type raw = .ok v) : type.kind.Makes raw v := by
  rw [convert, hgiven, find?_builtIn] at h
  cases hconverter : type.kind.converter? with
  | some converter =>
      rw [hconverter] at h
      exact Kind.makes_of_converter? hconverter h
  | none =>
      have hkind : type.kind = .scalar := by
        cases hk : type.kind <;> rw [hk] at hconverter <;> first | rfl | cases hconverter
      rw [hconverter] at h
      rw [hkind]
      exact Value.makes_of_ofScalar h

theorem Converters.convert_string {given : Option Converters} {clock : DateTime}
    {type : ColumnType} (hgiven : orBuiltIn given = builtIn) (htype : type.isStringLike = true)
    (s : String) : convert given clock type (.string s) = .ok (.string s) := by
  rw [convert, hgiven, find?_builtIn, ColumnType.kind_of_isStringLike htype]
  rfl

/-! ### What comparisons ask

A scalar that is null asks for NULL or for what is not NULL, and every other one is converted
first.  A pattern is the text of a string, whatever kind the column has.
-/

/-- The comparator of a comparison that does not match patterns. -/
def Comparison.comparator? : Comparison → Option Comparator
  | .eq => some .equal
  | .neq => some .notEqual
  | .lt => some .less
  | .lte => some .lessOrEqual
  | .gt => some .greater
  | .gte => some .greaterOrEqual
  | .like | .ilike => none

/-- What a comparison asks of columns of a type for a scalar that it takes. -/
inductive Comparison.Asks (type : ColumnType) : Comparison → Json → Test → Prop
  | isNull : Asks type .eq .null .isNull
  | isNotNull : Asks type .neq .null .isNotNull
  /-- Nothing is less or greater than NULL; the comparison is made all the same. -/
  | null {c : Comparison} {comparator : Comparator} (heq : c ≠ .eq) (hneq : c ≠ .neq)
      (h : c.comparator? = some comparator) : Asks type c .null (.compare comparator .null)
  | value {c : Comparison} {comparator : Comparator} {raw : Json} {v : Value}
      (h : c.comparator? = some comparator) (hraw : raw ≠ .null) (hv : type.kind.Makes raw v) :
      Asks type c raw (.compare comparator v)
  | like {s : String} (h : type.kind = .scalar) : Asks type .like (.string s) (.like s)
  | likeFolded {s : String} (h : type.kind = .scalar) : Asks type .ilike (.string s) (.likeFolded s)

section Asks

variable {type : ColumnType} {c : Comparison} {raw : Json} {test : Test}

private theorem Comparison.asks_null (h : c.test? none = some test) : c.Asks type .null test := by
  cases c <;> cases h
  case eq => exact .isNull
  case neq => exact .isNotNull
  all_goals exact .null nofun nofun rfl

private theorem Kind.Makes.eq_string {kind : Kind} {s : String} (h : kind.Makes raw (.string s)) :
    kind = .scalar ∧ raw = .string s := by
  cases h
  exact ⟨rfl, rfl⟩

private theorem Comparison.asks_value {v : Value} (hraw : raw ≠ .null) (hv : type.kind.Makes raw v)
    (h : c.test? (some v) = some test) : c.Asks type raw test := by
  cases c with
  | like =>
      cases v <;> cases h
      obtain ⟨hkind, rfl⟩ := hv.eq_string
      exact .like hkind
  | ilike =>
      cases v <;> cases h
      obtain ⟨hkind, rfl⟩ := hv.eq_string
      exact .likeFolded hkind
  | _ =>
      cases h
      exact .value rfl hraw hv

end Asks

namespace Operator

variable {given : Option Converters} {clock : DateTime} {type : ColumnType} {raw : Json}

theorem valueFor_of_ne_null (hraw : raw ≠ .null) : valueFor given clock type raw =
    match Converters.convert given clock type raw with
    | .ok v => .ok (some v)
    | .error refusal => .error (.conversion raw type refusal) := by
  cases raw with
  | null => exact absurd rfl hraw
  | _ => rfl

theorem asks_of_test? {op : Operator} {test : Test}
    (hgiven : Converters.orBuiltIn given = Converters.builtIn)
    (h : op.test? given clock type raw = some test) : op.comparison.Asks type raw test := by
  rw [test?] at h
  split at h
  · by_cases hraw : raw = .null
    · subst hraw
      exact Comparison.asks_null h
    · rw [valueFor_of_ne_null hraw] at h
      cases hconvert : Converters.convert given clock type raw with
      | error refusal => simp [hconvert, Except.toOption] at h
      | ok v =>
          rw [hconvert] at h
          exact Comparison.asks_value hraw (Converters.makes_of_convert hgiven hconvert) h
  · cases h

end Operator

/-! ### What comes of a comparison -/

/-- A fault of a scalar that is no constant for columns of a type. -/
inductive Fault.Refuses (type : ColumnType) (raw : Json) : Fault → Prop
  | conversion (refusal : Refusal) : Refuses type raw (.conversion raw type refusal)
  /-- The scalar is a constant, or null, but no pattern. -/
  | pattern (found : Option Value) : Refuses type raw (.pattern found type)

/-- What comes of a built-in comparison with a field and a scalar, case by case. -/
structure Comparison.Decides (c : Comparison) (field : Field) (raw : Json)
    (converted : Except Refusal Value) (run : Except Fault Condition) : Prop where
  mismatch : c.isPattern = true → field.type.isStringLike = false →
    run = .error (.typeMismatch c.name field.type)
  null : c.isPattern = false → raw = .null → ∃ condition, run = .ok condition
  pattern : c.isPattern = true → field.type.isStringLike = true →
    ((∃ condition, run = .ok condition) ↔ ∃ s, raw = .string s)
  value : c.isPattern = false → raw ≠ .null →
    ((∃ condition, run = .ok condition) ↔ ∃ v, converted = .ok v)
  /-- What is asked then has the constant that the scalar was converted to. -/
  asks : ∀ condition, run = .ok condition → ∃ test,
    condition = test.on field.toColumnRef ∧ c.Asks field.type raw test ∧
      ∀ comparator v, test = .compare comparator v → raw ≠ .null → converted = .ok v
  refuses : ∀ fault, run = .error fault →
    (c.isPattern = true ∧ field.type.isStringLike = false) ∨ fault.Refuses field.type raw

section Decides

variable {c : Comparison} {field : Field} {raw : Json} {given : Option Converters}
  {clock : DateTime} {condition : Condition}

private theorem Comparison.exists_build (h : c.isPattern = false) (value : Option Value) :
    ∃ condition, c.build field value = .ok condition := by
  cases c with
  | like => cases h
  | ilike => cases h
  | _ => cases value <;> exact ⟨_, rfl⟩

private theorem Comparison.refuses_of_build {value : Option Value} {fault : Fault}
    (h : c.build field value = .error fault) : fault.Refuses field.type raw := by
  have hpattern {make : String → Condition}
      (hmake : (patternOf field value).map make = .error fault) : fault.Refuses field.type raw := by
    unfold patternOf at hmake
    split at hmake
    · cases hmake
    · cases hmake
      exact .pattern _
  cases c with
  | like => exact hpattern h
  | ilike => exact hpattern h
  | _ => cases value <;> cases h

private theorem Comparison.Asks.exists_string {type : ColumnType} {test : Test}
    (h : c.Asks type raw test) (hpattern : c.isPattern = true) : ∃ s, raw = .string s := by
  cases h with
  | like => exact ⟨_, rfl⟩
  | likeFolded => exact ⟨_, rfl⟩
  | isNull => cases hpattern
  | isNotNull => cases hpattern
  | null _ _ h => cases c <;> cases hpattern <;> cases h
  | value h => cases c <;> cases hpattern <;> cases h

namespace Operator

private theorem exists_test?_of_apply {op : Operator}
    (h : op.apply given clock field raw = .ok condition) :
    ∃ test, op.test? given clock field.type raw = some test ∧
      condition = test.on field.toColumnRef := by
  have happly := op.toOption_apply given clock field raw
  rw [h] at happly
  obtain ⟨test, htest, hcondition⟩ := Option.map_eq_some_iff.mp happly.symm
  exact ⟨test, htest, hcondition.symm⟩

/-- An operator that is not refused for the type builds from what the scalar is converted to. -/
theorem apply_of_accepts {op : Operator} (h : op.accepts field.type = true) :
    op.apply given clock field raw =
      match valueFor given clock field.type raw with
      | .ok value => op.comparison.build field value
      | .error fault => .error fault :=
  if_pos h

private theorem value_of_test? {comparator : Comparator} {v : Value}
    (h : (builtIn c).test? given clock field.type raw = some (.compare comparator v))
    (hraw : raw ≠ .null) : Converters.convert given clock field.type raw = .ok v := by
  rw [test?] at h
  split at h
  · rw [valueFor_of_ne_null hraw] at h
    cases hconvert : Converters.convert given clock field.type raw with
    | error refusal => simp [hconvert, Except.toOption] at h
    | ok w =>
        rw [hconvert] at h
        have hsame : c.test? (some w) = some (.compare comparator v) := h
        cases c <;> first | (cases hsame; rfl) | (cases w <;> cases hsame)
  · cases h

/-- A built-in comparison under the built-in converters. -/
theorem decides (hgiven : Converters.orBuiltIn given = Converters.builtIn) (c : Comparison)
    (clock : DateTime) (field : Field) (raw : Json) :
    c.Decides field raw (Converters.convert given clock field.type raw)
      ((builtIn c).apply given clock field raw) where
  mismatch := by
    intro hpattern hstring
    have hrefused : (builtIn c).accepts field.type = false := by
      simp [accepts, Comparison.accepts, hpattern, hstring]
    rw [apply, if_neg (by rw [hrefused]; exact Bool.false_ne_true)]
    rfl
  null := by
    rintro hpattern rfl
    have haccepts : (builtIn c).accepts field.type = true := by
      simp [accepts, Comparison.accepts, hpattern]
    rw [apply_of_accepts haccepts]
    exact Comparison.exists_build hpattern none
  pattern := by
    intro hpattern hstring
    have haccepts : (builtIn c).accepts field.type = true := by
      simp [accepts, Comparison.accepts, hstring]
    constructor
    · rintro ⟨condition, h⟩
      obtain ⟨test, htest, -⟩ := exists_test?_of_apply h
      exact (asks_of_test? hgiven htest).exists_string hpattern
    · rintro ⟨s, rfl⟩
      have hraw : Json.string s ≠ .null := by simp
      rw [apply_of_accepts haccepts, valueFor_of_ne_null hraw,
        Converters.convert_string hgiven hstring]
      cases c with
      | like => exact ⟨_, rfl⟩
      | ilike => exact ⟨_, rfl⟩
      | _ => cases hpattern
  value := by
    intro hpattern hraw
    have haccepts : (builtIn c).accepts field.type = true := by
      simp [accepts, Comparison.accepts, hpattern]
    rw [apply_of_accepts haccepts, valueFor_of_ne_null hraw]
    cases hconvert : Converters.convert given clock field.type raw with
    | error refusal => simp
    | ok v =>
        constructor
        · intro h
          exact ⟨v, rfl⟩
        · intro h
          exact Comparison.exists_build hpattern (some v)
  asks := by
    intro condition h
    obtain ⟨test, htest, rfl⟩ := exists_test?_of_apply h
    refine ⟨test, rfl, asks_of_test? hgiven htest, ?_⟩
    rintro comparator v rfl hraw
    exact value_of_test? htest hraw
  refuses := by
    intro fault h
    cases haccepts : (builtIn c).accepts field.type with
    | false =>
        left
        simpa [accepts, Comparison.accepts] using haccepts
    | true =>
        right
        rw [apply_of_accepts haccepts] at h
        by_cases hraw : raw = .null
        · subst hraw
          exact Comparison.refuses_of_build h
        · rw [valueFor_of_ne_null hraw] at h
          cases hconvert : Converters.convert given clock field.type raw with
          | error refusal =>
              rw [hconvert] at h
              cases h
              exact .conversion refusal
          | ok v =>
              rw [hconvert] at h
              exact Comparison.refuses_of_build h

end Operator

end Decides

end FilterSelect
