import BusMap.Machine

/-!
# Field datatypes

Software sees a field as an integer of one of four sizes, signed or not, or as a flag of one bit.
The values of a field are limited by its own width, which may be smaller than the datatype.
-/

set_option autoImplicit false

namespace BusMap

/-- Sizes of the integers that software uses. -/
inductive IntegerSize where
  | bits8
  | bits16
  | bits32
  | bits64
deriving DecidableEq, Repr

/-- Width in bits. -/
def IntegerSize.bits : IntegerSize → Nat
  | .bits8 => 8
  | .bits16 => 16
  | .bits32 => 32
  | .bits64 => 64

/-- How software sees a field. -/
inductive Datatype where
  | unsigned (size : IntegerSize)
  | signed (size : IntegerSize)
  /-- Flag of one bit. -/
  | boolean
  /-- Flag that is raised for one cycle, or until it is acknowledged. -/
  | strobe
deriving DecidableEq, Repr

namespace Datatype

/-- All datatypes, in the order in which a reader lists them. -/
def all : List Datatype :=
  [unsigned .bits8, unsigned .bits16, unsigned .bits32, unsigned .bits64,
    signed .bits8, signed .bits16, signed .bits32, signed .bits64, boolean, strobe]

/-- Name in declarations and messages. -/
def name : Datatype → String
  | unsigned size => s!"Unsigned{size.bits}Bit"
  | signed size => s!"Signed{size.bits}Bit"
  | boolean => "Boolean"
  | strobe => "Strobe"

/-- Width in bits. -/
def bits : Datatype → Nat
  | unsigned size => size.bits
  | signed size => size.bits
  | boolean => 1
  | strobe => 1

/-- Values may be negative. -/
def isSigned : Datatype → Bool
  | signed _ => true
  | _ => false

/-- A flag is exactly one bit wide. -/
def isFlag : Datatype → Bool
  | boolean => true
  | strobe => true
  | _ => false

/-- Least and greatest value of a field of this datatype and width. Widths below 1 and above 64
count as 1 and 64. -/
def valueRange (t : Datatype) (width : Nat) : Int × Int :=
  let width := min (max width 1) 64
  let count : Nat := if t.isSigned then 1 <<< (width - 1) else 1 <<< width
  (if t.isSigned then -count else 0, count - 1)

/-- Least and greatest value, computed with field values. -/
def checkedValueRange (t : Datatype) (width : Nat) : Except Fault (Int × Int) := do
  let width := min (max width 1) 64
  let exponent ← if t.isSigned then Machine.sub width 1 else .ok width
  let count ← Machine.valuePower exponent
  let low ← if t.isSigned then Machine.value (-count) else .ok 0
  let high ← Machine.value (count - 1)
  return (low, high)

/-- A power of two that counts words is a field value, and so are the numbers next to it. -/
theorem value_of_power {n : Nat} (h : n ≤ 64) :
    Machine.valuePower n = .ok (1 <<< n : Nat) ∧
      Machine.value (-(1 <<< n : Nat)) = .ok (-(1 <<< n : Nat)) ∧
      Machine.value ((1 <<< n : Nat) - 1) = .ok ((1 <<< n : Nat) - 1) := by
  have hlimit : valueLimit = 2 ^ 127 := Nat.one_shiftLeft 127
  have hpower : 1 <<< n ≤ 2 ^ 64 := by
    rw [Nat.one_shiftLeft]
    exact Nat.pow_le_pow_right (by decide) h
  refine ⟨Machine.valuePower_of_lt (Nat.lt_of_le_of_lt h (by decide)), ?_⟩
  generalize 1 <<< n = power at hpower
  exact ⟨Machine.value_of_mem (by omega), Machine.value_of_mem (by omega)⟩

/-- Field values are wide enough for the values of every field. -/
theorem checkedValueRange_eq (t : Datatype) (width : Nat) :
    t.checkedValueRange width = .ok (t.valueRange width) := by
  rw [checkedValueRange, valueRange]
  generalize hclamped : min (max width 1) 64 = clamped
  have hpos : 1 ≤ clamped := by omega
  have hle : clamped ≤ 64 := by omega
  cases t.isSigned with
  | true =>
    obtain ⟨hpower, hlow, hhigh⟩ := value_of_power (Nat.le_trans (Nat.sub_le clamped 1) hle)
    simp only [if_true, Machine.sub_of_le hpos, bind, Except.bind, hpower, hlow, hhigh]
    rfl
  | false =>
    obtain ⟨hpower, -, hhigh⟩ := value_of_power hle
    simp only [Bool.false_eq_true, if_false, bind, Except.bind, hpower, hhigh]
    rfl

end Datatype

end BusMap
