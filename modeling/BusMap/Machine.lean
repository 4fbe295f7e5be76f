/-!
# Machine words

Addresses, sizes and masks are numbers of 64 bits, counts such as a width are numbers of 32 bits,
and field values are numbers of 128 bits with a sign. A `Fault` is no error of a declaration: a
computation needs a number that does not exist among them. Each operation here either gives the
number that arithmetic gives, or a fault.
-/

set_option autoImplicit false

namespace BusMap

/-- Bits of a machine word. -/
def wordBits : Nat := 64

/-- Number of machine words, and of byte addresses. -/
def wordLimit : Nat := 1 <<< wordBits

/-- Bits of a count, such as a port size or the position of a bit. -/
def countBits : Nat := 32

/-- Number of counts. -/
def countLimit : Nat := 1 <<< countBits

/-- Bits of a field value, of which one is the sign. -/
def valueBits : Nat := 128

/-- Field values are at least minus this number, and less than it. -/
def valueLimit : Nat := 1 <<< (valueBits - 1)

/-- A register word, and a mask of its bits or byte lanes. -/
abbrev Word := BitVec 64

/-- Numbers that the machine does not have. -/
inductive Fault where
  | sumTooLarge
  | differenceNegative
  | negationTooLarge
  | divisionByZero
  | shiftTooLarge
deriving DecidableEq, Repr

namespace Machine

/-- Sum of two numbers, if it is a machine word. -/
def add (a b : Nat) : Except Fault Nat :=
  if a + b < wordLimit then .ok (a + b) else .error .sumTooLarge

/-- Sum of two numbers, if it is a count. -/
def addCount (a b : Nat) : Except Fault Nat :=
  if a + b < countLimit then .ok (a + b) else .error .sumTooLarge

/-- Difference of two numbers, if it is not negative. -/
def sub (a b : Nat) : Except Fault Nat :=
  if b ≤ a then .ok (a - b) else .error .differenceNegative

/-- Quotient of two numbers, for a divisor that is not zero. -/
def div (a b : Nat) : Except Fault Nat :=
  if b = 0 then .error .divisionByZero else .ok (a / b)

/-- An amount by which a machine word can be shifted. -/
def shiftAmount (n : Nat) : Except Fault Nat :=
  if n < wordBits then .ok n else .error .shiftTooLarge

/-- A power of two, by a shift that reaches neither the width nor the sign of a field value. -/
def valuePower (n : Nat) : Except Fault Int :=
  if n < valueBits - 1 then .ok (1 <<< n : Nat) else .error .shiftTooLarge

/-- A number, if it is a field value. -/
def value (n : Int) : Except Fault Int :=
  if -valueLimit ≤ n ∧ n < valueLimit then .ok n else .error .sumTooLarge

variable {a b n : Nat} {cause : Fault}

theorem add_of_lt (h : a + b < wordLimit) : add a b = .ok (a + b) := if_pos h

theorem add_eq_ok_iff {c : Nat} : add a b = .ok c ↔ a + b < wordLimit ∧ c = a + b := by
  unfold add
  split
  · rw [Except.ok.injEq, eq_comm]
    exact (and_iff_right ‹_›).symm
  · simp [*]

theorem add_eq_error_iff : add a b = .error cause ↔ wordLimit ≤ a + b ∧ cause = .sumTooLarge := by
  unfold add
  split
  · simp only [reduceCtorEq, false_iff]
    omega
  · simp only [Except.error.injEq]
    constructor
    · rintro rfl
      exact ⟨by omega, rfl⟩
    · rintro ⟨-, rfl⟩
      rfl

theorem addCount_of_lt (h : a + b < countLimit) : addCount a b = .ok (a + b) := if_pos h

theorem sub_of_le (h : b ≤ a) : sub a b = .ok (a - b) := if_pos h

theorem sub_eq_ok_iff {c : Nat} : sub a b = .ok c ↔ b ≤ a ∧ c = a - b := by
  unfold sub
  split
  · rw [Except.ok.injEq, eq_comm]
    exact (and_iff_right ‹_›).symm
  · simp [*]

theorem div_of_pos (h : 0 < b) : div a b = .ok (a / b) := if_neg (Nat.ne_of_gt h)

theorem shiftAmount_of_lt (h : n < wordBits) : shiftAmount n = .ok n := if_pos h

theorem shiftAmount_eq_ok_iff {m : Nat} : shiftAmount n = .ok m ↔ n < wordBits ∧ m = n := by
  unfold shiftAmount
  split
  · rw [Except.ok.injEq, eq_comm]
    exact (and_iff_right ‹_›).symm
  · simp [*]

theorem valuePower_of_lt (h : n < valueBits - 1) : valuePower n = .ok (1 <<< n : Nat) := if_pos h

theorem value_of_mem {z : Int} (h : -valueLimit ≤ z ∧ z < valueLimit) : value z = .ok z := if_pos h

end Machine

end BusMap
