import BusMap.CeilLog
import BusMap.Machine

/-!
# Port shapes

The data and address geometry of a port. A port has one select line per granule of its data, and
addresses words of its full width. The number of select lines is a quotient, which does not exist
for a granularity of zero.
-/

set_option autoImplicit false

namespace BusMap

/-- Geometry of a port. -/
structure Shape where
  /-- Data width in bits. -/
  portSize : Nat
  /-- Smallest addressable unit in bits. -/
  granularity : Nat
  /-- Word address bits. -/
  addressSize : Nat
deriving DecidableEq, Repr

namespace Shape

/-- Select lines, one per granule. -/
def selectLines (s : Shape) : Except Fault Nat := Machine.div s.portSize s.granularity

/-- Address bits below the word address, which select a granule. -/
def addressLow (s : Shape) : Except Fault Nat := ceilLog2 <$> s.selectLines

/-- Lowest and highest index of the address signal, which has at least one bit. -/
def addressBits (s : Shape) : Except Fault (Nat × Nat) := do
  let lo ← s.addressLow
  return (lo, min (lo + (max s.addressSize 1 - 1)) (countLimit - 1))

/-- Same data width and granularity. -/
def SameFormat (s t : Shape) : Prop := s.portSize = t.portSize ∧ s.granularity = t.granularity

instance (s t : Shape) : Decidable (s.SameFormat t) :=
  inferInstanceAs (Decidable (_ ∧ _))

/-- Text such as `32/8 bit, 16 address bits`. -/
def text (s : Shape) : String :=
  s!"{s.portSize}/{s.granularity} bit, {s.addressSize} address bits"

end Shape

end BusMap
