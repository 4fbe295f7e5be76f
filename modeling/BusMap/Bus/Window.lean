import BusMap.Bus.Format
import BusMap.Placement

/-!
# Slave windows

A slave answers to a window of bus addresses: one word of the bus for each of its word addresses.
Windows are placed like registers in a set, aligned to one word of the bus.
-/

set_option autoImplicit false

namespace BusMap

/-- Size of a window with the given number of address bits, if it exists. -/
def windowSize? (bits : Nat) : Option Nat :=
  if bits < wordBits then some (1 <<< bits) else none

/-- What a slave asks for on a bus whose words take `low` address bits. -/
def SlaveDecl.request (path : EntityPath) (low : Nat) (s : SlaveDecl) : Except Conflict Request :=
  match windowSize? (s.shape.addressSize + low) with
  | some size => .ok ⟨path.child s.name, s.baseAddress, size⟩
  | none =>
    .error (.overflow (path.child s.name) (s.baseAddress.fixed?.getD 0) (wordLimit - 1))

/-- Window of every slave on a bus whose words take `low` address bits. -/
def BusDecl.windows (d : BusDecl) (low : Nat) : Except Failure (List Interval) := do
  let requests ← (d.slaves.mapM (SlaveDecl.request d.path low)).mapError Failure.conflict
  let alignmentBits ← (Machine.shiftAmount low).mapError Failure.fault
  (place alignmentBits requests).mapError Failure.conflict

end BusMap
