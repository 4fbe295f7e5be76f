import BusMap.CeilLog
import BusMap.Placement
import BusMap.Register.Declaration

/-!
# Layout of a register set

Every register takes one word of `stride` bytes, at an offset from the base of the set that is
aligned to the least power of two that holds a word. The set decodes as many word address bits as
its highest register needs.
-/

set_option autoImplicit false

namespace BusMap

/-- Bytes of one register. -/
def stride (portSize : Nat) : Nat := portSize / 8

/-- Byte address bits below the word address. -/
def wordAlignmentBits (portSize : Nat) : Nat := ceilLog2 (stride portSize)

/-- Where a register is. -/
structure RegisterAddress where
  /-- Offset from the base of the set. -/
  relative : Nat
  /-- Address of the first byte. -/
  absolute : Nat
deriving DecidableEq, Repr

/-- The error that `size + extra` bytes do not fit from `base` on, if the machine has their
number. -/
def overflowBeyond (path : EntityPath) (base size extra : Nat) : Failure :=
  match Machine.add size extra with
  | .ok total => .conflict (.overflow path base total)
  | .error cause => .fault cause

/-- Address of a register whose bytes have the given offsets. A register that does not end below
the limit is reported with the number of bytes from the base to its end. -/
def RegisterAddress.at (base : Nat) (path : EntityPath) (range : Interval) :
    Except Failure RegisterAddress :=
  if base + range.last < wordLimit then do
    let absolute ← (Machine.add base range.first).mapError Failure.fault
    return ⟨range.first, absolute⟩
  else .error (overflowBeyond path base range.last 1)

namespace RegisterSetDecl

/-- What each register asks for. -/
def requests (d : RegisterSetDecl) : List Request :=
  d.registers.map fun r => ⟨d.registerPath r, r.address, stride d.portSize⟩

/-- Bytes of each register, as offsets from the base. -/
def ranges (d : RegisterSetDecl) : Except Failure (List Interval) := do
  let alignmentBits ← (Machine.shiftAmount (wordAlignmentBits d.portSize)).mapError Failure.fault
  (place alignmentBits d.requests).mapError Failure.conflict

/-- Address of each register. -/
def addresses (d : RegisterSetDecl) : Except Failure (List RegisterAddress) := do
  let ranges ← d.ranges
  (d.requests.zip ranges).mapM fun (request, range) =>
    RegisterAddress.at d.base request.path range

end RegisterSetDecl

/-- Word index of the highest register, zero without registers. -/
def highestWord (portSize : Nat) (addresses : List RegisterAddress) : Except Fault Nat := do
  let indices ← addresses.mapM fun a => Machine.div a.relative (stride portSize)
  return indices.max?.getD 0

/-- Word address bits that reach every register, at least one. -/
def addressSize (portSize : Nat) (addresses : List RegisterAddress) : Except Fault Nat := do
  let highest ← highestWord portSize addresses
  let words ← Machine.add highest 1
  return max (ceilLog2 words) 1

end BusMap
