import BusMap.Address
import BusMap.Error

/-!
# Placement

Registers in a set and slaves on a bus are placed by the same rule. Every request for a fixed
address is served first, in declaration order: its address must be aligned, and its range must meet
no range placed before it. Every other request then takes, in declaration order, the next aligned
address above all ranges placed so far. A fixed request is thus never moved by one that leaves the
choice open, wherever the two are declared.

The alignment is a power of two, given by its exponent.
-/

set_option autoImplicit false

namespace BusMap

/-- An entity that has been given a range. -/
structure Placement where
  path : EntityPath
  range : Interval
deriving DecidableEq, Repr

/-- Ranges placed so far, in the order in which they were placed. -/
structure Allocator where
  alignmentBits : Nat
  placed : List Placement
  /-- First address above all ranges; none once the last address has been used. -/
  nextFree? : Option Nat
deriving DecidableEq, Repr

/-- An entity that asks for `size` addresses. -/
structure Request where
  path : EntityPath
  address : Address
  size : Nat
deriving DecidableEq, Repr

namespace Allocator

/-- Nothing is placed. -/
def empty (alignmentBits : Nat) : Allocator := ⟨alignmentBits, [], some 0⟩

/-- Every range starts at a multiple of the alignment. -/
def alignment (a : Allocator) : Nat := 1 <<< a.alignmentBits

/-- Least multiple of the alignment from `n` on, if there is one below the limit. -/
def alignUp? (a : Allocator) (n : Nat) : Option Nat :=
  let aligned := (n + a.alignment - 1) / a.alignment * a.alignment
  if aligned < wordLimit then some aligned else none

/-- First free address once `range` is taken. -/
def nextFreeAfter (a : Allocator) (range : Interval) : Option Nat :=
  match a.nextFree? with
  | none => none
  | some current => if range.last + 1 < wordLimit then some (max current (range.last + 1)) else none

/-- Takes a range. -/
def commit (a : Allocator) (path : EntityPath) (range : Interval) : Allocator :=
  { a with placed := a.placed ++ [⟨path, range⟩], nextFree? := a.nextFreeAfter range }

/-- First placement whose range meets `range`. -/
def blocker? (a : Allocator) (range : Interval) : Option Placement :=
  a.placed.find? fun p => p.range.Overlaps range

/-- Places `size` addresses at the given one. A failure has a state after it as well. -/
def placeAt (a : Allocator) (path : EntityPath) (address size : Nat) :
    Except Conflict Interval × Allocator :=
  if address % a.alignment ≠ 0 then (.error (.misaligned path address a.alignment), a)
  else
    match Interval.ofSize? address size with
    | none => (.error (.overflow path address size), a)
    | some range =>
      match a.blocker? range with
      | some other => (.error (.overlap path range other.path other.range), a)
      | none => (.ok range, a.commit path range)

/-- Range that `size` addresses take when the choice is open. -/
def nextRange? (a : Allocator) (size : Nat) : Option Interval :=
  a.nextFree?.bind fun free => (a.alignUp? free).bind fun start => Interval.ofSize? start size

/-- Places `size` addresses at the next free aligned one. -/
def placeNext (a : Allocator) (path : EntityPath) (size : Nat) :
    Except Conflict Interval × Allocator :=
  match a.nextRange? size with
  | none => (.error (.overflow path (a.nextFree?.getD (wordLimit - 1)) size), a)
  | some range => (.ok range, a.commit path range)

/-- Serves one request by itself. -/
def serve (a : Allocator) (r : Request) : Except Conflict Interval × Allocator :=
  match r.address with
  | .auto => a.placeNext r.path r.size
  | .fixed address => a.placeAt r.path address r.size

/-- State after one request by itself, whether it succeeds or fails. -/
def after (a : Allocator) (r : Request) : Allocator := (a.serve r).2

/-- State after requests that are served one by one, whichever they ask for. -/
def run (a : Allocator) (rs : List Request) : Allocator := rs.foldl after a

/-- What a pass goes on with: the range and the state after it, if the request succeeds. -/
def granted : Except Conflict Interval × Allocator → Except Conflict (Interval × Allocator)
  | (.ok range, a) => .ok (range, a)
  | (.error cause, _) => .error cause

/-- Serves the requests for a fixed address. An open request has no range yet. -/
def placeFixed (a : Allocator) : List Request → Except Conflict (List (Option Interval) × Allocator)
  | [] => .ok ([], a)
  | r :: rs =>
    match r.address with
    | .auto => do
      let (ranges, a) ← a.placeFixed rs
      return (none :: ranges, a)
    | .fixed address => do
      let (range, a) ← granted (a.placeAt r.path address r.size)
      let (ranges, a) ← a.placeFixed rs
      return (some range :: ranges, a)

/-- Serves the requests that have no range yet. -/
def placeOpen (a : Allocator) : List (Request × Option Interval) → Except Conflict (List Interval)
  | [] => .ok []
  | (_, some range) :: rest => do
    let ranges ← a.placeOpen rest
    return range :: ranges
  | (r, none) :: rest => do
    let (range, a) ← granted (a.placeNext r.path r.size)
    let ranges ← a.placeOpen rest
    return range :: ranges

end Allocator

/-- Ranges of all requests, in declaration order. -/
def place (alignmentBits : Nat) (requests : List Request) : Except Conflict (List Interval) := do
  let (ranges, a) ← (Allocator.empty alignmentBits).placeFixed requests
  a.placeOpen (requests.zip ranges)

end BusMap
