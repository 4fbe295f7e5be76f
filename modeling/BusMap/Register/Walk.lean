import BusMap.Register.Model

/-!
# Walking a register set

A code generator is told of a resolved set by a list of events: the set, then every register in
declaration order with its fields and their accessors, then what can be done for the whole set. The
set may be placed at another base, and word addresses may be shifted for the port that is used. A
walk stops at the first register that the base moves out of the address space; the events before it
remain.
-/

set_option autoImplicit false

namespace BusMap

/-- Placement of the set as generated code sees it. -/
structure WalkOptions where
  /-- Shift of word addresses: to the right where positive, to the left where negative. -/
  addressShift : Int := 0
  /-- Base in place of the set's own. -/
  base? : Option Nat := none
deriving DecidableEq, Repr

/-- What is told of a set. -/
structure SetInfo where
  name : String
  portSize : Nat
  granularity : Nat
  alignmentBits : Nat
  addressSize : Nat
  addressShift : Int
  base : Nat
deriving DecidableEq, Repr

/-- What is told of a register. -/
structure RegisterInfo where
  name : String
  description : String
  comment : Option String
  kind : RegisterKind
  writeEvent : Option WriteEvent
  absoluteAddress : Nat
  /-- The absolute address in words, shifted. -/
  wordAddress : Nat
  needsShadowRead : Bool
  needsShadowWrite : Bool
  resetValue : Word
deriving DecidableEq, Repr

/-- What is told of a field. -/
structure FieldInfo where
  name : String
  description : String
  comment : Option String
  offset : Nat
  width : Nat
  bitmask : Word
  laneMask : Word
  datatype : Datatype
  default : Int
  defaultPattern : Word
  trigger : Trigger
deriving DecidableEq, Repr

/-- One step of a walk. -/
inductive WalkEvent where
  | beginSet (info : SetInfo)
  | beginRegister (info : RegisterInfo)
  | beginField (info : FieldInfo)
  | access (accessor : Accessor)
  | endField
  | endRegister
  | resetAll
  | flushShadowAll
  | loadShadowAll
  | endSet
deriving DecidableEq, Repr

/-- Events with how they ended. -/
structure Walk where
  events : List WalkEvent
  outcome : Except Failure Unit

/-- Longest shift of a word address, in either direction. -/
def longestShift : Nat := 63

/-- Shifts a word address by at most `longestShift`; bits moved beyond the machine word are lost. -/
def shiftWord (word : Nat) (shift : Int) : Nat :=
  let amount := min shift.natAbs longestShift
  if 0 ≤ shift then word >>> amount else (word <<< amount) % wordLimit

/-- What is told of a field. -/
def Field.info (f : Field) : FieldInfo where
  name := f.name
  description := f.decl.description
  comment := f.decl.comment
  offset := f.offset
  width := f.width
  bitmask := f.bitmask
  laneMask := f.laneMask
  datatype := f.decl.datatype
  default := f.decl.default
  defaultPattern := f.defaultPattern
  trigger := f.decl.trigger

/-- Events of a field. -/
def Field.events (f : Field) : List WalkEvent :=
  .beginField f.info :: f.accessors.map .access ++ [.endField]

/-- What is told of a register at an address. -/
def Register.info (r : Register) (absoluteAddress wordAddress : Nat) : RegisterInfo where
  name := r.name
  description := r.description
  comment := r.comment
  kind := r.kind
  writeEvent := r.writeEvent
  absoluteAddress := absoluteAddress
  wordAddress := wordAddress
  needsShadowRead := r.needsShadowRead
  needsShadowWrite := r.needsShadowWrite
  resetValue := r.resetValue

/-- Events of a register at an address. -/
def Register.events (r : Register) (absoluteAddress wordAddress : Nat) : List WalkEvent :=
  .beginRegister (r.info absoluteAddress wordAddress) :: r.fields.flatMap Field.events ++
    [.endRegister]

/-- Software keeps a shadow copy of the register. -/
def RegisterInfo.needsShadow (info : RegisterInfo) : Bool :=
  info.needsShadowRead || info.needsShadowWrite

namespace RegisterSet

/-- Base at which the options place the set. -/
def walkBase (s : RegisterSet) (options : WalkOptions) : Nat :=
  (options.base?.or s.baseAddress.fixed?).getD 0

/-- What is told of the set. -/
def info (s : RegisterSet) (options : WalkOptions) : SetInfo where
  name := s.name
  portSize := s.portSize
  granularity := registerGranularity
  alignmentBits := s.alignmentBits
  addressSize := s.addressSize
  addressShift := options.addressShift
  base := s.walkBase options

/-- Word address of a register at an absolute address. -/
def wordAddress (s : RegisterSet) (options : WalkOptions) (absoluteAddress : Nat) : Nat :=
  shiftWord (absoluteAddress >>> s.alignmentBits) options.addressShift

/-- Absolute address of a register. One that does not exist is reported with the number of bytes
from the base to the end of the register. -/
def addressAt (s : RegisterSet) (base : Nat) (r : Register) : Except Failure Nat :=
  if base + r.address.relative < wordLimit then .ok (base + r.address.relative)
  else .error (overflowBeyond r.path base r.address.relative s.stride)

/-- Events of the registers, up to the first without an address. -/
def walkRegisters (s : RegisterSet) (options : WalkOptions) : List Register → Walk
  | [] => ⟨[], .ok ()⟩
  | r :: rs =>
    match s.addressAt (s.walkBase options) r with
    | .error cause => ⟨[], .error cause⟩
    | .ok address =>
      let rest := walkRegisters s options rs
      ⟨r.events address (s.wordAddress options address) ++ rest.events, rest.outcome⟩

/-- Events after the last register. -/
def closingEvents (s : RegisterSet) : List WalkEvent :=
  (if s.canResetAll then [.resetAll] else []) ++
    (if s.canFlushShadowAll then [.flushShadowAll] else []) ++
    (if s.canLoadShadowAll then [.loadShadowAll] else []) ++ [.endSet]

/-- All events of the set. -/
def walk (s : RegisterSet) (options : WalkOptions) : Walk :=
  let registers := s.walkRegisters options s.registers
  match registers.outcome with
  | .error cause => ⟨.beginSet (s.info options) :: registers.events, .error cause⟩
  | .ok () => ⟨.beginSet (s.info options) :: registers.events ++ s.closingEvents, .ok ()⟩

end RegisterSet

end BusMap
