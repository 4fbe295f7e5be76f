import BusMap.Register.Accessor
import BusMap.Register.Layout

/-!
# Resolved register sets

A resolved field knows its place in the register word and its accessors, a resolved register its
address. Values of a field are integers; `encode` puts one into the bits of a word and `decode`
takes it out again, with its sign where the datatype has one.
-/

set_option autoImplicit false

namespace BusMap

/-- A field with its accessors. -/
structure Field where
  path : EntityPath
  decl : FieldDecl
  accessors : List Accessor
deriving DecidableEq, Repr

namespace Field

/-- Name of the field. -/
def name (f : Field) : String := f.decl.name

/-- Bit position of the lowest bit. -/
def offset (f : Field) : Nat := f.decl.bits.lo

/-- Number of bits. -/
def width (f : Field) : Nat := f.decl.bits.width

/-- Bits of the word that the field covers. -/
def bitmask (f : Field) : Word := f.decl.bits.mask

/-- One bit per byte lane that the field touches. -/
def laneMask (f : Field) : Word := f.decl.bits.laneMask

/-- Mask of the value before it is moved to its place. -/
def valueMask (f : Field) : Word := f.decl.bits.valueMask

/-- Two's complement bits of a value, cut to the width of the field. -/
def pattern (f : Field) (value : Int) : Word := BitVec.ofInt 64 value &&& f.valueMask

/-- Bits of the default. -/
def defaultPattern (f : Field) : Word := f.pattern f.decl.default

/-- The word with the value in the bits of the field and zeros elsewhere. -/
def encode (f : Field) (value : Int) : Word := f.pattern value <<< f.offset

/-- Bits of the field in a word, moved to the lowest position. -/
def extract (f : Field) (word : Word) : Word := (word >>> f.offset) &&& f.valueMask

/-- The value of the field in a word. -/
def decode (f : Field) (word : Word) : Int :=
  let raw := f.extract word
  let isNegative := f.decl.datatype.isSigned && raw.getLsbD (f.width - 1)
  if isNegative then (raw.toNat : Int) - (1 <<< f.width : Nat) else raw.toNat

/-- The accessor that serves a function. -/
def accessor? (f : Field) (function : AccessFunction) : Option Accessor :=
  f.accessors.find? fun a => a.function = function

end Field

/-- A register with its address. -/
structure Register where
  path : EntityPath
  name : String
  description : String
  comment : Option String
  kind : RegisterKind
  writeEvent : Option WriteEvent
  requested : Address
  address : RegisterAddress
  fields : List Field
deriving DecidableEq, Repr

namespace Register

/-- Some field requests the function. -/
def requests (r : Register) (function : AccessFunction) : Bool :=
  r.fields.any fun f => f.decl.functions.contains function

/-- Software reads a shadow copy of the register. -/
def needsShadowRead (r : Register) : Bool := !r.kind.isStrobed && r.requests .readShadow

/-- Software writes a shadow copy of the register. -/
def needsShadowWrite (r : Register) : Bool := !r.kind.isStrobed && r.requests .writeShadow

/-- Software keeps a shadow copy of the register. -/
def hasShadow (r : Register) : Bool := r.needsShadowRead || r.needsShadowWrite

/-- The field of a name. -/
def field? (r : Register) (name : String) : Option Field := r.fields.find? fun f => f.name = name

/-- The word with every field at its default. -/
def resetValue (r : Register) : Word :=
  r.fields.foldl (fun word f => word ||| f.encode f.decl.default) 0

end Register

/-- Smallest addressable unit of every register set, in bits. -/
def registerGranularity : Nat := 8

/-- Registers of one size with their addresses. -/
structure RegisterSet where
  name : String
  baseAddress : Address
  portSize : Nat
  /-- Word address bits. -/
  addressSize : Nat
  registers : List Register
deriving DecidableEq, Repr

namespace RegisterSet

/-- Bytes of one register. -/
def stride (s : RegisterSet) : Nat := BusMap.stride s.portSize

/-- Byte address bits below the word address. -/
def alignmentBits (s : RegisterSet) : Nat := wordAlignmentBits s.portSize

/-- Lowest and highest byte address bit that selects a register. -/
def addressBits (s : RegisterSet) : Nat × Nat :=
  (s.alignmentBits, s.alignmentBits + s.addressSize - 1)

/-- The register of a name. -/
def register? (s : RegisterSet) (name : String) : Option Register :=
  s.registers.find? fun r => r.name = name

/-- Some register takes defaults on a reset. -/
def canResetAll (s : RegisterSet) : Bool :=
  s.registers.any fun r => r.kind.isResettable && !r.fields.isEmpty

/-- Some register has a shadow copy. -/
def canFlushShadowAll (s : RegisterSet) : Bool := s.registers.any Register.hasShadow

/-- Some register with a shadow copy can be read. -/
def canLoadShadowAll (s : RegisterSet) : Bool :=
  s.registers.any fun r => r.hasShadow && r.kind.canRead

end RegisterSet

end BusMap
