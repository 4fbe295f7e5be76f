/-!
# Register kinds

The hardware access of a register decides which functions its fields may request. Besides, a field
of an event register says on which changes it triggers, and a register may raise a strobe when it is
written.

| kind        | readable | writable, resettable | strobed | event |
|-------------|----------|----------------------|---------|-------|
| `write`     |          | x                    |         |       |
| `read`      | x        |                      |         |       |
| `writeRead` | x        | x                    |         |       |
| `strobe`    |          |                      | x       |       |
| `handshake` |          |                      | x       |       |
| `readEvent` |          |                      |         | x     |
-/

set_option autoImplicit false

namespace BusMap

/-- Hardware access of a register. -/
inductive RegisterKind where
  | write
  | read
  | writeRead
  /-- Strobed bits, raised for one cycle. -/
  | strobe
  /-- Strobed bits, raised until they are acknowledged. -/
  | handshake
  /-- Latches events, and clears them when it is read. -/
  | readEvent
deriving DecidableEq, Repr

namespace RegisterKind

/-- All kinds in declaration order. -/
def all : List RegisterKind := [write, read, writeRead, strobe, handshake, readEvent]

/-- Name in declarations and messages. -/
def name : RegisterKind → String
  | write => "Write"
  | read => "Read"
  | writeRead => "WriteRead"
  | strobe => "Strobe"
  | handshake => "Handshake"
  | readEvent => "ReadEvent"

/-- Holds a value that software can read. -/
def isReadable : RegisterKind → Bool
  | read => true
  | writeRead => true
  | _ => false

/-- Holds a value that software can write. -/
def isWritable : RegisterKind → Bool
  | write => true
  | writeRead => true
  | _ => false

/-- Takes its defaults on a reset. -/
def isResettable (k : RegisterKind) : Bool := k.isWritable

/-- Holds strobed bits only. -/
def isStrobed : RegisterKind → Bool
  | strobe => true
  | handshake => true
  | _ => false

/-- Its strobes wait for an acknowledgement. -/
def isHandshake : RegisterKind → Bool
  | handshake => true
  | _ => false

/-- Latches events. -/
def isEvent : RegisterKind → Bool
  | readEvent => true
  | _ => false

/-- Software can fetch its word, which for an event register also clears it. -/
def canRead (k : RegisterKind) : Bool := k.isReadable || k.isEvent

end RegisterKind

/-- Strobe that hardware raises when software writes a register. -/
inductive WriteEvent where
  /-- Raised for one cycle at the write. -/
  | strobeOnWrite
  /-- Raised for one cycle when the bus cycle of the write ends. -/
  | strobeAfterWriteOnCycleEnd
deriving DecidableEq, Repr

namespace WriteEvent

/-- All write events in declaration order. -/
def all : List WriteEvent := [strobeOnWrite, strobeAfterWriteOnCycleEnd]

/-- Name in declarations. -/
def name : WriteEvent → String
  | strobeOnWrite => "StrobeOnWrite"
  | strobeAfterWriteOnCycleEnd => "StrobeAfterWriteOnCycleEnd"

end WriteEvent

/-- Change of an input that latches an event. -/
inductive Change where
  | rising
  | falling
  | high
  | low
  /-- Rising or falling. -/
  | anyChange
deriving DecidableEq, Repr

namespace Change

/-- All changes in declaration order. -/
def all : List Change := [rising, falling, high, low, anyChange]

/-- Name in declarations. -/
def name : Change → String
  | rising => "Rising"
  | falling => "Falling"
  | high => "High"
  | low => "Low"
  | anyChange => "AnyChange"

end Change

/-- A set of conditions on an input: rising, falling, high and low, from the lowest bit on. -/
structure Trigger where
  bits : BitVec 4
deriving DecidableEq, Repr

namespace Trigger

/-- No condition. -/
def none : Trigger := ⟨0⟩

/-- The conditions of one change. -/
def ofChange : Change → Trigger
  | .rising => ⟨1⟩
  | .falling => ⟨2⟩
  | .high => ⟨4⟩
  | .low => ⟨8⟩
  | .anyChange => ⟨3⟩

/-- Conditions of either set. -/
def union (s t : Trigger) : Trigger := ⟨s.bits ||| t.bits⟩

/-- The conditions of every change in a list. -/
def ofList (changes : List Change) : Trigger :=
  changes.foldl (fun t c => t.union (ofChange c)) none

/-- Every condition of `t` is one of `s`. -/
def contains (s t : Trigger) : Bool := s.bits &&& t.bits == t.bits

/-- There is no condition. -/
def isEmpty (s : Trigger) : Bool := s.bits == 0

end Trigger

end BusMap
