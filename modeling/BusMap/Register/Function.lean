/-!
# Access functions

A field requests functions by which software may read or write it. A set of functions is a word of
one bit each, and lists its members in declaration order (`mem_insert`).
-/

set_option autoImplicit false

namespace BusMap

/-- Ways in which software may use a field. -/
inductive AccessFunction where
  /-- Read the field from hardware. -/
  | read
  /-- Read the field from the shadow copy of its register. -/
  | readShadow
  /-- Write the field as the whole register word. -/
  | overwrite
  /-- Write the byte lanes of the field. -/
  | writeMasked
  /-- Write the field into the shadow copy. -/
  | writeShadow
  /-- Read the register, replace the field, write it back. -/
  | readModifyWrite
  /-- Raise the bit of the field. -/
  | strobe
deriving DecidableEq, Repr

namespace AccessFunction

/-- All functions in declaration order. -/
def all : List AccessFunction :=
  [read, readShadow, overwrite, writeMasked, writeShadow, readModifyWrite, strobe]

/-- Order in which requests are checked and accessors listed. -/
def planningOrder : List AccessFunction :=
  [read, readShadow, overwrite, writeMasked, readModifyWrite, writeShadow, strobe]

/-- Name in declarations and messages. -/
def name : AccessFunction → String
  | read => "Read"
  | readShadow => "ReadShadow"
  | overwrite => "Overwrite"
  | writeMasked => "WriteMasked"
  | writeShadow => "WriteShadow"
  | readModifyWrite => "ReadModifyWrite"
  | strobe => "Strobe"

/-- Place in the declaration order. -/
def index : AccessFunction → Nat
  | read => 0
  | readShadow => 1
  | overwrite => 2
  | writeMasked => 3
  | writeShadow => 4
  | readModifyWrite => 5
  | strobe => 6

theorem index_lt (f : AccessFunction) : f.index < 7 := by cases f <;> decide

theorem index_inj {f g : AccessFunction} : f.index = g.index ↔ f = g := by
  cases f <;> cases g <;> decide

end AccessFunction

/-- A set of access functions. -/
structure FunctionSet where
  bits : BitVec 7
deriving DecidableEq, Repr

namespace FunctionSet

/-- The set without members. -/
def empty : FunctionSet := ⟨0⟩

/-- The function is a member. -/
def contains (s : FunctionSet) (f : AccessFunction) : Bool := s.bits.getLsbD f.index

instance : Membership AccessFunction FunctionSet where
  mem s f := s.contains f = true

instance (s : FunctionSet) (f : AccessFunction) : Decidable (f ∈ s) :=
  inferInstanceAs (Decidable (s.contains f = true))

/-- The set of one function. -/
def singleton (f : AccessFunction) : FunctionSet := ⟨1#7 <<< f.index⟩

/-- Members of either set. -/
def union (s t : FunctionSet) : FunctionSet := ⟨s.bits ||| t.bits⟩

/-- The set with one more member. -/
def insert (s : FunctionSet) (f : AccessFunction) : FunctionSet := s.union (singleton f)

/-- The set of the functions in a list. -/
def ofList (fs : List AccessFunction) : FunctionSet := fs.foldl insert empty

/-- Members in declaration order. -/
def toList (s : FunctionSet) : List AccessFunction := AccessFunction.all.filter s.contains

/-- Number of members. -/
def size (s : FunctionSet) : Nat := s.toList.length

/-- Members between braces. -/
def text (s : FunctionSet) : String :=
  "\x7b" ++ ", ".intercalate (s.toList.map AccessFunction.name) ++ "\x7d"

theorem mem_def {s : FunctionSet} {f : AccessFunction} : f ∈ s ↔ s.contains f = true := Iff.rfl

@[simp]
theorem not_mem_empty (f : AccessFunction) : f ∉ empty := by
  cases f <;> decide

@[simp]
theorem mem_union {s t : FunctionSet} {f : AccessFunction} : f ∈ s.union t ↔ f ∈ s ∨ f ∈ t := by
  simp [mem_def, contains, union]

@[simp]
theorem mem_singleton {f g : AccessFunction} : f ∈ singleton g ↔ f = g := by
  cases f <;> cases g <;> decide

@[simp]
theorem mem_insert {s : FunctionSet} {f g : AccessFunction} :
    f ∈ s.insert g ↔ f ∈ s ∨ f = g := by
  simp [insert]

@[simp]
theorem mem_toList {s : FunctionSet} {f : AccessFunction} : f ∈ s.toList ↔ f ∈ s := by
  have hall : f ∈ AccessFunction.all := by cases f <;> decide
  simp [toList, mem_def, hall]

end FunctionSet

end BusMap
