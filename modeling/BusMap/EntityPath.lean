/-!
# Entity paths

An entity is named by the path of names that lead to it, such as a register set, a register and a
field. Every error and warning carries one.
-/

set_option autoImplicit false

namespace BusMap

/-- Names from the outermost entity to the entity itself. -/
structure EntityPath where
  segments : List String
deriving DecidableEq, Repr

namespace EntityPath

/-- The path of an outermost entity. -/
def root (name : String) : EntityPath := ⟨[name]⟩

/-- The path of an entity directly inside this one. -/
def child (p : EntityPath) (name : String) : EntityPath := ⟨p.segments ++ [name]⟩

/-- The entity's own name, empty for the empty path. -/
def name (p : EntityPath) : String := p.segments.getLast?.getD ""

@[simp] theorem name_child (p : EntityPath) (name : String) : (p.child name).name = name := by
  simp [child, EntityPath.name]

theorem child_inj {p : EntityPath} {name name' : String} :
    p.child name = p.child name' ↔ name = name' := by
  simp [child]

/-- The names joined with dots. -/
def text (p : EntityPath) : String := ".".intercalate p.segments

/-- Order of two lists of names: the first difference decides, and a shorter list comes first. -/
def compareSegments : List String → List String → Ordering
  | [], [] => .eq
  | [], _ :: _ => .lt
  | _ :: _, [] => .gt
  | a :: as, b :: bs => (Ord.compare a b).then (compareSegments as bs)

/-- Order of two paths, name by name and in each name by code point. -/
def compare (p q : EntityPath) : Ordering := compareSegments p.segments q.segments

instance : Ord EntityPath := ⟨compare⟩

end EntityPath

end BusMap
