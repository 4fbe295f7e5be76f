import BusMap.Register.Legality
import BusMap.Register.Model

/-!
# Resolving a register set

A declaration is checked, its registers are placed, and the accessors of every field are planned,
each in declaration order. The policy has no part in it; `resolveWith` applies one to the warnings.
-/

set_option autoImplicit false

namespace BusMap

/-- Plans the field at position `i` of a register. -/
def RegisterDecl.resolveField (r : RegisterDecl) (path : EntityPath) (f : FieldDecl) (i : Nat) :
    Diagnosed Field := do
  let fieldPath := path.child f.name
  let accessors ← f.plan fieldPath r.kind (r.fields.eraseIdx i)
  return ⟨fieldPath, f, accessors⟩

/-- Plans all fields of a register at an address. -/
def RegisterDecl.resolve (r : RegisterDecl) (path : EntityPath) (address : RegisterAddress) :
    Diagnosed Register := do
  let fields ← r.fields.zipIdx.mapM fun (f, i) => r.resolveField path f i
  return {
    path, address, fields,
    name := r.name
    description := r.description
    comment := r.comment
    kind := r.kind
    writeEvent := r.writeEvent
    requested := r.address }

namespace RegisterSetDecl

/-- Plans all registers at their addresses. -/
def resolveRegisters (d : RegisterSetDecl) (addresses : List RegisterAddress) :
    Diagnosed (List Register) :=
  (d.registers.zip addresses).mapM fun (r, address) => r.resolve (d.registerPath r) address

/-- Resolves a declaration, with all warnings. -/
def resolve (d : RegisterSetDecl) : Diagnosed RegisterSet := do
  Diagnosed.ofExcept d.check
  let addresses ← Diagnosed.ofExcept d.addresses
  let registers ← d.resolveRegisters addresses
  let addressSize ← Diagnosed.ofExcept
    ((addressSize d.portSize addresses).mapError Failure.fault)
  return {
    registers, addressSize,
    name := d.name
    baseAddress := d.baseAddress
    portSize := d.portSize }

/-- Resolves a declaration under a policy. -/
def resolveWith (policy : Policy) (d : RegisterSetDecl) : Except Failure (Resolved RegisterSet) :=
  d.resolve.enforce policy

end RegisterSetDecl

end BusMap
