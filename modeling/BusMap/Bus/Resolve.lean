import BusMap.Bus.Legality
import BusMap.Bus.Model
import BusMap.Bus.Window

/-!
# Resolving a bus

A declaration is checked, its format is derived, its slaves are placed and its interconnect is
planned. The policy has no part in it; `resolveWith` applies one to the warnings.
-/

set_option autoImplicit false

namespace BusMap

namespace BusDecl

/-- The masters of a bus of the given format. -/
def resolveMasters (d : BusDecl) (format : Shape) : Except Failure (List Master) :=
  d.masters.mapM fun m => do
    let shift ← (format.addressShift m.shape).mapError Failure.fault
    return ⟨d.path.child m.name, m.shape, shift⟩

/-- The slaves of a bus with their windows. -/
def resolveSlaves (d : BusDecl) (windows : List Interval) : List Slave :=
  (d.slaves.zip windows).map fun (s, window) =>
    ⟨d.path.child s.name, s.shape, s.baseAddress, window, s.registerSet⟩

/-- Places the slaves and plans the interconnect of a bus that has been checked. -/
def connect (d : BusDecl) : Except Failure Bus := do
  let format := d.format
  let low ← format.addressLow.mapError Failure.fault
  let windows ← d.windows low
  let masters ← d.resolveMasters format
  let slaves := d.resolveSlaves windows
  let interconnect ← (Interconnect.plan d.topology (masters.map fun m => (m.name, m.shape))
    (slaves.map Slave.route)).mapError Failure.fault
  return { format, masters, slaves, interconnect, name := d.name, topology := d.topology,
           addressLow := low }

/-- Resolves a declaration, with all warnings. -/
def resolve (d : BusDecl) : Diagnosed Bus := do
  Diagnosed.ofExcept d.check
  match d.sizeMismatch? with
  | some w => Diagnosed.warn w
  | none => pure ⟨⟩
  Diagnosed.ofExcept d.connect

/-- Resolves a declaration under a policy. -/
def resolveWith (policy : Policy) (d : BusDecl) : Except Failure (Resolved Bus) :=
  d.resolve.enforce policy

end BusDecl

end BusMap
