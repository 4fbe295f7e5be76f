import BusMap.Proofs.Bus.Window
import BusMap.Proofs.Register.AddressBits
import BusMap.Proofs.Register.Walk

/-!
# Register sets on a bus

A slave that is made from a register set counts its word addresses in words of the set, and its
window has words of the bus. The bus is at least as wide as the set and has granules of one byte, so
that a word of the bus holds words of the set (`BusDecl.stride_dvd_of_format`). Every register
therefore lies in the window of the slave, wherever the window is placed, and each of its addresses
selects the slave (`BusDecl.resolveWith_registers_in_window`).
-/

set_option autoImplicit false

namespace BusMap

namespace BusDecl

variable {policy : Policy} {d : BusDecl} {resolved : Resolved Bus} {s : RegisterSet}

/-- A word of the bus is a whole number of words of each register set on it. -/
theorem stride_dvd_of_format (hlegal : ∀ shape ∈ d.shapes, shape.Legal)
    (hslave : SlaveDecl.ofRegisterSet s ∈ d.slaves) {low : Nat}
    (hlow : d.format.addressLow = .ok low) : s.stride ∣ 1 <<< low := by
  have hshape := shape_mem_shapes hslave
  have hset : IsPortSize s.portSize := (hlegal _ hshape).isPortSize
  have hbus : IsPortSize d.format.portSize := Shape.isPortSize_common hlegal
  have hport : s.portSize ≤ d.format.portSize := Shape.portSize_le_common hshape
  have hbyte : IsPortSize 8 := by decide
  -- The slave has granules of one byte, and no port has finer ones.
  have hgranularity : d.format.granularity = 8 :=
    Nat.le_antisymm (Shape.common_granularity_le hshape) (Shape.isGranularity_common hlegal).byte_le
  rw [Shape.addressLow_of_pos (by omega), hgranularity] at hlow
  cases hlow
  rw [hbus.shiftLeft_granules hbyte hbus.byte_le]
  exact Nat.div_dvd_div (hbyte.dvd_of_le hset hset.byte_le) (hset.dvd_of_le hbus hport)

/-- A slave made from a resolved register set has a window that starts at its base and holds every
word of the set. -/
theorem exists_register_slave {setPolicy : Policy} {setDecl : RegisterSetDecl}
    {set : Resolved RegisterSet} (hset : setDecl.resolveWith setPolicy = .ok set)
    (h : d.resolveWith policy = .ok resolved)
    (hslave : SlaveDecl.ofRegisterSet set.model ∈ d.slaves) :
    ∃ slave ∈ resolved.model.slaves, slave.name = set.model.name ∧
      slave.registerSet = some set.model ∧ slave.window.last < wordLimit ∧
        ∀ r ∈ set.model.registers,
          slave.window.first + r.address.relative + set.model.stride ≤ slave.window.last + 1 := by
  obtain ⟨hcheck, hconnect⟩ := resolveWith_spec h
  have hlegal := legal_of_check hcheck
  obtain ⟨-, hlow, -, -, windows, hwindows, hslaves⟩ := connect_spec hconnect
  obtain ⟨window, hmem, -, hlimit, hend⟩ := exists_slave_of_windows hwindows hslave
  rw [← hslaves] at hmem
  refine ⟨_, hmem, EntityPath.name_child _ _, rfl, hlimit, fun r hr => ?_⟩
  have hword : set.model.stride ≤ 1 <<< resolved.model.addressLow := by
    apply Nat.le_of_dvd _ (stride_dvd_of_format hlegal hslave hlow)
    rw [Nat.one_shiftLeft]
    exact Nat.two_pow_pos _
  -- As many words of the bus as the set has words hold the words of the set.
  have hwords : r.address.relative + set.model.stride ≤
      1 <<< (set.model.addressSize + resolved.model.addressLow) :=
    calc r.address.relative + set.model.stride
        ≤ (1 <<< set.model.addressSize) * set.model.stride :=
          RegisterSetDecl.end_le_of_resolveWith hset hr
      _ ≤ (1 <<< set.model.addressSize) * 1 <<< resolved.model.addressLow :=
          Nat.mul_le_mul_left _ hword
      _ = 1 <<< (set.model.addressSize + resolved.model.addressLow) := by
          rw [Nat.one_shiftLeft, Nat.one_shiftLeft, Nat.one_shiftLeft, Nat.pow_add]
  calc window.first + r.address.relative + set.model.stride
      = window.first + (r.address.relative + set.model.stride) := Nat.add_assoc _ _ _
    _ ≤ window.first + 1 <<< (set.model.addressSize + resolved.model.addressLow) :=
        Nat.add_le_add_left hwords _
    _ = window.last + 1 := hend.symm

/-- **A register set stays inside the window of its slave.** On every accepted bus with a slave made
from a resolved register set, the slave is found by the name of the set, and as each master sees it
the set can be walked. The walk tells of every register at the base of the slave plus its offset,
and each byte of the register selects the slave. -/
theorem resolveWith_registers_in_window (setPolicy policy : Policy) (setDecl : RegisterSetDecl)
    (set : Resolved RegisterSet) (d : BusDecl) (resolved : Resolved Bus)
    (hset : setDecl.resolveWith setPolicy = .ok set) (h : d.resolveWith policy = .ok resolved)
    (hslave : SlaveDecl.ofRegisterSet set.model ∈ d.slaves) :
    ∃ slave, resolved.model.slave? set.model.name = some slave ∧
      slave.registerSet = some set.model ∧
      ∀ m ∈ resolved.model.masters,
        let walk := set.model.walk (slave.walkOptions m)
        walk.outcome = .ok () ∧
        walk.registers.map (fun info => (info.name, info.absoluteAddress)) =
          set.model.registers.map (fun r => (r.name, slave.baseAddress + r.address.relative)) ∧
        ∀ info ∈ walk.registers, ∀ address, info.absoluteAddress ≤ address →
          address ≤ info.absoluteAddress + set.model.stride - 1 →
            address ∈ slave.window ∧ resolved.model.slaveAt? address = some slave := by
  obtain ⟨slave, hmem, hname, hregisterSet, hlast, hwords⟩ := exists_register_slave hset h hslave
  refine ⟨slave, (slave?_eq_some_iff h).2 ⟨hmem, hname⟩, hregisterSet, ?_⟩
  intro m _ walk
  have hpos := RegisterSetDecl.one_le_stride_of_resolveWith hset
  have hwalk : walk.outcome = .ok () := by
    refine RegisterSet.outcome_walk_eq_ok_iff.2 fun r hr => ?_
    have hword := hwords r hr
    show slave.window.first + r.address.relative < wordLimit
    omega
  have hregisters := RegisterSet.registers_walk hwalk
  refine ⟨hwalk, ?_, ?_⟩
  · rw [hregisters, List.map_map]
    rfl
  · intro info hinfo address hfirst hend
    rw [hregisters] at hinfo
    obtain ⟨r, hr, rfl⟩ := List.mem_map.1 hinfo
    change slave.window.first + r.address.relative ≤ address at hfirst
    change address ≤ slave.window.first + r.address.relative + set.model.stride - 1 at hend
    have hword := hwords r hr
    have haddress : address ∈ slave.window := ⟨by omega, by omega⟩
    exact ⟨haddress, (slaveAt?_eq_some_iff h).2 ⟨hmem, haddress⟩⟩

/-- Registers of two bytes, one of them apart from the others. -/
def pwm : RegisterSetDecl where
  name := "PWM"
  portSize := 16
  registers := [
    { name := "period", kind := .writeRead },
    { name := "status", kind := .read, address := .fixed 10 },
    { name := "duty", kind := .writeRead }]

/-- A wider and a narrower master, and a slave before the register set. -/
def board (s : RegisterSet) : BusDecl where
  name := "board"
  masters := [⟨"cpu", ⟨32, 8, 16⟩⟩, ⟨"dma", ⟨8, 8, 24⟩⟩]
  slaves := [{ name := "uart", shape := ⟨8, 8, 3⟩, baseAddress := .fixed 256 }, .ofRegisterSet s]

/-- Each byte of the register set selects its slave. -/
theorem resolveWith_registers_in_window_board :
    ∃ set resolved slave, pwm.resolveWith .lenient = .ok set ∧
      (board set.model).resolveWith .lenient = .ok resolved ∧
      resolved.model.slave? "PWM" = some slave ∧ slave.window = ⟨288, 319⟩ ∧
      ∀ m ∈ resolved.model.masters,
        (set.model.walk (slave.walkOptions m)).outcome = .ok () ∧
        ∀ info ∈ (set.model.walk (slave.walkOptions m)).registers, ∀ address,
          info.absoluteAddress ≤ address → address ≤ info.absoluteAddress + 1 →
            resolved.model.slaveAt? address = some slave := by
  obtain ⟨slave, hslave, -, hwalk⟩ := resolveWith_registers_in_window .lenient .lenient pwm _
    (board _) _ rfl rfl (List.mem_cons_of_mem _ List.mem_cons_self)
  refine ⟨_, _, slave, rfl, rfl, hslave, ?_, ?_⟩
  · cases hslave
    rfl
  · intro m hm
    obtain ⟨houtcome, -, hselect⟩ := hwalk m hm
    refine ⟨houtcome, fun info hinfo address hfirst hend => ?_⟩
    exact (hselect info hinfo address hfirst hend).2

end BusDecl

end BusMap
