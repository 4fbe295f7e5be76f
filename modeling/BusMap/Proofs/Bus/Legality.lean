import BusMap.Bus.Legality
import BusMap.Proofs.Naming.Siblings

/-!
# Which buses are legal

The check of a port accepts exactly the shapes whose sizes exist and whose byte addresses have less
than 64 bits (`Shape.check_eq_ok_iff`), and the check of a bus accepts usable names, distinct among
the masters and among the slaves, on legal ports (`BusDecl.check_eq_ok_iff`).
-/

set_option autoImplicit false

namespace BusMap

/-! ## Ports -/

/-- What a port has to be. -/
structure Shape.Legal (s : Shape) : Prop where
  isPortSize : IsPortSize s.portSize
  isGranularity : IsPortSize s.granularity
  granularity_le : s.granularity ≤ s.portSize
  addressSize_pos : 1 ≤ s.addressSize
  addressBits_le : s.addressSize + ceilLog2 (s.portSize / s.granularity) ≤ greatestAddressBits

namespace Shape

variable {s : Shape} {path : EntityPath}

/-- The select lines of a port can be counted as its granules have bits. -/
theorem addressLow_of_pos (h : 1 ≤ s.granularity) :
    s.addressLow = .ok (ceilLog2 (s.portSize / s.granularity)) := by
  rw [addressLow, selectLines, Machine.div_of_pos h]
  rfl

theorem check_eq_ok_iff : s.check path = .ok () ↔ s.Legal := by
  rw [check]
  by_cases hport : IsPortSize s.portSize
  · rw [if_neg (not_not_intro hport)]
    by_cases hgranularity : IsPortSize s.granularity
    · rw [if_neg (not_not_intro hgranularity)]
      by_cases hle : s.granularity ≤ s.portSize
      · rw [if_neg (Nat.not_lt.2 hle), addressLow_of_pos hgranularity.pos, mapError_ok, ok_bind]
        constructor
        · intro h
          split at h
          · cases h
          · exact ⟨hport, hgranularity, hle, by omega, by omega⟩
        · rintro ⟨-, -, -, haddress, hbits⟩
          rw [if_neg (by omega)]
      · rw [if_pos (Nat.not_le.1 hle)]
        exact iff_of_false (by simp) fun h => hle h.granularity_le
    · rw [if_pos hgranularity]
      exact iff_of_false (by simp) fun h => hgranularity h.isGranularity
  · rw [if_pos hport]
    exact iff_of_false (by simp) fun h => hport h.isPortSize

end Shape

/-! ## Buses -/

namespace BusDecl

variable {d : BusDecl}

theorem checkInhabited_eq_ok_iff : d.checkInhabited = .ok () ↔ d.masters ≠ [] ∧ d.slaves ≠ [] := by
  rw [checkInhabited]
  simp [not_or]

theorem check_eq_ok_iff :
    d.check = .ok () ↔
      checkName d.path = .ok () ∧ (d.masters ≠ [] ∧ d.slaves ≠ []) ∧
        checkSiblings d.path .master (d.masters.map (·.name)) = .ok () ∧
          checkSiblings d.path .slave (d.slaves.map (·.name)) = .ok () ∧
            ∀ s ∈ d.shapes, s.Legal := by
  rw [check, then_eq_ok_iff, mapError_eq_ok_iff, then_eq_ok_iff, mapError_eq_ok_iff,
    checkInhabited_eq_ok_iff, then_eq_ok_iff, mapError_eq_ok_iff, then_eq_ok_iff,
    mapError_eq_ok_iff, forM_eq_ok_iff]
  simp only [shapes, List.forall_mem_map, Shape.check_eq_ok_iff]

/-- The ports of a checked bus are legal. -/
theorem legal_of_check (h : d.check = .ok ()) : ∀ s ∈ d.shapes, s.Legal := by
  obtain ⟨-, -, -, -, hshapes⟩ := check_eq_ok_iff.1 h
  exact hshapes

/-- The ports of the masters are ports of the bus. -/
theorem master_shape_mem_shapes {m : MasterDecl} (h : m ∈ d.masters) : m.shape ∈ d.shapes := by
  have hnode : (m.name, m.shape) ∈ d.nodes :=
    List.mem_append_left _ (List.mem_map.2 ⟨m, h, rfl⟩)
  exact List.mem_map_of_mem hnode

/-- The ports of the slaves are ports of the bus. -/
theorem shape_mem_shapes {s : SlaveDecl} (h : s ∈ d.slaves) : s.shape ∈ d.shapes := by
  have hnode : (s.name, s.shape) ∈ d.nodes :=
    List.mem_append_right _ (List.mem_map.2 ⟨s, h, rfl⟩)
  exact List.mem_map_of_mem hnode

end BusDecl

end BusMap
