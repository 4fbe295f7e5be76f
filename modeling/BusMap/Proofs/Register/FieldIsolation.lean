import Mathlib.Data.List.Induction
import Mathlib.Data.List.Pairwise
import BusMap.Proofs.Register.FieldCodec
import BusMap.Proofs.Register.Resolution

/-!
# Fields do not disturb one another

A read-modify-write clears the bits of one field in a word and puts a value in their place. In a
register whose fields lie inside the word and share no bit (`Register.Isolated`), one write changes
what is read of its own field only (`Field.decode_write_self`, `Field.decode_write_of_apart`) and no
bit outside it (`Field.getLsbD_write_of_not_covers`). After a run of writes each field thus reads
the value last written to it (`decode_runUpdates`).

Resolution makes isolated registers (`RegisterSetDecl.isolated_of_resolveWith`), so this holds of
every register of every accepted register set (`RegisterSetDecl.resolveWith_fields_isolated`).
-/

set_option autoImplicit false

namespace BusMap

/-! ## One write -/

namespace Field

variable {f g : Field} {value : Int} {word : Word}

/-- The word with a value in the bits of the field and all other bits as before. -/
def write (f : Field) (word : Word) (value : Int) : Word :=
  (word &&& ~~~f.bitmask) ||| f.encode value

/-- A written word has the bits of the encoded value at the positions of the field. -/
theorem getLsbD_write_of_covers (h : f.InWord) {i : Nat} (hi : f.decl.bits.Covers i) :
    (f.write word value).getLsbD i = (f.encode value).getLsbD i := by
  rw [write, BitVec.getLsbD_or, BitVec.getLsbD_and, BitVec.getLsbD_not, getLsbD_bitmask h]
  simp only [hi, decide_true, Bool.not_true, Bool.and_false, Bool.false_or]

/-- A written word has its old bits elsewhere. -/
theorem getLsbD_write_of_not_covers (h : f.InWord) {i : Nat} (hi : ¬ f.decl.bits.Covers i) :
    (f.write word value).getLsbD i = word.getLsbD i := by
  rw [write, BitVec.getLsbD_or, BitVec.getLsbD_and, BitVec.getLsbD_not, getLsbD_bitmask h,
    getLsbD_encode h]
  simp only [hi, decide_false, Bool.not_false, Bool.and_true, Bool.false_and, Bool.or_false]
  -- Beyond the word there are no bits on either side.
  by_cases hword : i < 64
  · simp only [hword, decide_true, Bool.and_true]
  · rw [BitVec.getLsbD_of_ge word i (Nat.not_lt.1 hword), Bool.false_and]

/-- A field reads the value that was just written to it. -/
theorem decode_write_self (h : f.InWord) (hvalue : f.Holds value) :
    f.decode (f.write word value) = value := by
  have hbits : f.decode (f.write word value) = f.decode (f.encode value) :=
    decode_congr h fun i hi => getLsbD_write_of_covers h hi
  rw [hbits, decode_encode h hvalue]

/-- A write does not change what is read of a field that shares no bit with it. -/
theorem decode_write_of_apart (hf : f.InWord) (hg : g.InWord) (hapart : f.decl.Apart g.decl) :
    g.decode (f.write word value) = g.decode word := by
  apply decode_congr hg
  intro i hi
  apply getLsbD_write_of_not_covers hf
  intro hfi
  exact hapart i hfi hi

end Field

/-! ## Runs of writes -/

/-- The fields of a register lie inside the word, and no two of them share a bit. -/
structure Register.Isolated (r : Register) : Prop where
  inWord : ∀ f ∈ r.fields, f.InWord
  apart : ∀ f ∈ r.fields, ∀ g ∈ r.fields, f ≠ g → f.decl.Apart g.decl

/-- A value for a field. -/
structure FieldUpdate where
  field : Field
  value : Int
deriving DecidableEq, Repr

/-- The update is of a field of the register, with one of its values. -/
def FieldUpdate.Suits (u : FieldUpdate) (r : Register) : Prop :=
  u.field ∈ r.fields ∧ u.field.Holds u.value

instance (u : FieldUpdate) (r : Register) : Decidable (u.Suits r) :=
  inferInstanceAs (Decidable (_ ∧ _))

/-- The word after updates, each of which reads, modifies and writes it. -/
def runUpdates (word : Word) (updates : List FieldUpdate) : Word :=
  updates.foldl (fun word u => u.field.write word u.value) word

/-- The value that was last written to a field, if it was written. -/
def lastWritten? (f : Field) (updates : List FieldUpdate) : Option Int :=
  (updates.filter fun u => u.field = f).getLast?.map (·.value)

theorem runUpdates_concat (word : Word) (updates : List FieldUpdate) (u : FieldUpdate) :
    runUpdates word (updates ++ [u]) = u.field.write (runUpdates word updates) u.value := by
  rw [runUpdates, List.foldl_append]
  rfl

theorem lastWritten?_concat_self (updates : List FieldUpdate) (u : FieldUpdate) :
    lastWritten? u.field (updates ++ [u]) = some u.value := by
  rw [lastWritten?, List.filter_append, List.filter_singleton]
  simp

theorem lastWritten?_concat_of_ne {f : Field} (updates : List FieldUpdate) {u : FieldUpdate}
    (h : u.field ≠ f) : lastWritten? f (updates ++ [u]) = lastWritten? f updates := by
  rw [lastWritten?, List.filter_append, List.filter_singleton]
  simp [h, lastWritten?]

section Runs

variable {r : Register} {updates : List FieldUpdate}

/-- After any run of updates, a field reads the value last written to it, or what it read at first.
The induction takes the last update off: it decides its own field, and leaves every other one as the
run before it did. -/
theorem decode_runUpdates (hr : r.Isolated) (hupdates : ∀ u ∈ updates, u.Suits r) (word : Word)
    {f : Field} (hf : f ∈ r.fields) :
    f.decode (runUpdates word updates) = (lastWritten? f updates).getD (f.decode word) := by
  induction updates using List.reverseRecOn with
  | nil => rfl
  | append_singleton updates u ih =>
    obtain ⟨hbefore, hlast⟩ := List.forall_mem_append.1 hupdates
    obtain ⟨hmem, hholds⟩ := hlast u (List.mem_singleton_self u)
    rw [runUpdates_concat]
    by_cases hsame : u.field = f
    -- The last update is of this field.
    · subst hsame
      rw [lastWritten?_concat_self, Field.decode_write_self (hr.inWord _ hmem) hholds]
      rfl
    -- It is of another field, and this one still reads what it did before.
    · have hapart := hr.apart u.field hmem f hf hsame
      rw [lastWritten?_concat_of_ne updates hsame,
        Field.decode_write_of_apart (hr.inWord _ hmem) (hr.inWord f hf) hapart, ih hbefore]

/-- No run of updates changes a bit that belongs to no field. -/
theorem getLsbD_runUpdates (hr : r.Isolated) (hupdates : ∀ u ∈ updates, u.Suits r) (word : Word)
    {i : Nat} (hi : ∀ f ∈ r.fields, ¬ f.decl.bits.Covers i) :
    (runUpdates word updates).getLsbD i = word.getLsbD i := by
  induction updates using List.reverseRecOn with
  | nil => rfl
  | append_singleton updates u ih =>
    obtain ⟨hbefore, hlast⟩ := List.forall_mem_append.1 hupdates
    obtain ⟨hmem, -⟩ := hlast u (List.mem_singleton_self u)
    rw [runUpdates_concat, Field.getLsbD_write_of_not_covers (hr.inWord _ hmem) (hi _ hmem),
      ih hbefore]

end Runs

/-! ## Resolved registers -/

namespace RegisterSetDecl

variable {policy : Policy} {d : RegisterSetDecl} {resolved : Resolved RegisterSet}

/-- The registers of an accepted register set are isolated. Two of their fields that differ stand at
two places, and the legality check has compared these. -/
theorem isolated_of_resolveWith (h : d.resolveWith policy = .ok resolved) {register : Register}
    (hregister : register ∈ resolved.model.registers) : register.Isolated := by
  have hport := isPortSize_of_check (resolveWith_spec h).1
  constructor
  case inWord =>
    intro f hf
    have hlegal := legal_of_resolveWith h hregister hf
    exact ⟨hlegal.ordered, hlegal.inside_word hport.le_word⟩
  case apart =>
    intro f hf g hg hne
    have hpairs := apart_of_resolveWith h hregister
    have : Std.Symm fun f g : Field => f.decl.Apart g.decl := ⟨fun _ _ => FieldDecl.Apart.symm⟩
    exact hpairs.forall hf hg hne

/-- **Fields are isolated under read-modify-write.** In every register of an accepted register set,
for every word and every run of updates with values that their fields hold: each field then reads
the value last written to it, or what it read at first, and no bit outside the fields has
changed. -/
theorem resolveWith_fields_isolated (policy : Policy) (d : RegisterSetDecl)
    (resolved : Resolved RegisterSet) (h : d.resolveWith policy = .ok resolved)
    (register : Register) (hregister : register ∈ resolved.model.registers)
    (updates : List FieldUpdate) (hupdates : ∀ u ∈ updates, u.Suits register) (word : Word) :
    (∀ f ∈ register.fields,
      f.decode (runUpdates word updates) = (lastWritten? f updates).getD (f.decode word)) ∧
    ∀ i, (∀ f ∈ register.fields, ¬ f.decl.bits.Covers i) →
      (runUpdates word updates).getLsbD i = word.getLsbD i := by
  have hisolated := isolated_of_resolveWith h hregister
  refine ⟨?_, ?_⟩
  · intro f hf
    exact decode_runUpdates hisolated hupdates word hf
  · intro i hi
    exact getLsbD_runUpdates hisolated hupdates word hi

/-- An unsigned field of eight bits, as it is resolved in `mixedFields`. -/
def levelField : Field where
  path := ⟨["regs", "control", "level"]⟩
  decl := { name := "level", bits := ⟨7, 0⟩, datatype := .unsigned .bits8 }
  accessors := []

/-- A signed field of the four bits above `levelField`. -/
def trimField : Field where
  path := ⟨["regs", "control", "trim"]⟩
  decl := { name := "trim", bits := ⟨11, 8⟩, datatype := .signed .bits8 }
  accessors := []

/-- One register of sixteen bits, of which four belong to no field. -/
def mixedFields : RegisterSetDecl where
  name := "regs"
  portSize := 16
  registers := [{
    name := "control"
    kind := .writeRead
    fields := [levelField.decl, trimField.decl] }]

/-- Two values for one field with a negative one for the other between them, over a word of ones. -/
theorem resolveWith_fields_isolated_mixed :
    ∃ resolved register, mixedFields.resolveWith .lenient = .ok resolved ∧
      register ∈ resolved.model.registers ∧ register.fields = [levelField, trimField] ∧
        let word := runUpdates 0xffff [⟨levelField, 200⟩, ⟨trimField, -3⟩, ⟨levelField, 7⟩]
        levelField.decode word = 7 ∧ trimField.decode word = -3 ∧ word.getLsbD 12 = true := by
  refine ⟨_, _, rfl, List.mem_cons_self, rfl, ?_⟩
  obtain ⟨hread, hkept⟩ := resolveWith_fields_isolated .lenient mixedFields _ rfl _
    List.mem_cons_self [⟨levelField, 200⟩, ⟨trimField, -3⟩, ⟨levelField, 7⟩] (by decide) 0xffff
  refine ⟨?_, ?_, ?_⟩
  · exact hread levelField (by decide)
  · exact hread trimField (by decide)
  · exact hkept 12 (by decide)

end RegisterSetDecl

end BusMap
