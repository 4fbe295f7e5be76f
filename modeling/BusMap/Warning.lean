import BusMap.EntityPath
import BusMap.Machine
import BusMap.Text.Hex
import BusMap.Text.Quoted

/-!
# Warnings

A warning tells of a declaration that is legal and probably not meant. It never stops a
computation unless the caller's policy makes its class fatal.
-/

set_option autoImplicit false

namespace BusMap

/-- Legal conditions that are likely unintended. -/
inductive Warning where
  /-- Writing the field as a whole word clears the other fields of its register. -/
  | overwriteMultiField (path : EntityPath) (fieldCount : Nat)
  /-- A byte lane written for the field also holds bits of other fields. -/
  | maskedWriteLaneShared (path : EntityPath) (laneMask : Word) (sharedWith : List String)
  /-- The narrowest master cannot reach every address of the widest slave. -/
  | addressSizeMismatch (path : EntityPath) (smallestMaster largestSlave : Nat)
deriving DecidableEq, Repr

namespace Warning

/-- The entity that the warning is about. -/
def path : Warning → EntityPath
  | overwriteMultiField path _ => path
  | maskedWriteLaneShared path _ _ => path
  | addressSizeMismatch path _ _ => path

/-- Wording of each warning. -/
def message : Warning → String
  | overwriteMultiField path fieldCount =>
    s!"field {path.text} uses overwrite, but the register contains {fieldCount} fields; " ++
      "writing will potentially cause side-effects"
  | maskedWriteLaneShared path laneMask sharedWith =>
    s!"write mask {Text.hex laneMask.toNat} of {path.text} overlaps with fields " ++
      s!"{Text.quoteList sharedWith}; writing will potentially cause side-effects"
  | addressSizeMismatch path smallestMaster largestSlave =>
    s!"the smallest master address size ({smallestMaster}) of {path.text} is less than " ++
      s!"the largest slave address size ({largestSlave}); not all slave addresses can be accessed"

end Warning

/-- Classes of warnings that the caller wants to be errors. -/
structure Policy where
  strictAddressSize : Bool := false
  strictMaskedWrite : Bool := false
  strictOverwrite : Bool := false
deriving DecidableEq, Repr

namespace Policy

/-- No warning is fatal. -/
def lenient : Policy := {}

/-- Every warning is fatal. -/
def strict : Policy := ⟨true, true, true⟩

/-- The policy turns this warning into an error. -/
def isFatal (policy : Policy) : Warning → Bool
  | .overwriteMultiField .. => policy.strictOverwrite
  | .maskedWriteLaneShared .. => policy.strictMaskedWrite
  | .addressSizeMismatch .. => policy.strictAddressSize

end Policy

end BusMap
