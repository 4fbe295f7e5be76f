import BusMap.Toml.Decode

/-!
# Policies in documents

A document may say which classes of warnings are fatal; a class that it does not name is not.
-/

set_option autoImplicit false

namespace BusMap

open Toml

namespace Policy

/-- Names of the members of a policy. -/
def members : List String := ["strict_address_size", "strict_masked_write", "strict_overwrite"]

/-- Reads one member. -/
def set (p : Policy) : String × Value → Except Failure Policy
  | ("strict_address_size", v) => return { p with strictAddressSize := ← Decoder.truth v }
  | ("strict_masked_write", v) => return { p with strictMaskedWrite := ← Decoder.truth v }
  | ("strict_overwrite", v) => return { p with strictOverwrite := ← Decoder.truth v }
  | _ => return p

/-- Reads a policy. -/
def ofValue : Decoder Policy := Decoder.record members {} set .ok

/-- Reads the policy that a document gives. -/
def read (text : String) : Except Failure Policy := Decoder.document ofValue text

end Policy

end BusMap
