import BusMap.Address
import BusMap.Toml.Decode

/-!
# Addresses in documents

An address is a natural number or a text in the form that `Address.read` takes.
-/

set_option autoImplicit false

namespace BusMap

open Toml

/-- Reads an address; the message about a text shows it without surrounding blanks. -/
def Address.ofValue : Decoder Address
  | .integer n => if 0 ≤ n then .ok (.fixed n.toNat) else malformed
  | .string s =>
    match Address.read s.toList with
    | .ok a => .ok a
    | .error cause =>
      .error (.rejected (.invalidAddress (String.ofList (Text.trim s.toList)) cause.message))
  | _ => malformed

end BusMap
