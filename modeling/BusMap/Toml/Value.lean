/-!
# Values of a TOML document

What a document denotes: a table of named values in the order in which they were written. Numbers
with a fraction, dates and times keep their text, because no declaration has a use for them.
-/

set_option autoImplicit false

namespace BusMap.Toml

/-- A value of a document. -/
inductive Value where
  | string (text : String)
  | integer (value : Int)
  | float (text : String)
  | boolean (value : Bool)
  | moment (text : String)
  | array (elements : List Value)
  | table (entries : List (String × Value))

/-- Entries of a table in the order in which they were written. -/
abbrev Entries := List (String × Value)

end BusMap.Toml
