/-!
# TOML documents

The values of a TOML document.  A table is a list of entries in the order in which the document
first mentions them; that order decides which of several faults is reported when a document is
decoded.  Dates and times are recognised but carry nothing: no setting of this library is one.
-/

set_option autoImplicit false

namespace ScriptPool
namespace Toml

/-- A value of a TOML document. -/
inductive Item where
  | string (s : String)
  | integer (n : Int)
  | float (x : Float)
  | boolean (b : Bool)
  | datetime
  | array (items : List Item)
  | table (entries : List (String × Item))

instance : Inhabited Item := ⟨.table []⟩

/-- The entries of a table. -/
abbrev Entries := List (String × Item)

/-- The value under a key. -/
def Entries.get? (entries : Entries) (key : String) : Option Item :=
  (entries.find? fun entry => entry.1 == key).map (·.2)

end Toml
end ScriptPool
