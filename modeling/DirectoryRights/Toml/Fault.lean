/-!
# What can be wrong with a TOML text

A text is refused for its form, for saying one thing twice, or for holding something else than what
is asked of it.
-/

set_option autoImplicit false

namespace DirectoryRights.Toml

/-- Why a TOML text is refused. -/
inductive Fault where
  /-- A line has none of the forms of the language. -/
  | malformed (line : Nat)
  /-- A key or a table is given twice, or in two ways. -/
  | redefined (key : List String)
  /-- A value of the wrong shape stands where another is expected. -/
  | unexpected (wanted : String)
  /-- A required field is missing. -/
  | missing (field : String)
deriving DecidableEq

/-- The wording of a fault. -/
def Fault.text : Fault → String
  | malformed line => s!"line {line} is malformed"
  | redefined key => ".".intercalate key ++ " is given again"
  | unexpected wanted => s!"expected {wanted}"
  | missing field => s!"missing field {field}"

end DirectoryRights.Toml
