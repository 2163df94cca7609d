/-!
# Case folding of ASCII letters

Names of domains, mail addresses and attributes are compared without regard to the case of the
letters `A` to `Z`; all other characters compare as they are.
-/

set_option autoImplicit false

namespace DirectoryRights.Text

/-- The text with the letters `A` to `Z` in lower case. -/
def foldAscii (text : String) : String :=
  String.ofList (text.toList.map Char.toLower)

/-- Equality up to the case of ASCII letters. -/
def sameFolded (a b : String) : Bool :=
  a.toList.map Char.toLower == b.toList.map Char.toLower

end DirectoryRights.Text
