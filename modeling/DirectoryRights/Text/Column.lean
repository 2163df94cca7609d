import DirectoryRights.Text.Split

/-!
# Columns of text

Texts in a column are filled up to its width; a text wider than the column is kept whole. The lines
of a text can be made to hang behind a margin.
-/

set_option autoImplicit false

namespace DirectoryRights.Text

/-- A text with blanks after it, up to a width. -/
def column (width : Nat) (text : String) : String :=
  String.ofList (text.toList.rightpad width ' ')

/-- A text with blanks before it, up to a width. -/
def columnEnd (width : Nat) (text : String) : String :=
  String.ofList (text.toList.leftpad width ' ')

/-- A text behind a heading, its further lines behind a margin. -/
def hanging (heading margin text : String) : String :=
  heading ++ ("\n" ++ margin).intercalate (parts '\n' text)

end DirectoryRights.Text
