import DirectoryRights.Grant
import DirectoryRights.Catalog

/-!
# Grants as lines

A grant is stored as a line of three fields: the grantee, the code of its type, and the name of the
right after the character of the modifier. Single spaces stand between the fields, and the line is
cut from its end, so that a grantee may have spaces in it. Grantees with a secret have it behind a
colon in the first field, and the colon is written without a secret too.
-/

set_option autoImplicit false

namespace DirectoryRights.Grant

/-- The field of the grantee. -/
def granteeField (g : Grant) : List Char :=
  if g.granteeType.carriesSecret then g.grantee.toList ++ ':' :: (g.secret.getD "").toList
  else g.grantee.toList

/-- The field of the right. -/
def rightField (g : Grant) : List Char :=
  (g.modifier.map Modifier.char).toList ++ g.right.name.toList

/-- The stored line of a grant. -/
def line (g : Grant) : String :=
  String.ofList (g.granteeField ++ ' ' :: g.granteeType.code.toList ++ ' ' :: g.rightField)

/-- The parts of a grantee field with a secret, without the empty ones at its end. -/
def secretParts (field : List Char) : List (List Char) :=
  ((Text.splitOn ':' field).reverse.dropWhile (· = [])).reverse

/-- The grantee and the secret in a grantee field. -/
def readGrantee (granteeType : GranteeType) (field : List Char) (line : String) :
    Except Error (String × Option String) :=
  if granteeType.carriesSecret then
    match secretParts field with
    | [name] => .ok (String.ofList name, none)
    | [name, secret] => .ok (String.ofList name, some (String.ofList secret))
    | _ => .error (.malformedLine line)
  else if granteeType.isNamedById ∧ Uuid.parseList? field = none then
    .error (.granteeNotId (String.ofList field) granteeType line)
  else
    .ok (String.ofList field, none)

/-- The modifier and the name of the right in a right field. -/
def readRight : List Char → Option Modifier × List Char
  | [] => (none, [])
  | c :: rest =>
    match Modifier.ofChar? c with
    | some modifier => (some modifier, rest)
    | none => (none, c :: rest)

/-- The three fields of a line: grantee, type code and right. -/
def fields? (line : List Char) : Option (List Char × List Char × List Char) :=
  (Text.cutLast? ' ' line).bind fun (front, right) =>
    (Text.cutLast? ' ' front).bind fun (grantee, code) =>
      if grantee = [] ∨ right = [] then none else some (grantee, code, right)

/-- The grant a line stands for; a right that cannot be resolved makes the line malformed. -/
def parse (c : Catalog) (line : String) : Except Error Grant :=
  match fields? line.toList with
  | none => .error (.malformedLine line)
  | some (field, code, right) =>
    match GranteeType.ofCode? (String.ofList code) with
    | none => .error (.unknownGranteeType (String.ofList code))
    | some granteeType =>
      (readGrantee granteeType field line).bind fun (grantee, secret) =>
        let (modifier, name) := readRight right
        match c.lookup (String.ofList name) with
        | .error cause => .error (.lineRight cause line)
        | .ok right => .ok { grantee, granteeType, right, modifier, secret, origin := none }

end DirectoryRights.Grant
