import DirectoryRights.Evaluation
import DirectoryRights.Grant.Line
import DirectoryRights.Grant.Validity
import DirectoryRights.Report
import DirectoryRights.Text.Column
import DirectoryRights.Text.Numeral

/-!
# Listings

How rights, grants and evaluations are shown: a right on one line, with its properties where it has
them, a grant by its parts, and an evaluation by its decision and the grant that made it.
-/

set_option autoImplicit false

namespace DirectoryRights

namespace Right

/-- The columns every right has: its name, its audience, its kind and its target types. -/
def columns (r : Right) : String :=
  let audience := if r.isUserRight then "user" else "admin"
  let targets := ",".intercalate (r.targets.map TargetType.code)
  " ".intercalate
    [Text.column 32 r.name, Text.column 6 audience, Text.column 8 r.kind.code, targets]

/-- The line on a right. -/
def listing (r : Right) : String :=
  let slot := match r.label.slot with
    | some slot => " cache=" ++ Text.decimal slot
    | none => ""
  let default := match r.label.default with
    | some default => " default=" ++ default.title
    | none => ""
  let members := if r.isCombo then " [" ++ ",".intercalate r.memberNames ++ "]" else ""
  r.columns ++ slot ++ default ++ members

end Right

/-- The lines on the rights of a catalog, or on its user rights alone. -/
def Catalog.listing (c : Catalog) (userOnly : Bool) : List String :=
  (c.rights.filter fun r => ¬ userOnly ∨ r.isUserRight).map Right.listing

/-- The report on a grant, its parts in the order of their names. -/
def Grant.report (g : Grant) : Report :=
  .record
    [("ace", .text g.line), ("can_delegate", .truth g.isDelegable), ("deny", .truth g.denies),
      ("disinherit_sub_groups", .truth g.isDisinherit), ("grantee", .text g.grantee),
      ("grantee_type", .text g.granteeType.code), ("has_secret", .truth g.secret.isSome),
      ("right", .text g.right.name), ("sub_domain", .truth g.isSubDomain)]

/-- The report on a grant as it is stored, if it can be made. -/
def Catalog.describe (c : Catalog) (line : String) : Except Error Report := do
  let grant ← Grant.parse c line
  match grant.objection? with
  | some e => throw e
  | none => return grant.report

/-- The report on a deciding grant. -/
def Via.report (v : Via) : Report :=
  .record
    [("target_type", .optional (v.targetType.map TargetType.code)),
      ("target_name", .optional v.targetName), ("grantee_type", .text v.granteeType.title),
      ("grantee", .text v.grantee), ("right", .text v.right), ("negative", .truth v.negative)]

/-- The line on a deciding grant. -/
def Via.listing (v : Via) : String :=
  s!"via {v.signedRight} {v.granteeType.code} {v.grantee} on {v.place}"

namespace Evaluation

/-- The report on an evaluation. -/
def report (e : Evaluation) : Report :=
  .record
    [("decision", .text e.decision.title),
      ("via", match e.via with
        | some v => v.report
        | none => .nothing)]

/-- The lines on an evaluation: the decision, what it amounts to for a right with a default, and
the grant that made it. -/
def listing (e : Evaluation) (default : Option DefaultAnswer) : List String :=
  let effective := if e.decision.holdsUnder default false then "true" else "false"
  s!"{e.decision.text} (effective: {effective})" :: (e.via.map Via.listing).toList

end Evaluation

end DirectoryRights
