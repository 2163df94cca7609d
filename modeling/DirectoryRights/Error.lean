import DirectoryRights.TargetType
import DirectoryRights.GranteeType
import DirectoryRights.Uuid
import DirectoryRights.File
import DirectoryRights.Toml.Fault

/-!
# Errors

Every failure is a cause, and every cause has a kind and a wording. Malformed input is a parse
error, a request that can never succeed is an invalid request, the rules before any grant and the
expiry policy deny permission with a reason, and a directory that contradicts itself is a failure.
-/

set_option autoImplicit false

namespace DirectoryRights

/-- The rule behind a denied permission. -/
inductive DenialRule where
  /-- An admin right was asked for by someone who is no delegated admin. -/
  | notEligibleAdmin
  /-- A delegated admin asked for a right on the account of a global admin. -/
  | globalAdminTarget
  /-- The attribute can never be granted. -/
  | forbiddenAttribute
  /-- The expiry asked for conflicts with the longest lifetime of a share. -/
  | grantExpiryPolicy
deriving DecidableEq

namespace DenialRule

/-- Every reason. -/
def all : List DenialRule :=
  [notEligibleAdmin, globalAdminTarget, forbiddenAttribute, grantExpiryPolicy]

/-- The stable name of a reason. -/
def tag : DenialRule → String
  | notEligibleAdmin => "not_eligible_admin"
  | globalAdminTarget => "global_admin_target"
  | forbiddenAttribute => "forbidden_attribute"
  | grantExpiryPolicy => "grant_expiry_policy"

end DenialRule

/-- The kind of a failure. -/
inductive ErrorKind where
  /-- The input is malformed. -/
  | parse
  /-- A rule denies the permission. -/
  | permissionDenied (reason : DenialRule)
  /-- The request can never succeed. -/
  | invalidRequest
  /-- The directory contradicts itself. -/
  | failure
  /-- What was named does not exist. -/
  | notFound
  /-- The configuration cannot be used. -/
  | config
deriving DecidableEq

/-- What stands before the wording of an error of this kind. -/
def ErrorKind.heading : ErrorKind → String
  | parse => "Parse error: "
  | permissionDenied reason => s!"Permission denied ({reason.tag}): "
  | invalidRequest => "Invalid request: "
  | failure => "Failure: "
  | notFound => "Not found: "
  | config => "Configuration error: "

/-- The causes of failure. -/
inductive Error where
  /-- No target type has this code. -/
  | unknownTargetType (code : String)
  /-- No grantee type has this code. -/
  | unknownGranteeType (code : String)
  /-- A right has no name. -/
  | emptyRightName
  /-- A right is defined a second time. -/
  | duplicateRight (name : String)
  /-- A user right is not a preset. -/
  | userRightNotPreset (name : String)
  /-- The name of a user right looks like that of an attribute right. -/
  | userRightDotted (name : String)
  /-- An admin right restricts where it is granted. -/
  | grantTargetOnAdminRight (name : String)
  /-- A preset has no target type, or several. -/
  | presetTargetCount (name : String)
  /-- Grants on the grant target would not reach the targets of the right. -/
  | grantTargetUnreachable (target : TargetType) (name : String)
  /-- An attribute right has no target type. -/
  | attrRightWithoutTarget (name : String)
  /-- An attribute right lists no attribute. -/
  | attrRightWithoutAttrs (name : String)
  /-- A combo names a target type. -/
  | comboWithTarget (name : String)
  /-- A combo has no members. -/
  | comboWithoutMembers (name : String)
  /-- A combo names a right that is not defined yet. -/
  | comboMemberUndefined (name member : String)
  /-- A combo names a user right. -/
  | comboMemberUserRight (name member : String)
  /-- A combo names the cross-domain admin right. -/
  | comboMemberCrossDomain (name : String)
  /-- The name of an attribute right has not three parts. -/
  | inlineShape (name : String)
  /-- The name of an attribute right neither reads nor writes. -/
  | inlineOperation (operation name : String)
  /-- The name of an attribute right has a kind without attributes of its own. -/
  | inlineTarget (target : TargetType) (name : String)
  /-- The name of an attribute right ends without an attribute. -/
  | inlineAttribute (name : String)
  /-- No right has this name. -/
  | unknownRight (name : String)
  /-- A stored grant has not the form of one. -/
  | malformedLine (line : String)
  /-- The grantee of a stored grant should be an identifier. -/
  | granteeNotId (grantee : String) (granteeType : GranteeType) (line : String)
  /-- The right of a stored grant cannot be resolved. -/
  | lineRight (cause : Error) (line : String)
  /-- An external group is not a domain id and an address. -/
  | externalGroupShape (text : String)
  /-- The name of a grantee with a secret contains a colon. -/
  | granteeWithColon (grantee : String)
  /-- A secret contains a colon. -/
  | secretWithColon
  /-- A grantee of this type has no secret. -/
  | secretNotCarried (granteeType : GranteeType)
  /-- The id of a grantee contains a space. -/
  | granteeWithSpace (grantee : String)
  /-- A grantee of this type may not hold an admin right. -/
  | granteeTypeNotAdmin (granteeType : GranteeType) (right : String)
  /-- The cross-domain admin right is granted to something else than a domain. -/
  | crossDomainGrantee (right : String)
  /-- The right does not reach domains below another. -/
  | subDomainModifier (right : String)
  /-- The right does not reach members of groups. -/
  | disinheritModifier (right : String)
  /-- The right cannot be granted on an entry of this kind. -/
  | notGrantable (right : String) (target : TargetType)
  /-- An admin right is granted with an expiry. -/
  | adminRightExpiry (right : String)
  /-- An expiry is not a number. -/
  | expiryShape (text : String)
  /-- An expiry lies beyond the longest lifetime of a share. -/
  | expiryConflict
  /-- Only preset rights can be checked. -/
  | notPreset (right : String)
  /-- The cross-domain admin right is checked on something else than a domain. -/
  | crossDomainTarget (target : TargetType)
  /-- The principal may not use admin rights. -/
  | notEligibleAdmin
  /-- The target is out of reach for delegated admins. -/
  | globalAdminTarget
  /-- The attribute can never be granted. -/
  | forbiddenAttribute (attr : String)
  /-- The principal has no domain. -/
  | noDomain (name : String)
  /-- The entry is not in the directory. -/
  | noEntry (name : String) (id : Uuid)
  /-- A configuration key has an unusable value. -/
  | configValue (key value : String)
  /-- There is no such configuration key. -/
  | configKey (key : String)
  /-- A configuration file cannot be read. -/
  | configFile (path : String) (fault : FileFault)
  /-- A configuration file is of an unknown format. -/
  | configFormat (extension : String)
  /-- A configuration file has the wrong form. -/
  | configText (fault : Toml.Fault)
  /-- The memory of decisions would hold nothing. -/
  | cacheWithoutTargets
  /-- The longest lifetime of a share is negative. -/
  | negativeLifetime
  /-- No attribute is forbidden. -/
  | nothingForbidden
  /-- A file of right definitions cannot be read. -/
  | definitionsFile (path : String) (fault : FileFault)
  /-- Right definitions have the wrong form. -/
  | definitionsText (fault : Toml.Fault)
  /-- An error taken as one of malformed input. -/
  | asParse (cause : Error)
  /-- An error taken as one of an invalid request. -/
  | asInvalidRequest (cause : Error)
  /-- An error reported by a directory, in its own words. -/
  | reported (kind : ErrorKind) (wording : String)
deriving DecidableEq

namespace Error

/-- The kind and the wording of an error. -/
def report : Error → ErrorKind × String
  | unknownTargetType code => (.invalidRequest, s!"unknown target type: {code}")
  | unknownGranteeType code => (.parse, s!"invalid grantee type: {code}")
  | emptyRightName => (.parse, "right name must not be empty")
  | duplicateRight name => (.parse, s!"right {name} is already defined")
  | userRightNotPreset name => (.parse, s!"user right {name} must be a preset right")
  | userRightDotted name => (.parse, s!"user right name {name} must not contain '.'")
  | grantTargetOnAdminRight name =>
    (.parse, s!"grant target type is only allowed on user rights: {name}")
  | presetTargetCount name => (.parse, s!"preset right {name} must have exactly one target type")
  | grantTargetUnreachable target name =>
    (.parse, s!"grant target type {target.code} is not grantable for right {name}")
  | attrRightWithoutTarget name => (.parse, s!"attr right {name} must have a target type")
  | attrRightWithoutAttrs name => (.parse, s!"attr right {name} has an empty attribute list")
  | comboWithTarget name => (.parse, s!"combo right {name} cannot specify a target type")
  | comboWithoutMembers name => (.parse, s!"combo right {name} has no member rights")
  | comboMemberUndefined name member =>
    (.parse, s!"combo right {name} references {member}, which must be defined first")
  | comboMemberUserRight name member =>
    (.invalidRequest, s!"combo right {name} cannot contain user right {member}")
  | comboMemberCrossDomain name =>
    (.invalidRequest, s!"combo right {name} cannot contain crossDomainAdmin")
  | inlineShape name => (.parse, s!"inline attr right must be <op>.<targetType>.<attr>: {name}")
  | inlineOperation operation name =>
    (.parse, s!"inline attr right op must be get or set, got {operation}: {name}")
  | inlineTarget target name => (.parse, s!"inline attr right cannot target {target.code}: {name}")
  | inlineAttribute name => (.parse, s!"inline attr right is missing an attribute: {name}")
  | unknownRight name => (.notFound, s!"invalid right: {name}")
  | malformedLine line => (.parse, s!"bad ACE: {line}")
  | granteeNotId grantee granteeType line =>
    (.parse, s!"grantee {grantee} of type {granteeType.code} is not a valid id: {line}")
  | lineRight cause line =>
    (.parse, (report cause).1.heading ++ (report cause).2 ++ s!" in ACE: {line}")
  | externalGroupShape text => (.parse, s!"invalid external group grantee: {text}")
  | granteeWithColon grantee => (.invalidRequest, s!"grantee name cannot contain ':': {grantee}")
  | secretWithColon => (.invalidRequest, "password cannot contain ':'")
  | secretNotCarried granteeType =>
    (.invalidRequest, s!"grantee type {granteeType.code} cannot carry a secret")
  | granteeWithSpace grantee => (.invalidRequest, s!"grantee id cannot contain spaces: {grantee}")
  | granteeTypeNotAdmin granteeType right =>
    (.invalidRequest, s!"grantee type {granteeType.code} is not allowed for admin right {right}")
  | crossDomainGrantee right => (.invalidRequest, s!"{right} can only be granted to a domain")
  | subDomainModifier right =>
    (.invalidRequest, s!"sub domain modifier is not allowed for right {right}")
  | disinheritModifier right =>
    (.invalidRequest, s!"disinherit sub groups modifier is not allowed for right {right}")
  | notGrantable right target =>
    (.invalidRequest, s!"right {right} cannot be granted on a {target.code} entry")
  | adminRightExpiry right =>
    (.invalidRequest, s!"admin right {right} cannot be granted with an expiry")
  | expiryShape text => (.invalidRequest, s!"invalid grant expiry: {text}")
  | expiryConflict => (.permissionDenied .grantExpiryPolicy, "share expiration policy conflict")
  | notPreset right => (.invalidRequest, s!"{right} is not a preset right")
  | crossDomainTarget target =>
    (.invalidRequest, s!"crossDomainAdmin can only be checked on a domain, not {target.code}")
  | notEligibleAdmin => (.permissionDenied .notEligibleAdmin, "not an eligible admin account")
  | globalAdminTarget =>
    (.permissionDenied .globalAdminTarget,
      "delegated admin is not allowed to access a global admin's account")
  | forbiddenAttribute attr =>
    (.permissionDenied .forbiddenAttribute, s!"attribute {attr} cannot be granted")
  | noDomain name => (.failure, s!"cannot find domain for {name}")
  | noEntry name id => (.notFound, s!"no such entry: {name} ({id.text})")
  | configValue key value => (.config, s!"invalid value for {key}: {value}")
  | configKey key => (.config, s!"unknown configuration key: {key}")
  | configFile path fault => (.config, s!"failed to read config file {path}: {fault.text}")
  | configFormat extension => (.config, s!"unsupported config format: {extension}")
  | configText fault => (.config, s!"invalid TOML: {fault.text}")
  | cacheWithoutTargets => (.config, "permission_cache.max_targets must be greater than 0")
  | negativeLifetime => (.config, "grants.max_lifetime_ms cannot be negative")
  | nothingForbidden => (.config, "hard_rules.forbidden_attrs cannot be empty")
  | definitionsFile path fault =>
    (.config, s!"failed to read right definitions {path}: {fault.text}")
  | definitionsText fault => (.parse, s!"invalid right definitions: {fault.text}")
  | asParse cause => (.parse, (report cause).1.heading ++ (report cause).2)
  | asInvalidRequest cause => (.invalidRequest, (report cause).1.heading ++ (report cause).2)
  | reported kind wording => (kind, wording)

/-- The kind of an error. -/
def kind (e : Error) : ErrorKind :=
  (report e).1

/-- The wording of an error, without its kind. -/
def message (e : Error) : String :=
  (report e).2

/-- The whole text of an error. -/
def text (e : Error) : String :=
  e.kind.heading ++ e.message

/-- The rule behind a denied permission. -/
def denial? (e : Error) : Option DenialRule :=
  match e.kind with
  | .permissionDenied reason => some reason
  | _ => none

/-- Whether a rule denied the permission, as opposed to something going wrong. -/
def isDenial (e : Error) : Bool :=
  e.denial?.isSome

/-- The error as one of malformed input, in its own words. -/
def toParse (e : Error) : Error :=
  if e.kind = .parse then e else asParse e

/-- An error that is reported as one of reading is of the kind of these. -/
theorem kind_toParse (e : Error) : e.toParse.kind = .parse := by
  unfold toParse
  split
  · assumption
  · rfl

end Error

end DirectoryRights
