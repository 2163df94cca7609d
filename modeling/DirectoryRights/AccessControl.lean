import DirectoryRights.Inquiry
import DirectoryRights.PriorRules
import DirectoryRights.DecisionMemo
import DirectoryRights.Settings
import DirectoryRights.Store.Sharing

/-!
# Access control

A check goes through four steps: the rules before any grant, the remembered decisions, the grants of
the target and of what it inherits from, and the remembered decisions again, which take the new one.
Who wants to know the deciding grant passes the memory by. Changes of grants that are made here keep
the memory true.
-/

set_option autoImplicit false

namespace DirectoryRights

/-- What is fixed for all checks. -/
structure AccessControl where
  /-- The rights. -/
  catalog : Catalog
  /-- The rules before any grant. -/
  rules : PriorRules
  /-- The longest lifetime of a share in milliseconds, zero for no bound. -/
  maxLifetime : Int

/-- What checks and changes leave behind. -/
structure AccessState where
  /-- The store of grants. -/
  store : Store
  /-- The remembered decisions, if decisions are remembered. -/
  cache : Option DecisionMemo

/-- One check. -/
structure Request where
  /-- Who asks. -/
  principal : Principal
  /-- The entry on which the right is checked. -/
  target : Entry
  /-- The right. -/
  right : Right
  /-- Whether the principal acts as an admin. -/
  asAdmin : Bool
  /-- Whether the right is to be passed on rather than used. -/
  delegate : Bool
  /-- Whether the deciding grant is to be reported. -/
  wantsVia : Bool

/-- A check of the use of a right, as an admin where it is an admin right. -/
def Request.ofRight (principal : Principal) (target : Entry) (right : Right) : Request :=
  { principal, target, right, asAdmin := !right.isUserRight, delegate := false, wantsVia := false }

namespace Request

/-- The search for the deciding grant. -/
def inquiry (r : Request) (v : View) : Inquiry :=
  { view := v, principal := r.principal, target := r.target, right := r.right,
    delegate := r.delegate }

/-- The report of a decision and the grant that made it. -/
def report (r : Request) (decision : Decision) (grant : Option Grant) : Evaluation :=
  { decision, via := if r.wantsVia then grant.map Via.ofGrant else none }

/-- The part of a check that reads grants. -/
def reading (r : Request) (v : View) : Reading (Except Error Evaluation) :=
  ((r.inquiry v).answer.run).bind fun outcome =>
    .done (outcome.map fun (decision, grant) => r.report decision grant)

/-- The answer that needs no grants: a rule decides or refuses, or the right cannot be checked. -/
def settled (r : Request) : Except Error (Option Decision) :=
  match PriorRules.verdict r.principal r.target r.right r.asAdmin with
  | .error e => .error e
  | .ok (some decision) => .ok (some decision)
  | .ok none => if r.right.isPreset then .ok none else .error (.notPreset r.right.name)

end Request

/-- The state before the first check. -/
def AccessState.start (d : Directory) (cache : Option DecisionMemo) : AccessState :=
  { store := .ofDirectory d, cache }

/-- The empty memory of decisions that settings ask for, if they do. -/
def Settings.cache (s : Settings) : Option DecisionMemo :=
  if s.cacheEnabled then some (.empty s.cacheTargets) else none

namespace AccessControl

/-- Access control with the rules and the bound of settings. -/
def ofSettings (c : Catalog) (s : Settings) : AccessControl :=
  { catalog := c, rules := .ofList s.forbidden, maxLifetime := s.maxLifetime }

/-- The answer of a check whose grants are read from the directory and not remembered. -/
def evaluateFresh (k : AccessControl) (s : Store) (r : Request) : Except Error Evaluation :=
  match r.settled with
  | .error e => .error e
  | .ok (some decision) => .ok (.bare decision)
  | .ok none => (r.reading s.view).eval (s.fresh k.catalog)

/-- Remembers the decision of a check. -/
def record (r : Request) (outcome : Except Error Evaluation) (k : DecisionMemo) :
    DecisionMemo :=
  match outcome with
  | .error _ => k
  | .ok evaluation => k.put r.principal r.target r.right r.delegate evaluation.decision

/-- The answer of a check whose decision is not remembered. -/
def search (k : AccessControl) (r : Request) (st : AccessState) :
    Except Error Evaluation × AccessState :=
  let (outcome, store) := (r.reading st.store.view).run (Store.grantsOf k.catalog) st.store
  (outcome, { store, cache := if r.wantsVia then st.cache else st.cache.map (record r outcome) })

/-- The remembered decision, for who does not want the deciding grant. -/
def cached? (r : Request) (st : AccessState) : Option Decision :=
  if r.wantsVia then none
  else st.cache.bind (·.get? r.principal r.target r.right r.delegate)

/-- The answer of a check. -/
def evaluate (k : AccessControl) (r : Request) (st : AccessState) :
    Except Error Evaluation × AccessState :=
  match r.settled with
  | .error e => (.error e, st)
  | .ok (some decision) => (.ok (.bare decision), st)
  | .ok none =>
    match cached? r st with
    | some decision => (.ok (.bare decision), st)
    | none => k.search r st

/-- The answer of a check as yes or no: what stays open is settled by the default of the right and
then by `fallback`, and a denied permission is a no. -/
def allows (right : Right) (fallback : Bool) : Except Error Evaluation → Except Error Bool
  | .ok evaluation => .ok (evaluation.decision.holdsUnder right.label.default fallback)
  | .error e => if e.isDenial then .ok false else .error e

/-- Whether the principal may use a right. -/
def permits (k : AccessControl) (r : Request) (fallback : Bool) (st : AccessState) :
    Except Error Bool × AccessState :=
  let (outcome, st) := k.evaluate r st
  (allows r.right fallback outcome, st)

/-- The result and the state after a change of the grants on an entry. If grants were changed at
all, the remembered decisions that may rest on them are dropped. -/
def apply {α : Type} (st : AccessState) (target : Entry) (changed : α → List Grant) :
    Except Error (α × Store) → Except Error α × AccessState
  | .error e => (.error e, st)
  | .ok (result, store) =>
    let cache := if changed result = [] then st.cache else st.cache.map (·.invalidate target)
    (.ok result, { store, cache })

/-- Adds grants to an entry. -/
def grant (k : AccessControl) (target : Entry) (gs : List Grant) (st : AccessState) :
    Except Error (List Grant) × AccessState :=
  apply st target id (st.store.grant k.catalog target gs)

/-- Takes grants from an entry. -/
def revoke (k : AccessControl) (target : Entry) (gs : List Grant) (st : AccessState) :
    Except Error (List Grant) × AccessState :=
  apply st target id (st.store.revoke k.catalog target gs)

/-- Adds grants that end. -/
def grantUntil (k : AccessControl) (target : Entry) (gs : List Grant) (expiry : Option String)
    (now : Int) (st : AccessState) : Except Error (List Grant × Int) × AccessState :=
  apply st target Prod.fst
    (st.store.grantUntil k.catalog k.maxLifetime target gs expiry now)

end AccessControl

end DirectoryRights
