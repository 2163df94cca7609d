import Mathlib.Data.List.Forall2
import DirectoryRights.Proofs.Distances
import DirectoryRights.Proofs.Suffixes

/-!
# The chain of ancestors, one step at a time

A walk gives the ancestors of a target one after the other. It goes through stages, asks for the
groups and for the names of the domains above only when it comes to them, and keeps what it has not
given yet. What is left of a walk can be told from where it stands: the next step gives the first of
it and leaves the rest. So the walk gives what is left of it at its start, which is the chain, and
then nothing more.
-/

set_option autoImplicit false

namespace DirectoryRights.Ancestry

/-- Where a walk stands. -/
inductive Stage where
  /-- The target comes next. -/
  | target
  /-- The groups of the target come next. -/
  | groups
  /-- The domain of the target comes next. -/
  | domain
  /-- The domains above the target come next. -/
  | parentDomains
  /-- The global grant entry comes next. -/
  | global
  /-- Nothing is left. -/
  | done
deriving DecidableEq

/-- A walk through the ancestors of a target. -/
structure Walk where
  /-- The target. -/
  target : Entry
  /-- Whether groups are walked through. -/
  expandGroups : Bool
  /-- Where the walk stands. -/
  stage : Stage
  /-- The groups that are left, once they were asked for. -/
  groups : Option (List Affiliation)
  /-- The names of the domains above that are left, once they were asked for. -/
  parentDomains : Option (List String)

/-- The first thing that can be made of an element of a list, and the elements after it. -/
def takeFirst {α β : Type} (f : α → Option β) : List α → Option β × List α
  | [] => (none, [])
  | a :: rest =>
    match f a with
    | some b => (some b, rest)
    | none => takeFirst f rest

/-- The entry that a directory answers with, if it does. -/
def found? : Except Error (Option Entry) → Option Entry
  | .ok (some entry) => some entry
  | _ => none

/-- What a directory answers with is found. -/
theorem found?_ok (answer : Option Entry) : found? (.ok answer) = answer := by
  cases answer <;> rfl

/-- The group as an ancestor, if it can be found. -/
def groupItem? (v : View) (group : Affiliation) : Option Ancestor :=
  (found? (v.entry group.id)).map (.group · group.direct)

/-- The domain of a name as an ancestor, if it can be found. -/
def domainItem? (v : View) (name : String) : Option Ancestor :=
  (found? (v.domainNamed name)).map .domain

/-- How many stages may still be skipped. -/
def Stage.skips : Stage → Nat
  | groups => 2
  | domain | parentDomains => 1
  | target | global | done => 0

namespace Walk

/-- The walk through the ancestors of a target, at its start. -/
def start (target : Entry) (expandGroups : Bool) : Walk :=
  { target, expandGroups, stage := .target, groups := none, parentDomains := none }

/-- The stage after the target itself. -/
def afterTarget (w : Walk) : Stage :=
  match w.target.kind with
  | .account _ | .calResource _ | .distributionList _ =>
    if w.expandGroups then .groups else .domain
  | .dynamicGroup _ => .domain
  | .domain => .parentDomains
  | .globalGrant => .done
  | .cos | .server | .ucService | .xmppComponent | .zimlet | .config => .global

/-- The groups that are left. -/
def groupsLeft (v : View) (w : Walk) : List Affiliation :=
  w.groups.getD <|
    if w.target.isPseudo then []
    else
      match v.membership w.target false with
      | .ok membership => membership.groups
      | .error _ => []

/-- The names of the domains above that are left. -/
def namesLeft (w : Walk) : List String :=
  w.parentDomains.getD (tailsOfLabels w.target.name)

/-- The domain of the target as an ancestor, unless it is made up. -/
def ownDomain? (v : View) (w : Walk) : Option Ancestor :=
  if w.target.syntheticDomain?.isSome then none
  else (found? (v.homeDomain w.target)).map .domain

/-- One step of a walk: the next ancestor, if there is one, and the walk after it. -/
def next (v : View) (w : Walk) : Option (Except Error Ancestor) × Walk :=
  match _ : w.stage with
  | .target => (some (.ok (.target w.target)), { w with stage := w.afterTarget })
  | .groups =>
    match takeFirst (groupItem? v) (w.groupsLeft v) with
    | (some item, rest) => (some (.ok item), { w with groups := some rest })
    | (none, rest) => next v { w with groups := some rest, stage := .domain }
  | .domain =>
    match w.ownDomain? v with
    | some item => (some (.ok item), { w with stage := .global })
    | none => next v { w with stage := .global }
  | .parentDomains =>
    match takeFirst (domainItem? v) w.namesLeft with
    | (some item, rest) => (some (.ok item), { w with parentDomains := some rest })
    | (none, rest) => next v { w with parentDomains := some rest, stage := .global }
  | .global => (some (v.globalGrant.map .global), { w with stage := .done })
  | .done => (none, w)
termination_by w.stage.skips
decreasing_by all_goals simp [*, Stage.skips]

/-- A walk gives some items one after the other and then nothing. -/
inductive Yields (v : View) : Walk → List (Except Error Ancestor) → Prop where
  /-- The walk is at its end. -/
  | stop {w : Walk} (h : (w.next v).1 = none) : Yields v w []
  /-- The walk gives an item and goes on. -/
  | item {w : Walk} {item : Except Error Ancestor} {rest : List (Except Error Ancestor)}
    (h : (w.next v).1 = some item) (hrest : Yields v (w.next v).2 rest) :
    Yields v w (item :: rest)

/-- What comes from a stage after the target on. -/
def comingFrom (v : View) (w : Walk) : Stage → List (Except Error Ancestor)
  | .target | .done => []
  | .groups => ((w.groupsLeft v).filterMap (groupItem? v)).map .ok ++
      ((w.ownDomain? v).toList.map .ok ++ [v.globalGrant.map .global])
  | .domain => (w.ownDomain? v).toList.map .ok ++ [v.globalGrant.map .global]
  | .parentDomains => (w.namesLeft.filterMap (domainItem? v)).map .ok ++
      [v.globalGrant.map .global]
  | .global => [v.globalGrant.map .global]

/-- What is left of a walk. -/
def left (v : View) (w : Walk) : List (Except Error Ancestor) :=
  if w.stage = .target then .ok (.target w.target) :: w.comingFrom v w.afterTarget
  else w.comingFrom v w.stage

end Walk

/-- What is taken first is the first of everything that can be made of the list. -/
theorem filterMap_takeFirst {α β : Type} (f : α → Option β) (l : List α) :
    l.filterMap f = match takeFirst f l with
      | (some b, rest) => b :: rest.filterMap f
      | (none, _) => [] := by
  induction l with
  | nil => rfl
  | cons a rest ih =>
    rw [takeFirst]
    cases ha : f a with
    | none => rw [List.filterMap_cons_none ha, ih]
    | some b => rw [List.filterMap_cons_some ha]

namespace Walk

variable {v : View} {w : Walk}

/-- A step gives the first item of a list, if it has one, and leaves the rest. -/
def Steps (v : View) (w : Walk) (items : List (Except Error Ancestor)) : Prop :=
  (w.next v).1 = items.head? ∧ (w.next v).2.left v = items.tail

/-- The stage decides what a step does. -/
theorem next_eq (v : View) (w : Walk) :
    w.next v = match w.stage with
      | .target => (some (.ok (.target w.target)), { w with stage := w.afterTarget })
      | .groups =>
        match takeFirst (groupItem? v) (w.groupsLeft v) with
        | (some item, rest) => (some (.ok item), { w with groups := some rest })
        | (none, rest) => next v { w with groups := some rest, stage := .domain }
      | .domain =>
        match w.ownDomain? v with
        | some item => (some (.ok item), { w with stage := .global })
        | none => next v { w with stage := .global }
      | .parentDomains =>
        match takeFirst (domainItem? v) w.namesLeft with
        | (some item, rest) => (some (.ok item), { w with parentDomains := some rest })
        | (none, rest) => next v { w with parentDomains := some rest, stage := .global }
      | .global => (some (v.globalGrant.map .global), { w with stage := .done })
      | .done => (none, w) := by
  rw [next]
  split <;> simp only [*]

/-- A walk that is over gives nothing. -/
theorem steps_done (h : w.stage = .done) : w.Steps v (w.comingFrom v .done) := by
  unfold Steps left
  rw [next_eq, h]
  exact ⟨rfl, by simp [h, comingFrom]⟩

/-- From the stage of the global grant entry a step gives this entry. -/
theorem steps_global (h : w.stage = .global) : w.Steps v (w.comingFrom v .global) := by
  unfold Steps
  rw [next_eq, h]
  exact ⟨rfl, rfl⟩

/-- From the stage of the domain a step gives the domain of the target, or goes on to the global
grant entry. -/
theorem steps_domain (h : w.stage = .domain) : w.Steps v (w.comingFrom v .domain) := by
  have hglobal := steps_global (v := v) (w := { w with stage := .global }) rfl
  unfold Steps at hglobal ⊢
  rw [next_eq, h]
  simp only [comingFrom]
  cases w.ownDomain? v with
  | some item => exact ⟨rfl, rfl⟩
  | none => exact hglobal

/-- From the stage of the domains above a step gives the next of them that is found, or goes on. -/
theorem steps_parentDomains (h : w.stage = .parentDomains) :
    w.Steps v (w.comingFrom v .parentDomains) := by
  unfold Steps
  rw [next_eq, h]
  simp only [comingFrom]
  rw [filterMap_takeFirst]
  rcases takeFirst (domainItem? v) w.namesLeft with ⟨_ | item, rest⟩
  · exact steps_global (w := { w with parentDomains := some rest, stage := .global }) rfl
  · exact ⟨rfl, by simp [left, comingFrom, namesLeft]⟩

/-- From the stage of the groups a step gives the next of them that is found, or goes on. -/
theorem steps_groups (h : w.stage = .groups) : w.Steps v (w.comingFrom v .groups) := by
  unfold Steps
  rw [next_eq, h]
  simp only [comingFrom]
  rw [filterMap_takeFirst]
  rcases takeFirst (groupItem? v) (w.groupsLeft v) with ⟨_ | item, rest⟩
  · exact steps_domain (w := { w with groups := some rest, stage := .domain }) rfl
  · exact ⟨rfl, by simp [left, comingFrom, groupsLeft, ownDomain?]⟩

/-- The target comes once. -/
theorem afterTarget_ne_target (w : Walk) : w.afterTarget ≠ .target := by
  unfold afterTarget
  cases w.target.kind <;> cases w.expandGroups <;> simp

/-- From the start a step gives the target. -/
theorem steps_target (h : w.stage = .target) :
    w.Steps v (.ok (.target w.target) :: w.comingFrom v w.afterTarget) := by
  unfold Steps left
  rw [next_eq, h]
  refine ⟨rfl, ?_⟩
  rw [if_neg w.afterTarget_ne_target]
  rfl

/-- From every stage a step gives the first of what is left and leaves the rest. -/
theorem steps_left (v : View) (w : Walk) : w.Steps v (w.left v) := by
  cases hstage : w.stage with
  | target => simpa [left, hstage] using steps_target hstage
  | groups => simpa [left, hstage] using steps_groups hstage
  | domain => simpa [left, hstage] using steps_domain hstage
  | parentDomains => simpa [left, hstage] using steps_parentDomains hstage
  | global => simpa [left, hstage] using steps_global hstage
  | done => simpa [left, hstage] using steps_done hstage

/-- A walk gives what is left of it. -/
theorem yields_left (v : View) (w : Walk) : Yields v w (w.left v) := by
  generalize hitems : w.left v = items
  induction items generalizing w with
  | nil =>
    have hnext := (w.steps_left v).1
    rw [hitems] at hnext
    exact .stop hnext
  | cons item rest ih =>
    obtain ⟨hnext, hrest⟩ := w.steps_left v
    rw [hitems] at hnext hrest
    exact .item hnext (ih _ hrest)

/-- A walk gives nothing else. -/
theorem Yields.unique {items others : List (Except Error Ancestor)} (h : Yields v w items)
    (hother : Yields v w others) : items = others := by
  induction h generalizing others with
  | stop h =>
    cases hother with
    | stop => rfl
    | item hsome =>
      rw [h] at hsome
      cases hsome
  | item h _ ih =>
    cases hother with
    | stop hnone =>
      rw [h] at hnone
      cases hnone
    | item hsome hrest =>
      rw [h] at hsome
      cases hsome
      rw [ih hrest]

end Walk

section

variable (v : View) (target : Entry)

/-- The domain of a target in a chain is the one that is found, unless it is made up. -/
theorem home_eq : home v target =
    if target.syntheticDomain?.isSome then [] else (found? (v.homeDomain target)).toList := by
  unfold home
  rcases v.homeDomain target with _ | _ | domain <;> rfl

/-- The domains above a target in a chain are those found by the tails of its name. -/
theorem domainsAbove_eq : domainsAbove v target =
    (tailsOfLabels target.name).filterMap fun name => found? (v.domainNamed name) := by
  rw [tailsOfLabels_eq]
  refine List.filterMap_congr fun name _ => ?_
  rcases v.domainNamed name with _ | _ | domain <;> rfl

/-- Only targets of some kinds inherit from groups. -/
theorem groups_eq (expandGroups : Bool) : groups v target expandGroups =
    if expandGroups = true ∧ (target.targetType = .account ∨ target.targetType = .calResource ∨
      target.targetType = .distributionList)
    then ((Walk.start target expandGroups).groupsLeft v).filterMap fun group =>
      (found? (v.entry group.id)).map (·, group.direct)
    else [] := by
  have hitem : ∀ group : Affiliation, (found? (v.entry group.id)).map (·, group.direct) =
      match v.entry group.id with
      | .ok (some entry) => some (entry, group.direct)
      | _ => none := by
    intro group
    rcases v.entry group.id with _ | _ | entry <;> rfl
  simp only [hitem]
  unfold groups Walk.groupsLeft Walk.start
  cases expandGroups with
  | false => simp
  | true =>
    cases target.isPseudo <;> cases v.membership target false <;>
      cases target.targetType <;> rfl

/-- The groups that a walk gives are those that are found, each with whether it is a direct one. -/
theorem groupItem?_eq (listed : List Affiliation) :
    (listed.filterMap (groupItem? v)).map Except.ok = (listed.filterMap fun group =>
      (found? (v.entry group.id)).map (·, group.direct)).map
        fun (e, direct) => (.ok (.group e direct) : Except Error Ancestor) := by
  rw [List.map_filterMap, List.map_filterMap]
  refine List.filterMap_congr fun group _ => ?_
  unfold groupItem?
  cases found? (v.entry group.id) <;> rfl

/-- The domain that a walk gives is that of the target in its chain. -/
theorem ownDomain?_start (expandGroups : Bool) :
    ((Walk.start target expandGroups).ownDomain? v).toList.map Except.ok =
      (home v target).map fun e => (.ok (.domain e) : Except Error Ancestor) := by
  rw [home_eq]
  unfold Walk.ownDomain? Walk.start
  split
  · rfl
  · cases found? (v.homeDomain target) <;> rfl

/-- The domains above that a walk gives are those of the target in its chain. -/
theorem namesLeft_start (expandGroups : Bool) :
    ((Walk.start target expandGroups).namesLeft.filterMap (domainItem? v)).map Except.ok =
      (domainsAbove v target).map fun e => (.ok (.domain e) : Except Error Ancestor) := by
  rw [domainsAbove_eq, List.map_filterMap, List.map_filterMap]
  refine List.filterMap_congr fun name _ => ?_
  unfold domainItem?
  cases found? (v.domainNamed name) <;> rfl

/-- What is left of a walk at its start is the chain of ancestors. -/
theorem left_start (expandGroups : Bool) :
    (Walk.start target expandGroups).left v = chain v target expandGroups := by
  have hstart : (Walk.start target expandGroups).left v = .ok (.target target) ::
      (Walk.start target expandGroups).comingFrom v (Walk.start target expandGroups).afterTarget :=
    if_pos rfl
  have hafter : (Walk.start target expandGroups).afterTarget = match target.kind with
      | .account _ | .calResource _ | .distributionList _ =>
        if expandGroups then .groups else .domain
      | .dynamicGroup _ => .domain
      | .domain => .parentDomains
      | .globalGrant => .done
      | .cos | .server | .ucService | .xmppComponent | .zimlet | .config => .global := rfl
  rw [hstart, hafter]
  unfold chain domains last
  rw [groups_eq]
  unfold Entry.targetType Entry.isDomain Entry.targetType
  -- Every kind of target has its own stages after the first.
  cases target.kind <;> cases expandGroups <;>
    simp [Walk.comingFrom, EntryKind.targetType, TargetType.livesInDomain, groupItem?_eq,
      ownDomain?_start, namesLeft_start]

end

/-- A walk gives the chain of ancestors and nothing else. -/
theorem yields_iff {v : View} {target : Entry} {expandGroups : Bool}
    {items : List (Except Error Ancestor)} :
    Walk.Yields v (.start target expandGroups) items ↔ items = chain v target expandGroups := by
  have hchain := (Walk.start target expandGroups).yields_left v
  rw [left_start] at hchain
  exact ⟨fun h => h.unique hchain, fun h => h ▸ hchain⟩

/-- A list corresponds to what is made of its elements, if something is made of each and they
correspond. -/
theorem forall₂_filterMap {α β : Type} {R : α → β → Prop} {f : α → Option β} {l : List α}
    (h : ∀ a ∈ l, ∃ b, f a = some b ∧ R a b) : List.Forall₂ R l (l.filterMap f) := by
  induction l with
  | nil => exact .nil
  | cons a rest ih =>
    obtain ⟨b, hb, hrelated⟩ := h a List.mem_cons_self
    rw [List.filterMap_cons_some hb]
    exact .cons hrelated (ih fun other hother => h other (List.mem_cons_of_mem _ hother))

/-- In a directory no group that a target belongs to is left out. -/
theorem forall₂_groups (d : Directory) (target : Entry) (expandGroups : Bool) :
    List.Forall₂ (fun group item => d.entry? group.id = some item.1 ∧ group.direct = item.2)
      (if expandGroups = true ∧ target.isPseudo = false ∧ (target.targetType = .account ∨
          target.targetType = .calResource ∨ target.targetType = .distributionList)
        then (d.membership target false).groups else [])
      (groups d.view target expandGroups) := by
  rw [groups_eq]
  by_cases hinherits : expandGroups = true ∧ (target.targetType = .account ∨
      target.targetType = .calResource ∨ target.targetType = .distributionList)
  · rw [if_pos hinherits]
    by_cases hpseudo : target.isPseudo = true
    · simp [Walk.groupsLeft, Walk.start, hpseudo]
    · have hgroups : (Walk.start target expandGroups).groupsLeft d.view =
          (d.membership target false).groups := if_neg hpseudo
      rw [hgroups, if_pos ⟨hinherits.1, by simpa using hpseudo, hinherits.2⟩]
      refine forall₂_filterMap fun group hgroup => ?_
      rw [Directory.membership_all] at hgroup
      obtain ⟨entry, hentry, -⟩ := Directory.exists_entry_of_mem_allGroups hgroup
      have hanswer : found? (d.view.entry group.id) = some entry := (found?_ok _).trans hentry
      exact ⟨(entry, group.direct), by rw [hanswer]; rfl, hentry, rfl⟩
  · rw [if_neg hinherits, if_neg fun h => hinherits ⟨h.1, h.2.2⟩]
    exact .nil

/-- In a directory the domains whose grants a target inherits are its own, unless that is made up,
or those of the directory above it. -/
theorem domains_view (d : Directory) (target : Entry) :
    match target.targetType with
    | .account | .calResource | .distributionList | .dynamicGroup => domains d.view target =
        if target.syntheticDomain?.isSome then [] else (d.homeDomain? target).toList
    | .domain => ∃ names, DotSuffixes target.name names ∧
        domains d.view target = names.filterMap d.domainNamed?
    | _ => domains d.view target = [] := by
  have hhome : home d.view target =
      if target.syntheticDomain?.isSome then [] else (d.homeDomain? target).toList := by
    have hanswer : found? (d.view.homeDomain target) = d.homeDomain? target := found?_ok _
    rw [home_eq, hanswer]
  have habove : domainsAbove d.view target =
      (parentNames target.name).filterMap d.domainNamed? := by
    rw [domainsAbove_eq, tailsOfLabels_eq]
    exact List.filterMap_congr fun name _ => found?_ok _
  have hnames : ∃ names, DotSuffixes target.name names ∧
      domainsAbove d.view target = names.filterMap d.domainNamed? :=
    ⟨parentNames target.name, dotSuffixes_parentNames _, habove⟩
  unfold domains Entry.isDomain
  cases target.targetType <;> simp [TargetType.livesInDomain, hhome, hnames]

/-- A walk through the ancestors of a target in a directory gives the target; the groups to which it
belongs, in their order and with whether it is a direct member, if groups are walked through and it
is an account, a calendar resource or a distribution list that is not made up; its own domain, or
for a domain the domains of the directory above it, nearest first; and last the global grant entry.
For the global grant entry itself it gives nothing else. -/
theorem walk_yields (d : Directory) (target : Entry) (expandGroups : Bool) :
    ∃ groups domains last,
      (∀ items, Walk.Yields d.view (.start target expandGroups) items ↔ items =
        (.target target :: groups.map (fun (e, direct) => .group e direct) ++ domains.map .domain ++
          last.map Ancestor.global).map .ok) ∧
      List.Forall₂ (fun group item => d.entry? group.id = some item.1 ∧ group.direct = item.2)
        (if expandGroups = true ∧ target.isPseudo = false ∧ (target.targetType = .account ∨
            target.targetType = .calResource ∨ target.targetType = .distributionList)
          then (d.membership target false).groups else [])
        groups ∧
      (match target.targetType with
        | .account | .calResource | .distributionList | .dynamicGroup => domains =
            if target.syntheticDomain?.isSome then [] else (d.homeDomain? target).toList
        | .domain => ∃ names, DotSuffixes target.name names ∧
            domains = names.filterMap d.domainNamed?
        | _ => domains = []) ∧
      last = if target.targetType = .global then [] else [Directory.globalGrant] := by
  refine ⟨groups d.view target expandGroups, domains d.view target, _, fun items => ?_,
    forall₂_groups d target expandGroups, domains_view d target, rfl⟩
  have hlast : last d.view target =
      (if target.targetType = .global then [] else [Directory.globalGrant]).map .ok := by
    unfold last
    split <;> rfl
  rw [yields_iff]
  unfold chain
  rw [hlast]
  simp [Function.comp_def, Except.map]

end DirectoryRights.Ancestry
