import DirectoryRights.Proofs.DecidingGrant
import DirectoryRights.Proofs.Disguise

/-!
# Checks of user rights under another kind

A check of a user right goes the same way whichever of the two kinds of its class the right is
defined for, over the same stored lines: the grants that are about it are the same, they are
searched in the same order, and the deciding grant is reported in the same way.

Only the walk through groups tells an account from a calendar resource. A user right that is defined
for accounts passes the groups of the target by, and one that is defined for calendar resources
reads them, on the very same targets. So the check may differ where a target has groups and one of
them stores a grant about the right, or grants that cannot be read.
-/

set_option autoImplicit false

namespace DirectoryRights

namespace Table

variable {α β : Type} [DecidableEq α]

/-- The table with its values changed. -/
def map (f : β → β) (t : Table α β) : Table α β :=
  ⟨t.rows.map fun row => (row.1, f row.2)⟩

/-- Under each key of the changed table stands the changed value. -/
theorem get?_map (f : β → β) (t : Table α β) (key : α) :
    (t.map f).get? key = (t.get? key).map f := by
  unfold get? map
  rw [List.find?_map, Option.map_map, Option.map_map]
  rfl

/-- A value may be changed before or after it is put into a table. -/
theorem map_insert (f : β → β) (t : Table α β) (key : α) (value : β) :
    (t.insert key value).map f = (t.map f).insert key (f value) := by
  obtain ⟨rows⟩ := t
  unfold map insert
  congr 1
  induction rows with
  | nil => rfl
  | cons row rest ih =>
    unfold put
    by_cases hrow : row.1 = key
    · rw [if_pos hrow]
      exact (if_pos hrow).symm
    · rw [if_neg hrow, List.map_cons, ih]
      exact (if_neg hrow).symm

end Table

/-- The grant of the changed right. -/
def Grant.mapRight (f : Right → Right) (g : Grant) : Grant :=
  { g with right := f g.right }

/-- The request for another right. -/
def Request.asking (r : Request) (right : Right) : Request :=
  { r with right }

/-- The store that remembers altered sets. -/
def Store.altered (p : Grant → Grant) (s : Store) : Store :=
  { s with memo := s.memo.map (GrantSet.map p) }

/-- A set may be changed before or after it is remembered. -/
theorem Store.altered_remember (p : Grant → Grant) (s : Store) (id : EntryId) (set : GrantSet) :
    (s.remember id set).altered p = (s.altered p).remember id (set.map p) := by
  unfold altered remember
  rw [Table.map_insert]

section Unnoticed

variable {f : Right → Right} (hf : Right.Unnoticed f)

include hf

/-- An unnoticed change of rights leaves the terms of grants alone. -/
theorem Right.Unnoticed.keepsTerms : Grant.KeepsTerms (Grant.mapRight f) where
  slot g := by
    show Slot.mk g.grantee g.granteeType (f g.right).name = g.slot
    rw [hf.name]
    rfl
  modifier _ := rfl
  secret _ := rfl

/-- An unnoticed change of rights is an alteration that the search does not notice. -/
theorem Right.Unnoticed.alters (q : Inquiry) : q.Alters (Grant.mapRight f) (f q.right) where
  terms := hf.keepsTerms
  name := hf.name q.right
  isUserRight := hf.isUserRight q.right
  concerns below g := by
    have hmeets : (f g.right).meets (f q.right) = g.right.meets q.right := by
      rw [hf.meets]
      unfold Right.meets
      rw [hf.name]
    show ((f q.right).suits q.target.targetType q.delegate && !(q.delegate && g.isForUse) &&
      (g.denies || g.isSubDomain = below) && (f g.right).meets (f q.right)) = _
    rw [hf.suits, hmeets]
    rfl

/-- The rules before the grants say the same of the changed right. -/
theorem Right.Unnoticed.settled (r : Request) : (r.asking (f r.right)).settled = r.settled := by
  have hverdict : PriorRules.verdict r.principal r.target (f r.right) r.asAdmin =
      PriorRules.verdict r.principal r.target r.right r.asAdmin := by
    unfold PriorRules.verdict
    rw [hf.isUserRight]
  unfold Request.settled
  simp only [Request.asking, hverdict, hf.isPreset, hf.name]

/-- The report of a grant is that of its changed right. -/
theorem Right.Unnoticed.report (r : Request) (decision : Decision) (grant : Option Grant) :
    (r.asking (f r.right)).report decision (grant.map (Grant.mapRight f)) =
      r.report decision grant := by
  have hvia : ∀ g : Grant, Via.ofGrant (g.mapRight f) = Via.ofGrant g := by
    intro g
    show Via.mk _ _ _ _ (f g.right).name _ = Via.mk _ _ _ _ g.right.name _
    rw [hf.name]
    rfl
  unfold Request.report
  rw [Option.map_map]
  show Evaluation.mk decision (if r.wantsVia = true then grant.map fun g =>
    Via.ofGrant (g.mapRight f) else none) = _
  simp only [hvia]

variable {c c' : Catalog} (hlookup : ∀ name, c'.lookup name = (c.lookup name).map f)

include hlookup

omit hf in
/-- Lines are read as before, but for the changed rights. -/
theorem Grant.parse_mapRight (line : String) :
    parse c' line = (parse c line).map (mapRight f) := by
  unfold parse
  cases fields? line.toList with
  | none => rfl
  | some fields =>
    dsimp only
    cases GranteeType.ofCode? (String.ofList fields.2.1) with
    | none => rfl
    | some granteeType =>
      dsimp only
      cases readGrantee granteeType fields.1 line with
      | error e => rfl
      | ok grantee =>
        dsimp only [Except.bind]
        rw [hlookup]
        cases c.lookup (String.ofList (readRight fields.2.2).2) <;> rfl

/-- The changed catalog reads the changed grants from the same lines. -/
theorem GrantSet.parse_mapRight (e : Entry) (lines : List String) :
    parse c' e lines = (parse c e lines).map (GrantSet.map (Grant.mapRight f)) := by
  have hlines : lines.mapM (Grant.parse c') =
      (lines.mapM (Grant.parse c)).map (List.map (Grant.mapRight f)) := by
    induction lines with
    | nil => rfl
    | cons line rest ih =>
      rw [List.mapM_cons, List.mapM_cons, ih, Grant.parse_mapRight hlookup]
      cases Grant.parse c line with
      | error e => rfl
      | ok g => cases rest.mapM (Grant.parse c) <;> rfl
  unfold parse
  rw [hlines]
  cases lines.mapM (Grant.parse c) with
  | error e => rfl
  | ok gs =>
    show Except.ok (ofList _) = Except.ok ((ofList _).map _)
    rw [GrantSet.ofList_map hf.keepsTerms, List.map_map, List.map_map]
    rfl

namespace Store

/-- What is stored on an entry is read as the changed grants. -/
theorem read_mapRight (s : Store) (e : Entry) :
    (s.altered (Grant.mapRight f)).read c' e =
      (s.read c e).map (GrantSet.map (Grant.mapRight f)) := by
  unfold read
  show (s.values e grantAttribute).bind (GrantSet.parse c' e) = _
  cases s.values e grantAttribute with
  | error e => rfl
  | ok lines => exact GrantSet.parse_mapRight hf hlookup e lines

/-- A check is given the changed grants of an entry. -/
theorem fresh_mapRight (s : Store) (e : Entry) :
    fresh c' (s.altered (Grant.mapRight f)) e =
      (fresh c s e).altered (Grant.mapRight f) := by
  unfold fresh
  rw [read_mapRight hf hlookup]
  cases s.read c e with
  | error e => rfl
  | ok set => exact congrArg Except.ok (GrantSet.present_map _ set).symm

/-- A store answers with the changed rights, and remembers them. -/
theorem grantsOf_mapRight (e : Entry) (s : Store) :
    grantsOf c' e (s.altered (Grant.mapRight f)) =
      ((grantsOf c e s).1.altered (Grant.mapRight f),
        (grantsOf c e s).2.altered (Grant.mapRight f)) := by
  have hmemo : (s.altered (Grant.mapRight f)).memo.get? e.id =
      (s.memo.get? e.id).map (GrantSet.map (Grant.mapRight f)) := Table.get?_map _ _ _
  cases hset : s.memo.get? e.id with
  | some set =>
    rw [hset] at hmemo
    rw [grantsOf_of_remembered c hset, grantsOf_of_remembered c' hmemo]
    exact congrArg (Except.ok ·, _) (GrantSet.present_map _ set).symm
  | none =>
    rw [hset] at hmemo
    rw [grantsOf_of_forgotten c hset, grantsOf_of_forgotten c' hmemo, read_mapRight hf hlookup]
    cases s.read c e with
    | error e => rfl
    | ok set =>
      show (Except.ok (present (set.map _)), (s.altered _).remember e.id (set.map _)) =
        (Except.ok ((present set).map _), (s.remember e.id set).altered _)
      rw [GrantSet.present_map, altered_remember]

end Store

/-! ## The same walk -/

/-- The same walk through groups makes the same check. -/
theorem AccessControl.uncached_mapRight {k k' : AccessControl} (hk : k.catalog = c)
    (hk' : k'.catalog = c') {d : Directory} {r : Request}
    (hgroups : Ancestry.groups d.view r.target
        ((r.asking (f r.right)).inquiry d.view).expandsGroups =
      Ancestry.groups d.view r.target (r.inquiry d.view).expandsGroups) :
    k'.uncached d (r.asking (f r.right)) = k.uncached d r := by
  have hcached : ∀ r : Request, cached? r (.start d none) = none := by
    intro r
    unfold cached?
    cases r.wantsVia <;> rfl
  -- Both readings ask for the same entries, and the stores answer with grants that correspond.
  have hreading : Reading.Follows (GrantAnswer.altered (Grant.mapRight f)) id
      (r.reading d.view) ((r.asking (f r.right)).reading d.view) := by
    refine .bind ((hf.alters (r.inquiry d.view)).answer hgroups) ?_
    rintro (e | ⟨decision, grant⟩)
    · exact .done (Except.error e)
    · show Reading.Follows _ _ _ (.done (Except.ok ((r.asking (f r.right)).report decision _)))
      rw [hf.report]
      exact .done _
  have hstart : (Store.ofDirectory d).altered (Grant.mapRight f) = .ofDirectory d := rfl
  have hrun := hreading.run (Store.grantsOf_mapRight hf hlookup) (.ofDirectory d)
  rw [hstart] at hrun
  unfold uncached evaluate
  rw [hf.settled, hcached, hcached]
  rcases r.settled with e | _ | decision
  · rfl
  · show (((r.asking (f r.right)).reading d.view).run (Store.grantsOf k'.catalog)
      (.ofDirectory d)).1 = ((r.reading d.view).run (Store.grantsOf k.catalog) (.ofDirectory d)).1
    rw [hk, hk', hrun]
    rfl
  · rfl

end Unnoticed

/-! ## Groups that say nothing -/

namespace Inquiry

variable {q : Inquiry} {source : Entry → GrantAnswer}

/-- The groups of the target can be read, and no grant that they leave to it is about the right. -/
def SilentGroups (q : Inquiry) (source : Entry → GrantAnswer) : Prop :=
  ∀ group ∈ Ancestry.groups q.view q.target true, ∃ set, source group.1 = .ok set ∧
    ∀ g ∈ inherited group.2 true (set.elim [] GrantSet.all), q.concerns false g = false

/-- Where groups are not asked for a target has none. -/
theorem groups_of_not_expanded (v : View) (target : Entry) :
    Ancestry.groups v target false = [] := by
  unfold Ancestry.groups
  simp only [Bool.and_false, Bool.not_false, Bool.true_or, if_true]

/-- A level without candidates is passed over. -/
theorem scan_skip (q : Inquiry) (level : Level) (h : q.candidates level.below level.grants = [])
    (rest : List (Except Error Level)) (seen : Bool) :
    q.scan (.ok level :: rest) seen = q.scan rest seen := by
  rw [Inquiry.scan, h]
  show q.scan rest (seen || false) = _
  rw [Bool.or_false]

/-- Grants none of which is about the right give no candidates. -/
theorem candidates_eq_nil {below : Bool} {gs : List Grant}
    (h : ∀ g ∈ gs, q.concerns below g = false) : q.candidates below gs = [] := by
  unfold candidates
  rw [List.flatMap_eq_nil_iff]
  intro tier _
  rw [List.map_eq_nil_iff, List.filter_eq_nil_iff]
  intro g hg
  rw [h g hg, Bool.and_false]
  exact Bool.false_ne_true

/-- Groups that say nothing can be read, and nothing that is gathered of them is about the right. -/
theorem SilentGroups.gather (h : q.SilentGroups source) (home : Option Entry) :
    ∃ pool, (q.gather none home (Ancestry.groups q.view q.target q.expandsGroups)).eval source =
        .ok pool ∧ ∀ g ∈ pool, q.concerns false g = false := by
  have hread : ∀ groups : List (Entry × Bool), (∀ group ∈ groups, ∃ set,
        source group.1 = .ok set ∧
          ∀ g ∈ inherited group.2 true (set.elim [] GrantSet.all), q.concerns false g = false) →
      ∃ pool, (q.gather none home groups).eval source = .ok pool ∧
        ∀ g ∈ pool, q.concerns false g = false := by
    intro groups
    induction groups with
    | nil => exact fun _ => ⟨[], rfl, fun g hg => absurd hg List.not_mem_nil⟩
    | cons group rest ih =>
      intro hgroups
      obtain ⟨set, hset, hsilent⟩ := hgroups group List.mem_cons_self
      obtain ⟨pool, hpool, hrest⟩ := ih fun g hg => hgroups g (List.mem_cons_of_mem _ hg)
      refine ⟨inherited group.2 true (set.elim [] GrantSet.all) ++ pool, ?_, fun g hg => ?_⟩
      · rw [q.gather_cons, hset, hpool]
        rfl
      · exact (List.mem_append.mp hg).elim (hsilent g) (hrest g)
  cases hexpands : q.expandsGroups with
  | true => exact hread _ h
  | false =>
    rw [groups_of_not_expanded]
    exact hread [] fun group hgroup => absurd hgroup List.not_mem_nil

/-- Groups that say nothing are passed over, whether they are read or not. -/
theorem SilentGroups.scan (h : q.SilentGroups source) (home : Option Entry)
    (stops : List (Entry × Bool)) :
    q.scan (q.levels source none home stops) false =
      q.scan (Level.ofAnswer false (source q.target) ::
        stops.map fun (entry, below) => Level.ofAnswer below (source entry)) false := by
  obtain ⟨pool, hpool, hsilent⟩ := h.gather home
  have hlevel : q.groupLevel source none home = .ok ⟨false, Grant.ranked pool⟩ := by
    unfold groupLevel
    rw [hpool]
    rfl
  have hnone : q.candidates false (Grant.ranked pool) = [] := by
    apply candidates_eq_nil
    intro g hg
    exact hsilent g (Grant.mem_ranked.mp hg)
  -- The target comes before its groups, so that it may still decide or be in the way.
  unfold levels
  rw [hlevel]
  cases Level.ofAnswer false (source q.target) with
  | error e => rfl
  | ok level =>
    unfold Inquiry.scan
    rw [q.scan_skip ⟨false, Grant.ranked pool⟩ hnone]

/-- Groups that say nothing of a right say nothing of the changed one. -/
theorem SilentGroups.altered (h : q.SilentGroups source) {p : Grant → Grant} {right : Right}
    (halters : q.Alters p right) :
    (q.asking right).SilentGroups fun e => (source e).altered p := by
  intro group hgroup
  obtain ⟨set, hset, hsilent⟩ := h group hgroup
  refine ⟨set.map (GrantSet.map p), congrArg (GrantAnswer.altered p) hset, fun g hg => ?_⟩
  have hall : (set.map (GrantSet.map p)).elim [] GrantSet.all =
      (set.elim [] GrantSet.all).map p := by
    cases set with
    | none => rfl
    | some set => exact GrantSet.all_map halters.terms set
  rw [hall, halters.inherited] at hg
  obtain ⟨original, horiginal, rfl⟩ := List.mem_map.mp hg
  rw [halters.concerns]
  exact hsilent original horiginal

/-- Whether groups that say nothing are read makes no difference to the search. -/
theorem SilentGroups.search {d : Directory} (hview : q.view = d.view)
    (h : q.SilentGroups source) {p : Grant → Grant} {right : Right} (halters : q.Alters p right) :
    ((q.asking right).search none).eval (fun e => (source e).altered p) =
      ((q.search none).eval source).map (Finding.altered p) := by
  obtain ⟨home, hhome⟩ := q.targetHome_ofDirectory hview
  have hstops := q.stops_ofDirectory hview
  have hlevels : (Level.ofAnswer false ((source q.target).altered p) ::
        (q.knownStops d).map fun (entry, below) =>
          Level.ofAnswer below ((source entry).altered p)) =
      (Level.ofAnswer false (source q.target) ::
        (q.knownStops d).map fun (entry, below) => Level.ofAnswer below (source entry)).map
          (Except.map (Level.altered p)) := by
    rw [List.map_cons, List.map_map, Level.ofAnswer_altered halters.terms]
    congr 1
    exact List.map_congr_left fun stop _ => Level.ofAnswer_altered halters.terms stop.2 _
  rw [q.search_eval source none home _ hhome hstops, h.scan,
    (q.asking right).search_eval _ none home _ hhome hstops, (h.altered halters).scan,
    ← halters.scan, ← hlevels]
  rfl

end Inquiry

namespace AccessControl

variable {k : AccessControl} {d : Directory} {r : Request}

/-- The check of the altered right reports the same, but perhaps for where the grant was found, if
the groups of the target say nothing. -/
theorem uncached_of_silent {f : Right → Right} (hf : Right.Unnoticed f) {k' : AccessControl}
    (hlookup : ∀ name, k'.catalog.lookup name = (k.catalog.lookup name).map f)
    (huser : r.right.isUserRight = true)
    (h : (r.inquiry d.view).SilentGroups (Store.fresh k.catalog (.ofDirectory d))) :
    (k'.uncached d (r.asking (f r.right))).map Evaluation.unplaced =
      (k.uncached d r).map Evaluation.unplaced := by
  have hfresh : Store.fresh k'.catalog (.ofDirectory d) = fun e =>
      (Store.fresh k.catalog (.ofDirectory d) e).altered (Grant.mapRight f) :=
    funext (Store.fresh_mapRight hf hlookup (.ofDirectory d))
  have hsettled := hf.settled r
  rw [uncached_unplaced, uncached_unplaced]
  rcases hverdict : r.settled with e | _ | decision
  · unfold evaluateFresh
    rw [hsettled, hverdict]
  · have hsearch : (((r.asking (f r.right)).inquiry d.view).search none).eval
          (Store.fresh k'.catalog (.ofDirectory d)) =
        (((r.inquiry d.view).search none).eval (Store.fresh k.catalog (.ofDirectory d))).map
          (Finding.altered (Grant.mapRight f)) := by
      rw [hfresh]
      exact h.search rfl (hf.alters (r.inquiry d.view))
    have hcourse : (r.inquiry d.view).course = .search none :=
      (r.inquiry d.view).course_of_user huser
    have hcourse' : ((r.asking (f r.right)).inquiry d.view).course = .search none :=
      Inquiry.course_of_user _ ((hf.isUserRight r.right).trans huser)
    rw [evaluateFresh_of_search hverdict hcourse,
      evaluateFresh_of_search (hsettled.trans hverdict) hcourse', hsearch]
    rcases ((r.inquiry d.view).search none).eval (Store.fresh k.catalog (.ofDirectory d)) with
      e | g | seen
    · rfl
    · exact congrArg (fun evaluation => Except.ok evaluation.unplaced)
        (hf.report r (Finding.found g).decision (some g))
    · exact congrArg (fun evaluation => Except.ok evaluation.unplaced)
        (hf.report r (Finding.none seen).decision none)
  · unfold evaluateFresh
    rw [hsettled, hverdict]

variable (k : AccessControl) (name : String)

/-- The access control whose user right of a name is for the other kind of its class. -/
def retarget : AccessControl :=
  { k with catalog := k.catalog.retarget name }

end AccessControl

/-- The request for the right that the changed catalog has in its place. -/
def Request.retarget (name : String) (r : Request) : Request :=
  r.asking (r.right.retarget name)

/-- Only a user right for accounts or for calendar resources reads other groups after the change. -/
theorem Inquiry.expandsGroups_retarget (q : Inquiry) (name : String)
    (h : q.right.presetTarget? ≠ some .account ∧ q.right.presetTarget? ≠ some .calResource) :
    (q.asking (q.right.retarget name)).expandsGroups = q.expandsGroups := by
  rcases q.right.retarget_cases name with hsame | ⟨label, target, grantTarget, hform, hright⟩
  · rw [hsame]
    rfl
  · have htarget : q.right.presetTarget? = some target := by
      unfold Right.presetTarget? Right.single?
      rw [hform]
      rfl
    have hadmin : (q.asking (q.right.retarget name)).isAdminRight = q.isAdminRight :=
      congrArg (!·) ((Right.unnoticed_retarget name).isUserRight q.right)
    rw [htarget] at h
    unfold Inquiry.expandsGroups
    rw [hadmin, htarget, hright]
    show (_ || decide (some target.userTwin ≠ some TargetType.account)) = _
    cases target with
    | account => exact absurd rfl h.1
    | calResource => exact absurd rfl h.2
    | _ => rfl

namespace Sample

/-- The admin asks whether to send in somebody's name. -/
def sending (target : Entry) : Request :=
  .ofRight (.entry admin) target sendAs

/-- Access control over the right to send in somebody's name and the right to see an account. -/
def mailroom : AccessControl where
  catalog := ⟨[sendAs, listAccount]⟩
  rules := .ofList []
  maxLifetime := 0

/-- Alice lets the admin send in her name, and both lists let the admin see her account. -/
def shared : Directory :=
  storing alice "55555555-5555-5555-5555-555555555555 usr sendAs" listed

/-- The list "staff" lets the admin send in the names of its members. -/
def sendable : Directory :=
  storing staff "55555555-5555-5555-5555-555555555555 usr sendAs" domains

end Sample

namespace AccessControl

/-- The definitions with a user right moved to the other kind of its class make the catalog with the
right moved, or are refused for the same reason. The check is the same one in both catalogs if the
right is not for accounts or calendar resources or if the target is in no group. If it is in groups,
and these can be read and leave it no grant about the right, both checks report the same, but
perhaps for where the grant was found. -/
theorem uncached_retarget (k : AccessControl) (name : String) (d : Directory) (r : Request) :
    (∀ definitions, Catalog.ofDefinitions (definitions.map (Definition.retarget name)) =
      (Catalog.ofDefinitions definitions).map (·.retarget name)) ∧
      ((r.right.presetTarget? ≠ some .account ∧ r.right.presetTarget? ≠ some .calResource ∨
          Ancestry.groups d.view r.target true = []) →
        (k.retarget name).uncached d (r.retarget name) = k.uncached d r) ∧
      ((r.inquiry d.view).SilentGroups (Store.fresh k.catalog (.ofDirectory d)) →
        ((k.retarget name).uncached d (r.retarget name)).map Evaluation.unplaced =
          (k.uncached d r).map Evaluation.unplaced) := by
  have hf := Right.unnoticed_retarget name
  have hlookup : ∀ n, (k.retarget name).catalog.lookup n =
      (k.catalog.lookup n).map (Right.retarget name) := k.catalog.lookup_retarget name
  have hwalk : Ancestry.groups d.view r.target ((r.retarget name).inquiry d.view).expandsGroups =
        Ancestry.groups d.view r.target (r.inquiry d.view).expandsGroups →
      (k.retarget name).uncached d (r.retarget name) = k.uncached d r :=
    uncached_mapRight hf hlookup rfl rfl
  refine ⟨fun definitions => Catalog.ofDefinitions_retarget name definitions, ?_, ?_⟩
  · rintro (hkind | hnone)
    · have hexpands : ((r.retarget name).inquiry d.view).expandsGroups =
          (r.inquiry d.view).expandsGroups :=
        (r.inquiry d.view).expandsGroups_retarget name hkind
      exact hwalk (congrArg (Ancestry.groups d.view r.target) hexpands)
    · have hgroups : ∀ expand, Ancestry.groups d.view r.target expand = [] := by
        rintro (_ | _)
        · exact Inquiry.groups_of_not_expanded d.view r.target
        · exact hnone
      exact hwalk ((hgroups _).trans (hgroups _).symm)
  · intro hsilent
    by_cases huser : r.right.isUserRight = true
    · exact uncached_of_silent hf hlookup huser hsilent
    · -- An admin right is what it was.
      have hright : r.right.retarget name = r.right :=
        Right.retarget_of_other fun h => absurd h huser
      have hexpands : ((r.retarget name).inquiry d.view).expandsGroups =
          (r.inquiry d.view).expandsGroups := by
        unfold Request.retarget
        rw [hright]
        rfl
      rw [hwalk (congrArg (Ancestry.groups d.view r.target) hexpands)]

/-- Bob may send in Ann's name either way. So may the admin in Alice's, who is in two lists: what
these store is about another right, so that it makes no difference whether they are read. -/
theorem uncached_retarget_sample :
    (Sample.control.retarget "sendAs").uncached Sample.directory
        (Sample.request.retarget "sendAs") =
          Sample.control.uncached Sample.directory Sample.request ∧
      Sample.control.uncached Sample.directory Sample.request = .ok (.bare .allow) ∧
      Ancestry.groups Sample.shared.view Sample.alice true =
        [(Sample.team, true), (Sample.staff, true)] ∧
      (∀ group ∈ [Sample.team, Sample.staff],
        (Store.fresh Sample.mailroom.catalog (.ofDirectory Sample.shared) group).grants.map
          (·.right.name) = ["listAccount"]) ∧
      ((Sample.mailroom.retarget "sendAs").uncached Sample.shared
          ((Sample.sending Sample.alice).retarget "sendAs")).map Evaluation.unplaced =
        (Sample.mailroom.uncached Sample.shared (Sample.sending Sample.alice)).map
          Evaluation.unplaced ∧
      Sample.mailroom.uncached Sample.shared (Sample.sending Sample.alice) =
        .ok (.bare .allow) := by
  have hgroups : Ancestry.groups Sample.shared.view Sample.alice true =
      [(Sample.team, true), (Sample.staff, true)] := by decide +kernel
  refine ⟨?_, by decide +kernel, hgroups, by decide +kernel, ?_, by decide +kernel⟩
  · exact (uncached_retarget Sample.control "sendAs" Sample.directory Sample.request).2.1
      (.inr (by decide +kernel))
  · refine (uncached_retarget Sample.mailroom "sendAs" Sample.shared
      (Sample.sending Sample.alice)).2.2 fun group hgroup => ?_
    have hsilent : ∀ group ∈ [(Sample.team, true), (Sample.staff, true)],
        (Store.fresh Sample.mailroom.catalog (.ofDirectory Sample.shared) group.1).toOption.any
          (fun set => (Inquiry.inherited group.2 true (set.elim [] GrantSet.all)).all fun g =>
            ((Sample.sending Sample.alice).inquiry Sample.shared.view).concerns false g = false) =
              true := by
      decide +kernel
    obtain ⟨set, hset, hall⟩ := Store.exists_ok_of_any (hsilent group (hgroups ▸ hgroup))
    exact ⟨set, hset, fun g hg => of_decide_eq_true (List.all_eq_true.mp hall g hg)⟩

/-- A list lets the admin send in the names of its members. It is asked only if the right is for
calendar resources. -/
theorem retargeted_let_in :
    Catalog.ofDefinitions [Sample.definition] = .ok Sample.control.catalog ∧
      Catalog.ofDefinitions [Sample.definition.retarget "sendAs"] =
        .ok (Sample.control.retarget "sendAs").catalog ∧
      Sample.control.uncached Sample.sendable (Sample.sending Sample.alice) =
        .ok (.bare .undecided) ∧
      (Sample.control.retarget "sendAs").uncached Sample.sendable
        ((Sample.sending Sample.alice).retarget "sendAs") = .ok (.bare .allow) := by
  refine ⟨rfl, rfl, ?_, ?_⟩
  · decide +kernel
  · decide +kernel

end AccessControl

end DirectoryRights
