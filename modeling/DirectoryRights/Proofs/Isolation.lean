import DirectoryRights.Proofs.DecidingGrant
import DirectoryRights.Proofs.Denials
import DirectoryRights.Proofs.Loosening
import DirectoryRights.Proofs.Reach

/-!
# Closed borders

For an admin of one domain and a target in another, whose border is closed to the first, the groups
of the target that do not live in its domain only deny. So the check ends as it would end if these
groups stored nothing but their denials.

Grants are stored under the id of an entry, so that a group may have its grants in common with
another place that the check reads: with the target itself, with its domain, or with the global
grant entry. There they are not those of a group, and they count.
-/

set_option autoImplicit false

namespace DirectoryRights

namespace Inquiry

variable {q : Inquiry} {source other : Entry → GrantAnswer}

/-- Of a group that does not count only the denials are gathered. -/
theorem inherited_denials (direct : Bool) (gs : List Grant) :
    inherited direct false (gs.filter Grant.denies) = inherited direct false gs := by
  unfold inherited
  rw [List.filter_filter]
  apply List.filter_congr
  intro g _
  cases g.denies <;> simp

/-- Whether a group counts depends on nothing but the grants of the target's domain. -/
theorem groupCounts_congr {holder home : Option Entry} (group : Entry)
    (h : ∀ domain, home = some domain → source domain = other domain) :
    (q.groupCounts holder home group).eval source =
      (q.groupCounts holder home group).eval other :=
  Reading.eval_eq_of_asked _ fun e he => h e (mem_asked_groupCounts he)

/-- Of a group that does not count the second source may know the denials alone. -/
def SameShare (q : Inquiry) (source other : Entry → GrantAnswer) (holder home : Option Entry)
    (group : Entry) : Prop :=
  other group = source group ∨
    other group = (source group).denials ∧ (q.groupCounts holder home group).eval source = false

/-- The same grants are gathered if each group has the same share and the domain of the target says
the same. -/
theorem gather_of_sameShare {holder home : Option Entry} {groups : List (Entry × Bool)}
    (hhome : ∀ domain, home = some domain → source domain = other domain)
    (hgroups : ∀ group ∈ groups, q.SameShare source other holder home group.1) :
    (q.gather holder home groups).eval other = (q.gather holder home groups).eval source := by
  induction groups with
  | nil => rfl
  | cons group rest ih =>
    obtain ⟨group, direct⟩ := group
    have hrest := ih fun later hlater => hgroups later (List.mem_cons_of_mem _ hlater)
    rw [gather_cons, gather_cons, hrest, ← groupCounts_congr group hhome]
    rcases hgroups (group, direct) List.mem_cons_self with hsame | ⟨hdenials, hcounts⟩
    · rw [hsame]
    · -- The group gives no more than its denials, which are the same in both sources.
      rw [hdenials, hcounts]
      cases source group with
      | error e => rfl
      | ok set =>
        show Except.map _ _ = Except.map _ _
        simp only [GrantSet.elim_denials, inherited_denials]

/-- A search does not change if groups that do not count store their denials alone, as long as they
stand nowhere else above the target. -/
theorem search_of_sameShare {d : Directory} (hview : q.view = d.view) {holder home : Option Entry}
    (htargetHome : q.targetHome = .ok home)
    (hhome : ∀ domain, home = some domain → source domain = other domain)
    (htarget : source q.target = other q.target)
    (hstops : ∀ stop ∈ q.knownStops d, source stop.1 = other stop.1)
    (hgroups : ∀ group ∈ Ancestry.groups q.view q.target q.expandsGroups,
      q.SameShare source other holder home group.1) :
    (q.search holder).eval other = (q.search holder).eval source := by
  have hlevels : q.levels other holder home (q.knownStops d) =
      q.levels source holder home (q.knownStops d) := by
    unfold levels groupLevel
    rw [gather_of_sameShare hhome hgroups, htarget]
    congr 2
    apply List.map_congr_left
    intro stop hstop
    exact congrArg (Level.ofAnswer stop.2) (hstops stop hstop).symm
  rw [q.search_eval other holder home _ htargetHome (q.stops_ofDirectory hview),
    q.search_eval source holder home _ htargetHome (q.stops_ofDirectory hview), hlevels]

/-- A check of another admin right than the one that opens domains ends at once or searches for the
domain of the admin. -/
theorem course_of_admin {d : Directory} (hview : q.view = d.view) (hadmin : q.isAdminRight = true)
    (hcross : q.right.isCrossDomainAdmin = false) {e holder : Entry}
    (hprincipal : q.principal = .entry e) (hholder : d.homeDomain? e = some holder) :
    q.course = .idle ∨ q.course = .search (some holder) := by
  have hasked : q.holderDomain e = .ok holder := by
    have hhome : q.view.homeDomain e = .ok (some holder) := by
      rw [hview]
      exact congrArg Except.ok hholder
    unfold holderDomain
    rw [hhome]
  unfold course
  rw [if_pos hadmin, hprincipal]
  cases hmay : Principal.mayUseAdminRights (.entry e) with
  | false => simp [Principal.entry?]
  | true => simp [Principal.entry?, Option.filter, hasked, hcross]

end Inquiry

namespace Directory

variable (d : Directory)

/-- No grant stored on the domain `home` opens it to the admins of the domain `holder`. -/
def isClosedTo (c : Catalog) (home holder : Entry) : Bool :=
  match (Store.ofDirectory d).read c home with
  | .ok set => set.grants.all fun g => !DomainBorder.concerns holder.id.text g || g.denies
  | .error _ => true

/-- Whether an entry does not live in the domain `home`, as far as is known. -/
def isForeign (home group : Entry) : Bool :=
  !(d.homeDomain? group).any (·.id = home.id)

/-- The ids of the groups of a target that do not live in the domain `home`. -/
def foreignGroups (target home : Entry) : List EntryId :=
  ((Ancestry.groups d.view target true).filter fun group => d.isForeign home group.1).map (·.1.id)

/-- Those of them whose grants are the grants of nothing else that a check on the target reads. -/
def isolatedGroups (target home : Entry) : List EntryId :=
  (d.foreignGroups target home).filter
    fun id => id ∉ [target.id, home.id, Directory.globalGrant.id]

variable {d} {c : Catalog}

/-- A domain that stores no grant which opens it is not open. -/
theorem isOpen_of_closed {home holder : Entry}
    (hclosed : d.isClosedTo c home holder = true) :
    (DomainBorder.isOpen holder home).eval (Store.fresh c (.ofDirectory d)) = false := by
  rw [← Bool.not_eq_true, DomainBorder.isOpen_eval, Inquiry.check_eval]
  intro hopen
  unfold isClosedTo at hclosed
  unfold Store.fresh at hopen
  by_cases hdomain : home.isDomain = true
  · rw [if_pos hdomain] at hopen
    cases hread : (Store.ofDirectory d).read c home with
    | error e =>
      rw [hread] at hopen
      cases hopen
    | ok set =>
      rw [hread] at hopen hclosed
      have hallow : DomainBorder.decide holder.id.text false
          ((Store.present set).elim [] GrantSet.all) = .allow := Except.ok.inj hopen
      -- The grant that opens the domain would be among those that were ruled out.
      rw [GrantSet.elim_present, Inquiry.decide_eq_allow] at hallow
      obtain ⟨g, hfound, hpositive⟩ := hallow
      have hg : g ∈ set.grants := Grant.mem_ranked.mp (List.mem_of_find?_eq_some hfound)
      have hconcerns : DomainBorder.concerns holder.id.text g = true := by
        simpa using List.find?_some hfound
      have hrefused := List.all_eq_true.mp hclosed g hg
      rw [hconcerns, hpositive] at hrefused
      cases hrefused
  · rw [if_neg hdomain] at hopen
    cases hopen

/-- Across a closed border foreign groups do not count. -/
theorem groupCounts_of_foreign {q : Inquiry} (hview : q.view = d.view)
    {home holder group : Entry} (hdiffer : holder.id ≠ home.id)
    (hclosed : d.isClosedTo c home holder = true) (hforeign : d.isForeign home group = true) :
    (q.groupCounts (some holder) (some home) group).eval (Store.fresh c (.ofDirectory d)) =
      false := by
  have hasked : q.view.homeDomain group = .ok (d.homeDomain? group) := by
    rw [hview]
    rfl
  unfold isForeign at hforeign
  unfold Inquiry.groupCounts DomainBorder.groupCounts
  simp only [if_neg hdiffer, hasked]
  cases hgroup : d.homeDomain? group with
  | none => rfl
  | some owner =>
    rw [hgroup] at hforeign
    have howner : owner.id ≠ home.id := by simpa using hforeign
    simp only [if_neg howner]
    exact isOpen_of_closed hclosed

/-- A group of a target with the id of a foreign one is this foreign group. -/
theorem isForeign_of_mem {target home group : Entry} {direct : Bool}
    (hgroup : (group, direct) ∈ Ancestry.groups d.view target true)
    (hid : group.id ∈ d.foreignGroups target home) : d.isForeign home group = true := by
  unfold foreignGroups at hid
  obtain ⟨⟨foreign, direct'⟩, hmem, hsame⟩ := List.mem_map.mp hid
  obtain ⟨hforeign, hkept⟩ := List.mem_filter.mp hmem
  -- Groups are looked up by their ids, so that there is one of each id.
  have hstored : ∀ {e : Entry} {direct : Bool}, (e, direct) ∈ Ancestry.groups d.view target true →
      d.entry? e.id = some e := by
    intro e direct he
    obtain ⟨affiliation, -, hentry⟩ := entry?_of_mem_groups he
    have hid : e.id = affiliation.id := by simpa using List.find?_some hentry
    rw [hid]
    exact hentry
  have heq : some foreign = some group := by
    rw [← hstored hforeign, ← hstored hgroup]
    exact congrArg d.entry? hsame
  rw [← Option.some.inj heq]
  exact hkept

/-- Above a target that lives in a domain stand this domain and the global grant entry. -/
theorem id_of_mem_knownStops {q : Inquiry} {home : Entry} {stop : Entry × Bool}
    (hlives : q.target.targetType.livesInDomain = true)
    (hhome : d.homeDomain? q.target = some home) (hstop : stop ∈ q.knownStops d) :
    stop.1.id ∈ [q.target.id, home.id, globalGrant.id] := by
  unfold Inquiry.knownStops at hstop
  rw [Inquiry.domains_of_lives hlives, hhome] at hstop
  rcases List.mem_append.mp hstop with hdomain | hlast
  · obtain ⟨domain, hmem, rfl⟩ := List.mem_map.mp hdomain
    by_cases hmade : q.target.syntheticDomain?.isSome = true
    · rw [if_pos hmade] at hmem
      cases hmem
    · rw [if_neg hmade, Option.toList_some, List.mem_singleton] at hmem
      simp [hmem]
  · by_cases hglobal : q.target.targetType = .global
    · rw [if_pos hglobal] at hlast
      cases hlast
    · rw [if_neg hglobal, List.mem_singleton] at hlast
      simp [hlast]

/-- Of the target and of the levels above the groups the same is read without the positive grants of
the isolated groups. -/
theorem fresh_of_spared {target home e : Entry}
    (he : e.id ∈ [target.id, home.id, globalGrant.id]) :
    (Store.fresh c (.ofDirectory (d.withoutPositive c (d.isolatedGroups target home)))
      e).unplaced = (Store.fresh c (.ofDirectory d) e).unplaced := by
  have hspared : e.id ∉ d.isolatedGroups target home := by
    intro hmem
    exact of_decide_eq_true (List.mem_filter.mp hmem).2 he
  rw [Store.fresh_withoutPositive, if_neg hspared]

/-- Every group of the target has the same share after the positive grants of the foreign ones are
gone: while the domain of the target is closed these do not count. -/
theorem sameShare_of_mem {q : Inquiry} (hview : q.view = d.view) {home holder group : Entry}
    {direct : Bool} (hdiffer : holder.id ≠ home.id) (hclosed : d.isClosedTo c home holder = true)
    (hgroup : (group, direct) ∈ Ancestry.groups d.view q.target true) :
    q.SameShare (fun e => (Store.fresh c (.ofDirectory d) e).unplaced)
      (fun e => (Store.fresh c (.ofDirectory
        (d.withoutPositive c (d.isolatedGroups q.target home))) e).unplaced)
      (some holder) (some home) group := by
  unfold Inquiry.SameShare
  simp only [Store.fresh_withoutPositive]
  by_cases hid : group.id ∈ d.isolatedGroups q.target home
  · have hforeign := isForeign_of_mem hgroup (List.mem_filter.mp hid).1
    refine .inr ⟨if_pos hid, ?_⟩
    rw [Inquiry.groupCounts_unplaced]
    exact groupCounts_of_foreign hview hdiffer hclosed hforeign
  · exact .inl (if_neg hid)

end Directory

namespace Sample

/-- The list "team" as it was when it lived in the second domain. -/
def teamBefore : Entry := owned 6 "team@home.com" (.distributionList false) away

/-- A list under the id of the global grant entry. -/
def everybody : Entry :=
  { owned 10 "all@home.com" (.distributionList false) home with id := Directory.globalGrant.id }

/-- A list that is the domain of one of its members. -/
def hub : Entry := owned 11 "hub@home.com" (.distributionList false) home

/-- An account in this domain. -/
def tenant : Entry :=
  owned 12 "bob@away.com" (.account { isGlobal := false, isDelegated := false }) hub

/-- Directories in which a foreign group has its grants in common with the target, with the global
grant entry and with the domain of the target, each with the question of the admin and with the
domain of the target. -/
def collisions : List (Directory × Request × Entry) :=
  [(storing team memberLine (domains.enroll team.id team.id),
      .ofRight (.entry admin) teamBefore addMember, away),
    (storing everybody adminLine
      ((directoryOf [home, away, admin, everybody, alice]).enroll everybody.id alice.id),
      listing alice, away),
    (storing hub adminLine
      ((directoryOf [home, admin, hub, tenant]).enroll hub.id tenant.id), listing tenant, hub)]

end Sample

namespace AccessControl

variable {k : AccessControl}

/-- For an admin of one domain and a target in another that is closed to the first, the positive
grants of the foreign groups have no effect, while their denials keep theirs. -/
theorem uncached_withoutPositive {d : Directory} {r : Request} {e holder home : Entry}
    (hprincipal : r.principal = .entry e) (hholder : d.homeDomain? e = some holder)
    (hadmin : r.right.isUserRight = false) (hcross : r.right.isCrossDomainAdmin = false)
    (hlives : r.target.targetType.livesInDomain = true)
    (hhome : d.homeDomain? r.target = some home) (hdiffer : holder.id ≠ home.id)
    (hclosed : d.isClosedTo k.catalog home holder = true) :
    (k.uncached (d.withoutPositive k.catalog (d.isolatedGroups r.target home)) r).map
        Evaluation.unplaced =
      (k.uncached d r).map Evaluation.unplaced := by
  have hasked : (r.inquiry d.view).isAdminRight = true := congrArg not hadmin
  have hexpands := (r.inquiry d.view).expandsGroups_of_admin hasked
  apply uncached_congr d.sameEntries_withoutPositive.view
  rw [Inquiry.answer_eq_follow]
  rcases Inquiry.course_of_admin (q := r.inquiry d.view) rfl hasked hcross hprincipal hholder with
    hcourse | hcourse
  · rw [hcourse]
    rfl
  · rw [hcourse, Inquiry.eval_follow_search, Inquiry.eval_follow_search]
    congr 1
    have hhomeRead := (r.inquiry d.view).targetHome_of_lives rfl hlives
    apply Inquiry.search_of_sameShare rfl (hhomeRead.trans (congrArg Except.ok hhome))
    · intro domain hdomain
      obtain rfl : home = domain := Option.some.inj hdomain
      exact (Directory.fresh_of_spared (by simp)).symm
    · exact (Directory.fresh_of_spared (by simp [Request.inquiry])).symm
    · intro stop hstop
      have hmem := Directory.id_of_mem_knownStops (q := r.inquiry d.view) hlives hhome hstop
      exact (Directory.fresh_of_spared hmem).symm
    · rintro ⟨group, direct⟩ hgroup
      rw [hexpands] at hgroup
      exact Directory.sameShare_of_mem (q := r.inquiry d.view) rfl hdiffer hclosed hgroup

/-- The list in Alice's domain lets the admin see her account, with or without the other list. -/
theorem uncached_withoutPositive_sample :
    (Sample.office.uncached (Sample.listed.withoutPositive Sample.office.catalog
        (Sample.listed.isolatedGroups Sample.alice Sample.away)) (Sample.listing Sample.alice)).map
      Evaluation.unplaced = .ok (.bare .allow) := by
  have hallow : Sample.office.uncached Sample.listed (Sample.listing Sample.alice) =
      .ok (.bare .allow) := by
    decide +kernel
  have hholder : Sample.listed.homeDomain? Sample.admin = some Sample.home := by
    decide +kernel
  have hhome : Sample.listed.homeDomain? Sample.alice = some Sample.away := by
    decide +kernel
  have hclosed : Sample.listed.isClosedTo Sample.office.catalog Sample.away Sample.home = true := by
    decide +kernel
  have h := uncached_withoutPositive (r := Sample.listing Sample.alice) rfl hholder rfl
    (by decide) rfl hhome (by decide) hclosed
  rw [hallow] at h
  exact h

/-- Where a foreign group has its grants in common with the target, with the domain of the target or
with the global grant entry, its positive grants do have an effect. -/
theorem positive_shared :
    Catalog.ofDefinitions Sample.officeDefinitions = .ok Sample.office.catalog ∧
      ∀ x ∈ Sample.collisions,
        x.1.homeDomain? Sample.admin = some Sample.home ∧
        x.1.homeDomain? x.2.1.target = some x.2.2 ∧ Sample.home.id ≠ x.2.2.id ∧
        x.1.isClosedTo Sample.office.catalog x.2.2 Sample.home = true ∧
        Sample.office.uncached x.1 x.2.1 = .ok (.bare .allow) ∧
        Sample.office.uncached (x.1.withoutPositive Sample.office.catalog
          (x.1.foreignGroups x.2.1.target x.2.2)) x.2.1 = .ok (.bare .undecided) := by
  refine ⟨Sample.office_catalog_built, ?_⟩
  decide +kernel

end AccessControl

end DirectoryRights
