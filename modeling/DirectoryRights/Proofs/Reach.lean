import DirectoryRights.Proofs.Belonging
import DirectoryRights.Proofs.Levels
import DirectoryRights.Proofs.Writes

/-!
# Which grants a check may read

A check asks only for the grants of its target, of the groups of the target, of the domains above
it and of the global grant entry, and where groups count only across an open border, for those of
the domain in which the target lives. Where the directory resolves the ids of groups to groups and
those of domains to domains, an account among these entries is the target itself. So a change of the
grants on an account concerns the checks on this account alone.
-/

set_option autoImplicit false

namespace DirectoryRights

namespace Inquiry

variable (q : Inquiry)

/-- An entry whose grants a check may read. -/
inductive Reaches : Entry → Prop where
  /-- The target. -/
  | target : Reaches q.target
  /-- A group of the target. -/
  | group {e : Entry} {direct : Bool}
    (h : (e, direct) ∈ Ancestry.groups q.view q.target q.expandsGroups) : Reaches e
  /-- A domain above the target. -/
  | domain {e : Entry} (h : e ∈ Ancestry.domains q.view q.target) : Reaches e
  /-- The end of the chain. -/
  | last {e : Entry} (h : .ok e ∈ Ancestry.last q.view q.target) : Reaches e
  /-- The domain in which the target lives. -/
  | home {e : Entry} (h : q.targetHome = .ok (some e)) : Reaches e

variable {q}

/-- At a border nothing is asked for but the grants of the domain. -/
theorem mem_asked_check {source : Entry → GrantAnswer} {holder target : Entry} {delegate : Bool}
    {e : Entry} (h : e ∈ (DomainBorder.check holder target delegate).asked source) :
    e = target := by
  unfold DomainBorder.check at h
  by_cases hdomain : target.isDomain = true
  · rw [if_pos hdomain, Reader.mem_asked_bind, Reader.asked_grantsOf, List.mem_singleton] at h
    rcases h with h | ⟨set, -, h⟩
    · exact h
    · cases set <;> cases h
  · rw [if_neg hdomain] at h
    cases h

/-- To find out whether a group counts, nothing is asked for but the grants of the domain of the
target. -/
theorem mem_asked_groupCounts {source : Entry → GrantAnswer} {holder home : Option Entry}
    {group e : Entry} (h : e ∈ (q.groupCounts holder home group).asked source) :
    home = some e := by
  rcases q.groupCounts_cases holder home group with ⟨counts, hcounts⟩ |
    ⟨domain, target, -, rfl, -, hopen⟩
  · rw [hcounts] at h
    cases h
  · rw [hopen, DomainBorder.isOpen, Reading.asked_bind, List.mem_append] at h
    rcases h with h | h
    · exact congrArg some (mem_asked_check h).symm
    · cases hcheck : Reading.eval source (DomainBorder.check domain target false).run <;>
        rw [hcheck] at h <;> cases h

/-- To gather grants, nothing is asked for but those of the groups and of the domain of the
target. -/
theorem mem_asked_gather {source : Entry → GrantAnswer} {holder home : Option Entry}
    {groups : List (Entry × Bool)} {e : Entry}
    (h : e ∈ (q.gather holder home groups).asked source) :
    (∃ direct, (e, direct) ∈ groups) ∨ home = some e := by
  induction groups with
  | nil => cases h
  | cons group rest ih =>
    obtain ⟨group, direct⟩ := group
    rw [gather, Reader.mem_asked_bind, Reader.asked_grantsOf, List.mem_singleton] at h
    have hrest : e ∈ (q.gather holder home rest).asked source →
        (∃ direct', (e, direct') ∈ (group, direct) :: rest) ∨ home = some e := by
      intro hmem
      rcases ih hmem with ⟨direct', h⟩ | h
      · exact .inl ⟨direct', List.mem_cons_of_mem _ h⟩
      · exact .inr h
    rcases h with rfl | ⟨set, -, h⟩
    · exact .inl ⟨direct, List.mem_cons_self⟩
    · cases set with
      | none => exact hrest h
      | some set =>
        simp only [Reader.mem_asked_bind, Reader.asked_liftM] at h
        rcases h with h | ⟨positive, -, h | ⟨pool, -, h⟩⟩
        · exact .inr (mem_asked_groupCounts h)
        · exact hrest h
        · cases h

/-- A level asks for nothing itself; what is asked for comes after it. -/
theorem mem_asked_level {source : Entry → GrantAnswer} {below seen : Bool} {grants : List Grant}
    {next : Bool → Reader Finding} {e : Entry}
    (h : e ∈ (q.level below grants seen next).asked source) :
    ∃ seen, e ∈ (next seen).asked source := by
  unfold level at h
  simp only at h
  split at h
  · cases h
  · cases h
  · exact ⟨_, h⟩

/-- Above the groups nothing is asked for but the grants of the stops. -/
theorem mem_asked_climb {source : Entry → GrantAnswer} {stops : List (Except Error (Entry × Bool))}
    {pool : List Grant} {seen : Bool} {e : Entry}
    (h : e ∈ (q.climb pool seen stops).asked source) : ∃ below, .ok (e, below) ∈ stops := by
  induction stops generalizing pool seen with
  | nil => cases h
  | cons stop rest ih =>
    cases stop with
    | error cause => cases h
    | ok stop =>
      obtain ⟨entry, below⟩ := stop
      have hrest : ∀ pool seen, e ∈ (q.climb pool seen rest).asked source →
          ∃ below', .ok (e, below') ∈ Except.ok (entry, below) :: rest := by
        intro pool seen hmem
        obtain ⟨below', hbelow⟩ := ih hmem
        exact ⟨below', List.mem_cons_of_mem _ hbelow⟩
      unfold climb at h
      obtain ⟨seen, h⟩ := mem_asked_level h
      rw [Reader.mem_asked_bind, Reader.asked_grantsOf, List.mem_singleton] at h
      rcases h with rfl | ⟨set, -, h⟩
      · exact ⟨below, List.mem_cons_self⟩
      · cases set with
        | none => exact hrest [] seen h
        | some set =>
          obtain ⟨seen, h⟩ := mem_asked_level h
          exact hrest [] seen h

/-- A check may read the grants of every stop. -/
theorem reaches_of_stop {e : Entry} {below : Bool} (h : .ok (e, below) ∈ q.stops) :
    q.Reaches e := by
  unfold stops at h
  rcases List.mem_append.mp h with h | h
  · obtain ⟨domain, hdomain, heq⟩ := List.mem_map.mp h
    cases heq
    exact .domain hdomain
  · obtain ⟨last, hlast, heq⟩ := List.mem_map.mp h
    cases last with
    | error cause => cases heq
    | ok entry =>
      cases heq
      exact .last hlast

/-- A search asks for the grants of the target, of its groups and of the entries above them, and
those of the domain of the target only where there are groups. -/
theorem mem_asked_search {source : Entry → GrantAnswer} {holder : Option Entry} {e : Entry}
    (h : e ∈ (q.search holder).asked source) :
    e = q.target ∨
      (∃ direct, (e, direct) ∈ Ancestry.groups q.view q.target q.expandsGroups) ∨
      (q.targetHome = .ok (some e) ∧ Ancestry.groups q.view q.target q.expandsGroups ≠ []) ∨
      ∃ below, .ok (e, below) ∈ q.stops := by
  unfold search at h
  simp only at h
  have honward : ∀ seen, e ∈ ((do
      let targetHome ← ExceptT.mk (pure q.targetHome)
      let pool ← q.gather holder targetHome (Ancestry.groups q.view q.target q.expandsGroups)
      q.climb (Grant.ranked pool) seen q.stops : Reader Finding)).asked source →
      (∃ direct, (e, direct) ∈ Ancestry.groups q.view q.target q.expandsGroups) ∨
        (q.targetHome = .ok (some e) ∧ Ancestry.groups q.view q.target q.expandsGroups ≠ []) ∨
        ∃ below, .ok (e, below) ∈ q.stops := by
    intro seen hmem
    simp only [Reader.mem_asked_bind, Reader.asked_mk_pure, Reader.eval_mk_pure] at hmem
    rcases hmem with hmem | ⟨home, hhome, hmem | ⟨pool, -, hmem⟩⟩
    · cases hmem
    · rcases mem_asked_gather hmem with hgroup | rfl
      · exact .inl hgroup
      · refine .inr (.inl ⟨hhome, fun hnone => ?_⟩)
        rw [hnone] at hmem
        cases hmem
    · exact .inr (.inr (mem_asked_climb hmem))
  rw [Reader.mem_asked_bind, Reader.asked_grantsOf, List.mem_singleton] at h
  rcases h with rfl | ⟨set, -, h⟩
  · exact .inl rfl
  · cases set with
    | none => exact .inr (honward _ h)
    | some set =>
      obtain ⟨seen, h⟩ := mem_asked_level h
      exact .inr (honward seen h)

/-- A check that asks for the grants of another entry than the target searches. -/
theorem eq_target_or_mem_asked_search {source : Entry → GrantAnswer} {e : Entry}
    (h : e ∈ q.answer.asked source) :
    e = q.target ∨ ∃ holder, e ∈ (q.search holder).asked source := by
  rw [answer_eq_follow] at h
  cases hcourse : q.course with
  | idle =>
    rw [hcourse] at h
    cases h
  | failed cause =>
    rw [hcourse] at h
    cases h
  | border domain =>
    rw [hcourse, follow, Reader.mem_asked_bind] at h
    rcases h with h | ⟨decision, -, h⟩
    · exact .inl (mem_asked_check h)
    · cases h
  | search holder =>
    rw [hcourse, follow, Reader.mem_asked_bind] at h
    rcases h with h | ⟨finding, -, h⟩
    · exact .inr ⟨holder, h⟩
    · cases h

/-- A check asks for no grants but those of the entries that it reaches. -/
theorem reaches_of_mem_asked {source : Entry → GrantAnswer} {e : Entry}
    (h : e ∈ q.answer.asked source) : q.Reaches e := by
  rcases eq_target_or_mem_asked_search h with rfl | ⟨holder, h⟩
  · exact .target
  · rcases mem_asked_search h with rfl | ⟨direct, hgroup⟩ | ⟨hhome, -⟩ | ⟨below, hstop⟩
    · exact .target
    · exact .group hgroup
    · exact .home hhome
    · exact reaches_of_stop hstop

end Inquiry

namespace Directory

variable (d : Directory)

/-- Somebody was put into the group of an id. -/
def HasMember (id : EntryId) : Prop :=
  ∃ member, id ∈ d.parentsOf member

/-- Every group that an entry belongs to has a member. -/
theorem hasMember_of_membership {e : Entry} {adminOnly : Bool} {group : Affiliation}
    (h : group ∈ (d.membership e adminOnly).groups) : d.HasMember group.id := by
  have hbelongs : d.Belongs e.id group.id := (mem_allGroups.mp (List.mem_filter.mp h).1).1
  cases hbelongs with
  | put hput => exact ⟨e.id, hput⟩
  | through _ _ houter => exact ⟨_, houter⟩

/-- The entries in use, those of the directory among them, are told apart by their ids, and ids and
names lead to entries of the right kinds. -/
structure Coherent (known : Entry → Prop) : Prop where
  /-- The entries of the directory are in use. -/
  entries : ∀ e ∈ d.entries, known e
  /-- The global grant entry is in use. -/
  globalGrant : known Directory.globalGrant
  /-- No two entries in use have the same id. -/
  unique : ∀ e f, known e → known f → e.id = f.id → e = f
  /-- The id of a group with members leads to a group or to nothing. -/
  groups : ∀ id e, d.HasMember id → d.entry? id = some e → e.isGroup = true
  /-- The id of a domain in an entry leads to a domain or to nothing. -/
  domainIds : ∀ e id domain, known e → e.domainId = some id → d.entry? id = some domain →
    domain.isDomain = true
  /-- The name of a domain leads to a domain or to nothing. -/
  domainNames : ∀ name domain, d.domainNamed? name = some domain → domain.isDomain = true

variable {d}

/-- What is found by an id is an entry of the directory. -/
theorem mem_entries_of_found {id : EntryId} {e : Entry} (h : d.entry? id = some e) :
    e ∈ d.entries :=
  List.mem_of_find?_eq_some h

/-- Coherence does not depend on attributes. -/
theorem SameEntries.coherent {e : Directory} (h : SameEntries d e) {known : Entry → Prop}
    (hd : d.Coherent known) : e.Coherent known := by
  rw [h]
  exact ⟨hd.entries, hd.globalGrant, hd.unique, hd.groups, hd.domainIds, hd.domainNames⟩

/-- A group is no account. -/
theorem not_isAccount_of_isGroup {e : Entry} (h : e.isGroup = true) : e.isAccount = false := by
  unfold Entry.isGroup Entry.targetType at h
  unfold Entry.isAccount
  cases hkind : e.kind <;> rw [hkind] at h <;> first | rfl | cases h

/-- A domain is no account. -/
theorem not_isAccount_of_isDomain {e : Entry} (h : e.isDomain = true) : e.isAccount = false := by
  unfold Entry.isDomain Entry.targetType at h
  unfold Entry.isAccount
  cases hkind : e.kind <;> rw [hkind] at h <;> first | rfl | cases h

/-- The groups of a target are those it belongs to that are in the directory. -/
theorem entry?_of_mem_groups {target e : Entry} {expands direct : Bool}
    (h : (e, direct) ∈ Ancestry.groups d.view target expands) :
    ∃ group ∈ (d.membership target false).groups, d.entry? group.id = some e := by
  unfold Ancestry.groups at h
  simp only [List.mem_ite_nil_left] at h
  obtain ⟨group, hgroup, hsome⟩ := List.mem_filterMap.mp h.2
  refine ⟨group, hgroup, ?_⟩
  cases hentry : d.entry? group.id with
  | none => simp [view, hentry] at hsome
  | some found =>
    simp only [view, hentry, Option.some.injEq, Prod.mk.injEq] at hsome
    rw [hsome.1]

/-- An entry that is not made up has no made-up domain. -/
theorem syntheticDomain?_of_real {e : Entry} (h : e.isPseudo = false) :
    e.syntheticDomain? = none := by
  unfold Entry.syntheticDomain?
  unfold Entry.isPseudo at h
  cases hpseudo : e.pseudo with
  | none => rfl
  | some pseudo =>
    rw [hpseudo] at h
    cases h

/-- The domain of an entry that is not made up is what the id of its domain leads to. -/
theorem homeDomain?_of_real (d : Directory) {e : Entry} (h : e.syntheticDomain? = none) :
    d.homeDomain? e = e.domainId.bind d.entry? := by
  unfold homeDomain?
  rw [h]

/-- The domains above a target are found by its domain id or by a name. -/
theorem domainId_or_domainNamed?_of_mem_domains {target e : Entry}
    (h : e ∈ Ancestry.domains d.view target) :
    target.domainId.bind d.entry? = some e ∨ ∃ name, d.domainNamed? name = some e := by
  unfold Ancestry.domains at h
  by_cases hlives : target.targetType.livesInDomain = true
  · rw [if_pos hlives] at h
    unfold Ancestry.home at h
    refine .inl ?_
    cases hmade : target.syntheticDomain? with
    | some domain =>
      rw [hmade] at h
      cases h
    | none =>
      have hasked : d.view.homeDomain target = .ok (target.domainId.bind d.entry?) :=
        congrArg Except.ok (d.homeDomain?_of_real hmade)
      rw [hmade, Option.isSome_none, if_neg Bool.false_ne_true, hasked] at h
      cases hfound : target.domainId.bind d.entry? with
      | none =>
        rw [hfound] at h
        cases h
      | some domain =>
        rw [hfound] at h
        rw [List.mem_singleton.mp h]
  · rw [if_neg hlives] at h
    by_cases hdomain : target.isDomain = true
    · rw [if_pos hdomain] at h
      obtain ⟨name, -, hsome⟩ := List.mem_filterMap.mp h
      refine .inr ⟨name, ?_⟩
      cases hnamed : d.domainNamed? name with
      | none => simp [view, hnamed] at hsome
      | some domain =>
        simp only [view, hnamed, Option.some.injEq] at hsome
        rw [hsome]
    · rw [if_neg hdomain] at h
      cases h

/-- The domain that a check asks for of a target that is not made up is found by the domain id. -/
theorem domainId_of_targetHome {q : Inquiry} (hview : q.view = d.view)
    (hmade : q.target.syntheticDomain? = none) {e : Entry} (h : q.targetHome = .ok (some e)) :
    q.target.domainId.bind d.entry? = some e := by
  unfold Inquiry.targetHome at h
  rw [hmade, hview] at h
  by_cases hlives : (!q.target.targetType.livesInDomain) = true
  · rw [if_pos hlives] at h
    cases h
  · rw [if_neg hlives] at h
    rw [← d.homeDomain?_of_real hmade]
    exact Except.ok.inj h

/-- An account that a check may read, on a target that is not made up, is the target. -/
theorem Coherent.eq_target_of_reaches {known : Entry → Prop} (hd : d.Coherent known) {q : Inquiry}
    (hview : q.view = d.view) (htarget : known q.target) (hreal : q.target.isPseudo = false)
    {e account : Entry} (h : q.Reaches e) (hknown : known account)
    (haccount : account.isAccount = true) (hid : e.id = account.id) : e = q.target := by
  -- An entry that is no account would have to be the account of the same id.
  have hdiffers : known e → e.isAccount = false → e = q.target := by
    intro he hkind
    rw [hd.unique e account he hknown hid, haccount] at hkind
    cases hkind
  have hhome : q.target.domainId.bind d.entry? = some e → e = q.target := by
    intro hsome
    obtain ⟨id, hdomainId, hentry⟩ := Option.bind_eq_some_iff.mp hsome
    exact hdiffers (hd.entries e (mem_entries_of_found hentry))
      (not_isAccount_of_isDomain (hd.domainIds _ _ _ htarget hdomainId hentry))
  cases h with
  | target => rfl
  | group hgroup =>
    rw [hview] at hgroup
    obtain ⟨group, hmem, hentry⟩ := entry?_of_mem_groups hgroup
    exact hdiffers (hd.entries e (mem_entries_of_found hentry))
      (not_isAccount_of_isGroup (hd.groups _ _ (d.hasMember_of_membership hmem) hentry))
  | domain hmem =>
    rw [hview] at hmem
    rcases domainId_or_domainNamed?_of_mem_domains hmem with hsome | ⟨name, hsome⟩
    · exact hhome hsome
    · obtain ⟨id, -, hentry⟩ := Option.bind_eq_some_iff.mp hsome
      exact hdiffers (hd.entries e (mem_entries_of_found hentry))
        (not_isAccount_of_isDomain (hd.domainNames name e hsome))
  | last hlast =>
    rw [hview] at hlast
    unfold Ancestry.last at hlast
    rw [List.mem_ite_nil_left, List.mem_singleton] at hlast
    obtain rfl : e = Directory.globalGrant := Except.ok.inj hlast.2
    exact hdiffers hd.globalGrant rfl
  | home hsome =>
    exact hhome (domainId_of_targetHome hview (syntheticDomain?_of_real hreal) hsome)

end Directory

end DirectoryRights
