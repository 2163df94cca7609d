import DirectoryRights.Proofs.Arrivals
import DirectoryRights.Proofs.Walk

/-!
# What a chain of ancestors holds twice

The chain of ancestors is put together from the target, its groups, the domains above it and the
global grant entry, and no part is compared with another. Within a part nothing comes twice. The
search for groups meets each group once, whatever the memberships are, and the names above a domain
lead to domains that differ in their names. So an entry comes twice only as two things, say as a
group and as a domain, and the ids of a chain are pairwise different exactly where the parts have
none in common. They have none in common where the ids of groups lead to groups, those of domains to
domains, and the target is none of its own groups.
-/

set_option autoImplicit false

namespace DirectoryRights

namespace Sample

/-- Alice is in a list that is in another one, which is in the first in turn. -/
def circle : List Arrival :=
  [.entry home, .entry away, .entry team, .entry staff, .entry alice,
    .membership team.id alice.id, .membership staff.id team.id, .membership team.id staff.id]

/-- Alice's account, with a list as its domain. -/
def lodger : Entry := { alice with domainId := some staff.id }

end Sample

/-- The group of a step, if it is one for a group. -/
def Ancestor.group? : Ancestor → Option Entry
  | group e _ => some e
  | _ => none

/-- The domain of a step, if it is one for a domain. -/
def Ancestor.domain? : Ancestor → Option Entry
  | domain e => some e
  | _ => none

namespace Directory

variable (d : Directory)

/-- What comes after the target in its chain of ancestors, in which no step fails. -/
def above (target : Entry) (expandGroups : Bool) : List Ancestor :=
  (Ancestry.groups d.view target expandGroups).map (fun (e, direct) => .group e direct)
    ++ (Ancestry.domains d.view target).map .domain
    ++ if target.targetType = .global then [] else [.global globalGrant]

/-- In a directory at hand the chain of ancestors is the target and what comes after it, and no step
fails. -/
theorem chain_view (target : Entry) (expandGroups : Bool) :
    Ancestry.chain d.view target expandGroups =
      (.target target :: d.above target expandGroups).map .ok := by
  unfold Ancestry.chain Ancestry.last above
  split <;> simp [view, Except.map, Function.comp_def]

variable {target : Entry} {expandGroups : Bool}

/-- Groups are walked through for accounts, calendar resources and distribution lists that are not
made up, if they are asked for. -/
def WalksGroups (target : Entry) (expandGroups : Bool) : Prop :=
  expandGroups = true ∧ target.isPseudo = false ∧ (target.targetType = .account ∨
    target.targetType = .calResource ∨ target.targetType = .distributionList)

instance : Decidable (WalksGroups target expandGroups) :=
  inferInstanceAs (Decidable (_ ∧ _ ∧ _))

/-- The id is that of a group that is walked through for a target. -/
def LeadsThrough (target : Entry) (expandGroups : Bool) (id : EntryId) : Prop :=
  WalksGroups target expandGroups ∧ ∃ steps, d.Path target.id steps id

/-- The domains above a target and the global grant entry are none of the entries before them, but
perhaps the target. -/
structure Apart (target : Entry) (expandGroups : Bool) : Prop where
  /-- No domain above the target is one of its groups. -/
  domains : ∀ e ∈ Ancestry.domains d.view target, ¬ d.LeadsThrough target expandGroups e.id
  /-- The global grant entry at the end is no group of the target and no domain above it. -/
  last : target.targetType ≠ .global → ¬ d.LeadsThrough target expandGroups globalGrant.id ∧
    ∀ e ∈ Ancestry.domains d.view target, e.id ≠ globalGrant.id

/-- The target is no domain above it and not the global grant entry at the end. -/
structure Outside (target : Entry) : Prop where
  /-- No domain above the target is the target. -/
  domains : ∀ e ∈ Ancestry.domains d.view target, e.id ≠ target.id
  /-- The global grant entry at the end is not the target. -/
  last : target.targetType ≠ .global → globalGrant.id ≠ target.id

/-- Ids and names lead to entries of the right kinds. -/
structure WellKinded (target : Entry) : Prop where
  /-- The id of a group with members leads to a group or to nothing. -/
  groups : ∀ id e, d.HasMember id → d.entry? id = some e → e.isGroup = true
  /-- The id of the domain of the target leads to a domain or to nothing. -/
  domainId : ∀ id e, target.domainId = some id → d.entry? id = some e → e.isDomain = true
  /-- The name of a domain leads to a domain or to nothing. -/
  domainNames : ∀ name e, d.domainNamed? name = some e → e.isDomain = true

variable {d}

/-- Where every id comes in once, it is enough that members come into groups and that the target
has the id of a domain. -/
theorem wellKinded_filled {arrivals : List Arrival} (h : (Arrival.ids arrivals).Nodup)
    (hgroups : ∀ id ∈ Arrival.groups arrivals, ∀ e ∈ entry? (filled arrivals) id,
      e.isGroup = true)
    (hdomain : ∀ id ∈ target.domainId, ∀ e ∈ entry? (filled arrivals) id, e.isDomain = true) :
    (filled arrivals).WellKinded target where
  groups id e hmember hentry := hgroups id (mem_groups_of_hasMember hmember) e hentry
  domainId id e hid hentry := hdomain id hid e hentry
  domainNames _ _ hnamed := ((indexed_filled h).of_domainNamed? hnamed).2.1

/-! ## Groups -/

/-- Somebody was put into a group to which a path leads. -/
theorem Path.hasMember {member group : EntryId} {steps : Nat} (h : d.Path member steps group) :
    d.HasMember group := by
  cases h with
  | put h => exact ⟨member, h⟩
  | through _ h => exact ⟨_, h⟩

/-- The groups of a chain are those of which the target is a member. -/
theorem map_id_groups (d : Directory) (target : Entry) (expandGroups : Bool) :
    (Ancestry.groups d.view target expandGroups).map (·.1.id) =
      if WalksGroups target expandGroups then (d.allGroups target.id).map (·.id) else [] := by
  have hids : (if WalksGroups target expandGroups then (d.membership target false).groups
      else []).map (·.id) = (Ancestry.groups d.view target expandGroups).map (·.1.id) := by
    rw [← List.forall₂_eq_eq_eq, List.forall₂_map_left_iff, List.forall₂_map_right_iff]
    exact (Ancestry.forall₂_groups d target expandGroups).imp
      fun _ _ h => (id_of_found h.1).symm
  rw [← hids, membership_all]
  split <;> rfl

/-- The groups of a target in its chain are those to which a path leads, if groups are walked through
for it. -/
theorem mem_map_id_groups {id : EntryId} :
    id ∈ (Ancestry.groups d.view target expandGroups).map (·.1.id) ↔
      d.LeadsThrough target expandGroups id := by
  unfold LeadsThrough
  rw [map_id_groups, List.mem_ite_nil_right, ← contains_membership, Membership.contains,
    membership_all]
  simp

/-- No group is walked through twice. -/
theorem nodup_groups (d : Directory) (target : Entry) (expandGroups : Bool) :
    ((Ancestry.groups d.view target expandGroups).map (·.1.id)).Nodup := by
  -- No two levels of the search meet, and none holds an id twice.
  have hlevels := (frontier_start d target.id).pairwise_levels (d.parents.size + 1)
  rw [map_id_groups]
  split
  · rw [map_id_allGroups]
    exact (hlevels.imp And.left).filter _
  · exact List.nodup_nil

/-! ## Domains -/

/-- The domains above a domain are found by their names, and another entry that is not made up in a
made-up domain has the domain of its id. -/
theorem domains_eq (d : Directory) (target : Entry) :
    Ancestry.domains d.view target =
      if target.isDomain then (Ancestry.parentNames target.name).filterMap d.domainNamed?
      else if target.targetType.livesInDomain && target.syntheticDomain?.isNone then
        (target.domainId.bind d.entry?).toList
      else [] := by
  by_cases hdomain : target.isDomain = true
  · have hkind : target.targetType = .domain := by simpa [Entry.isDomain] using hdomain
    have habove : Ancestry.domains d.view target = Ancestry.domainsAbove d.view target := by
      unfold Ancestry.domains
      rw [hkind, if_neg (by decide), if_pos hdomain]
    rw [habove, Ancestry.domainsAbove_eq, Ancestry.tailsOfLabels_eq, if_pos hdomain]
    exact List.filterMap_congr fun name _ => Ancestry.found?_ok _
  · rw [if_neg hdomain]
    by_cases hlives : target.targetType.livesInDomain = true
    · rw [Inquiry.domains_of_lives hlives, hlives]
      unfold homeDomain?
      cases target.syntheticDomain? <;> simp
    · unfold Ancestry.domains
      rw [if_neg hlives, if_neg hdomain, if_neg (by simp [hlives])]

/-- Domains of different names are different. -/
theorem Indexed.id_ne (h : d.Indexed) {name other : String} {e f : Entry}
    (he : d.domainNamed? name = some e) (hf : d.domainNamed? other = some f)
    (hne : Text.lower name ≠ Text.lower other) : e.id ≠ f.id := by
  intro hid
  obtain ⟨he, -, hname⟩ := h.of_domainNamed? he
  obtain ⟨hf, -, hother⟩ := h.of_domainNamed? hf
  rw [hid, hf] at he
  cases he
  exact hne (hname.symm.trans hother)

/-- Where the index is true no domain is above a target twice. -/
theorem Indexed.nodup_domains (h : d.Indexed) (target : Entry) :
    ((Ancestry.domains d.view target).map (·.id)).Nodup := by
  rw [domains_eq]
  split
  · rw [List.Nodup, List.pairwise_map, List.pairwise_filterMap]
    refine (Ancestry.pairwise_lower_parentNames target.name).imp ?_
    intro near far hne e he f hf
    exact h.id_ne he hf hne
  · split
    · cases target.domainId.bind d.entry? <;> simp
    · exact List.nodup_nil

/-- Where ids and names lead to entries of the right kinds, the domains above a target are domains
of the directory. -/
theorem WellKinded.of_mem_domains (h : d.WellKinded target) {e : Entry}
    (he : e ∈ Ancestry.domains d.view target) : d.entry? e.id = some e ∧ e.isDomain = true := by
  rw [domains_eq] at he
  split at he
  · obtain ⟨name, -, hnamed⟩ := List.mem_filterMap.mp he
    obtain ⟨id, -, hentry⟩ := Option.bind_eq_some_iff.mp hnamed
    rw [id_of_found hentry]
    exact ⟨hentry, h.domainNames name e hnamed⟩
  · rw [List.mem_ite_nil_right, Option.mem_toList] at he
    obtain ⟨id, hid, hentry⟩ := Option.bind_eq_some_iff.mp he.2
    rw [id_of_found hentry]
    exact ⟨hentry, h.domainId id e hid hentry⟩

/-- A domain is not among the domains above it. -/
theorem Indexed.ne_of_mem_domains (h : d.Indexed) (htarget : target.isDomain = true) {e : Entry}
    (he : e ∈ Ancestry.domains d.view target) : e ≠ target := by
  rw [domains_eq, if_pos htarget] at he
  obtain ⟨name, hname, hnamed⟩ := List.mem_filterMap.mp he
  rintro rfl
  obtain ⟨-, -, hlower⟩ := h.of_domainNamed? hnamed
  exact Ancestry.lower_ne_of_mem_parentNames hname hlower.symm

/-! ## The whole chain -/

/-- The groups after the target in the chain are its groups. -/
theorem filterMap_group?_above (d : Directory) (target : Entry) (expandGroups : Bool) :
    (d.above target expandGroups).filterMap Ancestor.group? =
      (Ancestry.groups d.view target expandGroups).map (·.1) := by
  unfold above
  split <;> simp [Ancestor.group?, List.filterMap_map, Function.comp_def]

/-- The domains after the target in the chain are those whose grants it inherits. -/
theorem filterMap_domain?_above (d : Directory) (target : Entry) (expandGroups : Bool) :
    (d.above target expandGroups).filterMap Ancestor.domain? =
      Ancestry.domains d.view target := by
  unfold above
  split <;> simp [Ancestor.domain?, List.filterMap_map, Function.comp_def]

/-- The ids after that of the target: those of its groups, those of its domains, and that of the
global grant entry. -/
theorem map_id_above (d : Directory) (target : Entry) (expandGroups : Bool) :
    (d.above target expandGroups).map (·.entry.id) =
      (Ancestry.groups d.view target expandGroups).map (·.1.id) ++
        ((Ancestry.domains d.view target).map (·.id) ++
          if target.targetType = .global then [] else [globalGrant.id]) := by
  unfold above
  split <;> simp [Ancestor.entry, Function.comp_def]

/-- The ids after the target are pairwise different exactly where the parts of the chain are
apart. -/
theorem Indexed.nodup_above_iff (h : d.Indexed) :
    ((d.above target expandGroups).map (·.entry.id)).Nodup ↔ d.Apart target expandGroups := by
  -- Groups, domains and the last entry are each without repetition, so only what they share counts.
  rw [map_id_above, List.nodup_append, List.nodup_append]
  constructor
  · rintro ⟨-, ⟨-, -, hlast⟩, hdisjoint⟩
    refine ⟨fun e he hleads => ?_, fun hglobal => ⟨fun hleads => ?_, fun e he => ?_⟩⟩
    · exact hdisjoint _ (mem_map_id_groups.mpr hleads) _
        (List.mem_append_left _ (List.mem_map_of_mem he)) rfl
    · rw [if_neg hglobal] at hdisjoint
      exact hdisjoint _ (mem_map_id_groups.mpr hleads) _
        (List.mem_append_right _ List.mem_cons_self) rfl
    · rw [if_neg hglobal] at hlast
      exact hlast _ (List.mem_map_of_mem he) _ List.mem_cons_self
  · intro hapart
    refine ⟨nodup_groups d target expandGroups, ⟨h.nodup_domains target, ?_, ?_⟩, ?_⟩
    · split <;> simp
    · rintro id hid last hlast
      obtain ⟨e, he, rfl⟩ := List.mem_map.mp hid
      rw [List.mem_ite_nil_left, List.mem_singleton] at hlast
      rw [hlast.2]
      exact (hapart.last hlast.1).2 e he
    · rintro id hid later hlater rfl
      rcases List.mem_append.mp hlater with hdomain | hlast
      · obtain ⟨e, he, rfl⟩ := List.mem_map.mp hdomain
        exact hapart.domains e he (mem_map_id_groups.mp hid)
      · rw [List.mem_ite_nil_left, List.mem_singleton] at hlast
        exact (hapart.last hlast.1).1 (hlast.2 ▸ mem_map_id_groups.mp hid)

/-- A target that is none of its own groups comes once exactly if it is not among the domains and
not the global grant entry. -/
theorem notMem_above_iff (hown : ¬ d.LeadsThrough target expandGroups target.id) :
    target.id ∉ (d.above target expandGroups).map (·.entry.id) ↔ d.Outside target := by
  rw [map_id_above, List.mem_append, List.mem_append, mem_map_id_groups, List.mem_map,
    List.mem_ite_nil_left, List.mem_singleton]
  constructor
  · intro hmem
    refine ⟨fun e he hid => ?_, fun hglobal hid => ?_⟩
    · exact hmem (.inr (.inl ⟨e, he, hid⟩))
    · exact hmem (.inr (.inr ⟨hglobal, hid.symm⟩))
  · rintro houtside (hleads | ⟨e, he, hid⟩ | ⟨hglobal, hid⟩)
    · exact hown hleads
    · exact houtside.domains e he hid
    · exact houtside.last hglobal hid.symm

/-- Where ids and names lead to entries of the right kinds, the parts of a chain are apart. -/
theorem WellKinded.apart (h : d.WellKinded target)
    (hglobal : d.entry? globalGrant.id = some globalGrant) : d.Apart target expandGroups where
  domains := by
    -- A domain among the groups would be an entry of two kinds.
    rintro e he ⟨-, steps, hpath⟩
    obtain ⟨hentry, hdomain⟩ := h.of_mem_domains he
    have hgroup := h.groups e.id e hpath.hasMember hentry
    rw [Entry.isDomain, decide_eq_true_iff] at hdomain
    rw [Entry.isGroup, hdomain] at hgroup
    cases hgroup
  last := by
    intro hkind
    refine ⟨?_, fun e he hid => ?_⟩
    · rintro ⟨-, steps, hpath⟩
      cases h.groups globalGrant.id globalGrant hpath.hasMember hglobal
    · obtain ⟨hentry, hdomain⟩ := h.of_mem_domains he
      rw [hid, hglobal] at hentry
      cases hentry
      cases hdomain

/-- Where besides the id of the target leads to the target, it stands apart from the others. -/
theorem WellKinded.outside (h : d.WellKinded target) (hindexed : d.Indexed)
    (hglobal : d.entry? globalGrant.id = some globalGrant)
    (htarget : ∀ e, d.entry? target.id = some e → e = target) : d.Outside target where
  domains := by
    intro e he hid
    obtain ⟨hentry, hdomain⟩ := h.of_mem_domains he
    obtain rfl : e = target := htarget e (hid ▸ hentry)
    exact hindexed.ne_of_mem_domains hdomain he rfl
  last := by
    intro hkind hid
    obtain rfl : globalGrant = target := htarget _ (hid ▸ hglobal)
    exact hkind rfl

/-- In a directory to which every id comes once, whoever is put into which group, no chain of
ancestors holds a group twice or a domain twice, and the ids after the target are pairwise different
exactly where the groups, the domains and the global grant entry are apart. A target that is none of
its own groups is not among them exactly where it is no domain above it and not the global grant
entry. All this is so where ids and names lead to entries of the right kinds. -/
theorem nodup_ancestors {arrivals : List Arrival} (h : (Arrival.ids arrivals).Nodup)
    (target : Entry) (expandGroups : Bool) :
    ∃ above : List Ancestor,
      Ancestry.chain (filled arrivals).view target expandGroups =
        (.target target :: above).map .ok ∧
      ((above.filterMap Ancestor.group?).map (·.id)).Nodup ∧
      ((above.filterMap Ancestor.domain?).map (·.id)).Nodup ∧
      ((above.map (·.entry.id)).Nodup ↔ (filled arrivals).Apart target expandGroups) ∧
      (¬ (filled arrivals).LeadsThrough target expandGroups target.id →
        (target.id ∉ above.map (·.entry.id) ↔ (filled arrivals).Outside target)) ∧
      ((filled arrivals).WellKinded target →
        entry? (filled arrivals) globalGrant.id = some globalGrant →
        (∀ e, entry? (filled arrivals) target.id = some e → e = target) →
        (above.map (·.entry.id)).Nodup ∧
          (¬ (filled arrivals).LeadsThrough target expandGroups target.id →
            target.id ∉ above.map (·.entry.id))) := by
  have hindexed := indexed_filled h
  refine ⟨(filled arrivals).above target expandGroups, chain_view _ _ _, ?_, ?_,
    hindexed.nodup_above_iff, notMem_above_iff, fun hkinds hglobal htarget => ⟨?_, fun hown => ?_⟩⟩
  · rw [filterMap_group?_above, List.map_map]
    exact nodup_groups _ _ _
  · rw [filterMap_domain?_above]
    exact hindexed.nodup_domains target
  · exact hindexed.nodup_above_iff.mpr (hkinds.apart hglobal)
  · exact (notMem_above_iff hown).mpr (hkinds.outside hindexed hglobal htarget)

/-- The lists that are members of each other come once each in the chain of Alice. -/
theorem nodup_ancestors_sample :
    (Arrival.ids Sample.circle).Nodup ∧
      ∃ above : List Ancestor,
        Ancestry.chain (filled Sample.circle).view Sample.alice true =
            (.target Sample.alice :: above).map .ok ∧
          (above.map (·.entry.id)).Nodup ∧ Sample.alice.id ∉ above.map (·.entry.id) := by
  have hids : (Arrival.ids Sample.circle).Nodup := by decide +kernel
  have hkinds : (filled Sample.circle).WellKinded Sample.alice :=
    wellKinded_filled hids (by decide +kernel) (by decide +kernel)
  have hentry : entry? (filled Sample.circle) Sample.alice.id = some Sample.alice := by
    decide +kernel
  have hglobal : entry? (filled Sample.circle) globalGrant.id = some globalGrant := by
    decide +kernel
  have hown : ¬ (filled Sample.circle).LeadsThrough Sample.alice true Sample.alice.id := by
    rintro ⟨-, hpath⟩
    have hlisted := contains_membership.mpr hpath
    revert hlisted
    decide +kernel
  obtain ⟨above, hchain, -, -, -, -, hright⟩ := nodup_ancestors hids Sample.alice true
  obtain ⟨hnodup, honce⟩ := hright hkinds hglobal fun e he => by
    rw [hentry] at he
    exact (Option.some.inj he).symm
  exact ⟨hids, above, hchain, hnodup, honce hown⟩

/-- The entries of the chain of a target have the given ids, with an id among them twice, though
every id comes in once. -/
def Repeats (arrivals : List Arrival) (target : Entry) (ids : List EntryId) : Prop :=
  (Arrival.ids arrivals).Nodup ∧
    (Ancestry.chain (filled arrivals).view target true).map (Except.map (·.entry.id)) =
      ids.map .ok ∧ ¬ ids.Nodup

instance (arrivals : List Arrival) (target : Entry) (ids : List EntryId) :
    Decidable (Repeats arrivals target ids) :=
  inferInstanceAs (Decidable (_ ∧ _ ∧ _))

/-- A chain holds a list twice that is a member of itself, a group twice that is the domain of a
member, and the global grant entry twice if this entry has a member. -/
theorem ancestors_repeat :
    Repeats [.entry Sample.home, .entry Sample.team, .membership Sample.team.id Sample.team.id]
        Sample.team [Sample.team.id, Sample.team.id, Sample.home.id, globalGrant.id] ∧
      Repeats [.entry Sample.away, .entry Sample.staff, .entry Sample.lodger,
          .membership Sample.staff.id Sample.lodger.id]
        Sample.lodger
        [Sample.lodger.id, Sample.staff.id, Sample.staff.id, globalGrant.id] ∧
      Repeats [.entry Sample.home, .entry Sample.team, .membership globalGrant.id Sample.team.id]
        Sample.team [Sample.team.id, globalGrant.id, Sample.home.id, globalGrant.id] := by
  decide +kernel

end Directory

end DirectoryRights
