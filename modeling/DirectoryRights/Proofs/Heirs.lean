import DirectoryRights.Proofs.Repetition

/-!
# The table of kinds and the chain of ancestors

That a target inherits grants is told in two ways: a table lists which kinds inherit from which, and
a walk through the directory gives the ancestors of one target. Where ids and names lead to entries
of the right kinds, the kind of every ancestor is one from which the target inherits by the table,
with one exception: distribution lists are led through the dynamic groups they are members of, while
by the table they inherit nothing from dynamic groups.
-/

set_option autoImplicit false

namespace DirectoryRights

namespace Sample

/-- A dynamic group. -/
def desk : Entry := owned 11 "desk@home.com" (.dynamicGroup false) home

/-- A list is a member of a dynamic group. -/
def listInGroup : List Arrival :=
  [.entry home, .entry team, .entry desk, .membership desk.id team.id]

end Sample

namespace TargetType

/-- Grants on an entry reach the entry itself. -/
theorem reaches_self (t : TargetType) : t.reaches t = true := by
  cases t <;> rfl

/-- Grants on the global entry reach every kind of entry. -/
theorem global_reaches (t : TargetType) : global.reaches t = true := by
  cases t <;> rfl

/-- Grants on a domain reach domains and what lives in one. -/
theorem domain_reaches {t : TargetType} (h : t = domain ∨ t.livesInDomain = true) :
    domain.reaches t = true := by
  cases t <;> simp [livesInDomain] at h <;> rfl

/-- Grants on a group reach the kinds that are led through groups, but those on a dynamic group do
not reach distribution lists. -/
theorem group_reaches_iff {source t : TargetType} (hsource : source.hasMembers = true)
    (ht : t = account ∨ t = calResource ∨ t = distributionList) :
    source.reaches t = true ↔ ¬ (t = distributionList ∧ source = dynamicGroup) := by
  rcases ht with rfl | rfl | rfl <;> cases source <;> simp [hasMembers] at hsource <;> decide

end TargetType

namespace Directory

variable {d : Directory} {target : Entry} {expandGroups : Bool}

/-- Where the ids of groups lead to groups, the groups of a chain are groups. -/
theorem WellKinded.of_mem_groups (h : d.WellKinded target) {e : Entry} {direct : Bool}
    (he : (e, direct) ∈ Ancestry.groups d.view target expandGroups) :
    WalksGroups target expandGroups ∧ e.isGroup = true := by
  have hid : e.id ∈ (Ancestry.groups d.view target expandGroups).map (·.1.id) :=
    List.mem_map_of_mem he
  obtain ⟨hwalks, steps, hpath⟩ := mem_map_id_groups.mp hid
  obtain ⟨group, -, hentry⟩ := entry?_of_mem_groups he
  rw [← id_of_found hentry] at hentry
  exact ⟨hwalks, h.groups e.id e hpath.hasMember hentry⟩

/-- Only domains and what lives in one have domains above them. -/
theorem kind_of_mem_domains {e : Entry} (he : e ∈ Ancestry.domains d.view target) :
    target.targetType = .domain ∨ target.targetType.livesInDomain = true := by
  unfold Ancestry.domains at he
  split at he
  · exact .inr ‹_›
  · split at he
    · exact .inl (of_decide_eq_true ‹target.isDomain = true›)
    · cases he

/-- The kind of an ancestor is one from which the target inherits, unless a list is led through a
dynamic group. -/
theorem WellKinded.reaches_iff (h : d.WellKinded target) {a : Ancestor}
    (ha : a ∈ .target target :: d.above target expandGroups) :
    a.entry.targetType.reaches target.targetType = true ↔
      ¬ (target.targetType = .distributionList ∧ a.entry.targetType = .dynamicGroup) := by
  rcases List.mem_cons.mp ha with rfl | habove
  · -- A list is no dynamic group.
    have hkinds : ¬ (target.targetType = .distributionList ∧
        target.targetType = .dynamicGroup) := by
      rintro ⟨hlist, hdynamic⟩
      rw [hlist] at hdynamic
      cases hdynamic
    exact iff_of_true (TargetType.reaches_self _) hkinds
  · unfold above at habove
    rcases List.mem_append.mp habove with hbefore | hlast
    · rcases List.mem_append.mp hbefore with hgroup | hdomain
      · obtain ⟨⟨e, direct⟩, he, rfl⟩ := List.mem_map.mp hgroup
        obtain ⟨hwalks, hmembers⟩ := h.of_mem_groups he
        exact TargetType.group_reaches_iff hmembers hwalks.2.2
      · obtain ⟨e, he, rfl⟩ := List.mem_map.mp hdomain
        have hkind : e.targetType = .domain := of_decide_eq_true (h.of_mem_domains he).2
        unfold Ancestor.entry
        rw [hkind]
        exact iff_of_true (TargetType.domain_reaches (kind_of_mem_domains he))
          fun hne => nomatch hne.2
    · rw [List.mem_ite_nil_left, List.mem_singleton] at hlast
      rw [hlast.2]
      exact iff_of_true (TargetType.global_reaches _) fun hne => nomatch hne.2

/-- Where ids and names lead to entries of the right kinds, no step of a chain fails, and grants on
each of the ancestors reach the target by the table of kinds, except for dynamic groups above a
distribution list: the chain leads through them, and by the table their grants do not reach it. -/
theorem chain_reaches_iff (h : d.WellKinded target) (expandGroups : Bool) :
    ∃ items : List Ancestor, Ancestry.chain d.view target expandGroups = items.map .ok ∧
      ∀ a ∈ items, a.entry.targetType.reaches target.targetType = true ↔
        ¬ (target.targetType = .distributionList ∧ a.entry.targetType = .dynamicGroup) :=
  ⟨_, d.chain_view target expandGroups, fun _ ha => h.reaches_iff ha⟩

/-- The list "team" is a member of a dynamic group, the one ancestor whose grants should not reach
it. -/
theorem chain_reaches_iff_sample :
    (filled Sample.listInGroup).WellKinded Sample.team ∧
      ∃ items : List Ancestor,
        Ancestry.chain (filled Sample.listInGroup).view Sample.team true = items.map .ok ∧
          ∀ a ∈ items, a.entry.targetType.reaches Sample.team.targetType = true ↔
            ¬ (Sample.team.targetType = .distributionList ∧
              a.entry.targetType = .dynamicGroup) := by
  have hkinds : (filled Sample.listInGroup).WellKinded Sample.team :=
    wellKinded_filled (by decide +kernel) (by decide +kernel) (by decide +kernel)
  exact ⟨hkinds, chain_reaches_iff hkinds true⟩

/-- The chain of a list that is a member of a dynamic group leads through the group, and grants on
the group do not reach lists. -/
theorem listInGroup_unreached :
    (filled Sample.listInGroup).WellKinded Sample.team ∧
      (Ancestry.chain (filled Sample.listInGroup).view Sample.team true).map
          (Except.map fun a => (a.entry, a.entry.targetType.reaches Sample.team.targetType)) =
        [.ok (Sample.team, true), .ok (Sample.desk, false), .ok (Sample.home, true),
          .ok (globalGrant, true)] := by
  refine ⟨wellKinded_filled ?_ ?_ ?_, ?_⟩
  · decide +kernel
  · decide +kernel
  · decide +kernel
  · decide +kernel

end Directory

end DirectoryRights
