import DirectoryRights.Proofs.Queueing
import DirectoryRights.Proofs.Sample

/-!
# Nearer groups come first

A path leads from an entry to a group it was put into, and from a group on to a group that this one
was put into; every group on it is in the directory. An entry belongs to the groups to which a path
leads, and a group is as far away as the shortest path to it is long. The levels of the search are
the groups at the same distance: when some rounds are over, all groups at the end of a path of as
many steps or fewer were met, and the level that comes next holds the ends of the longer paths by
one step that were not.
-/

set_option autoImplicit false

namespace DirectoryRights.Directory

variable (d : Directory)

/-- Some number of steps lead from a member through groups of the directory to one of its groups. -/
inductive Path (member : EntryId) : Nat → EntryId → Prop where
  /-- The member was put into the group. -/
  | put {group : EntryId} (h : group ∈ d.parentsOf member)
    (hentry : (d.entry? group).isSome = true) : Path member 1 group
  /-- The path leads to a group that was put into the group. -/
  | through {steps : Nat} {inner group : EntryId} (hpath : Path member steps inner)
    (h : group ∈ d.parentsOf inner) (hentry : (d.entry? group).isSome = true) :
    Path member (steps + 1) group

/-- Whatever path leads to the second group, one that is not longer leads to the first. -/
def NotFarther (member near far : EntryId) : Prop :=
  ∀ steps, d.Path member steps far → ∃ fewer ≤ steps, d.Path member fewer near

variable {d}

/-- A path leads to a group that is an entry of the directory. -/
theorem Path.entry {member group : EntryId} {steps : Nat} (h : d.Path member steps group) :
    (d.entry? group).isSome = true := by
  cases h with
  | put _ hentry => exact hentry
  | through _ _ hentry => exact hentry

/-- A member belongs to the groups to which a path leads. -/
theorem Path.belongs {member group : EntryId} {steps : Nat} (h : d.Path member steps group) :
    d.Belongs member group := by
  induction h with
  | put h => exact .put h
  | through hpath h _ ih => exact .through ih hpath.entry h

/-- Some path leads to each group to which a member belongs. -/
theorem exists_path_of_belongs {member group : EntryId} (h : d.Belongs member group)
    (hentry : (d.entry? group).isSome = true) : ∃ steps, d.Path member steps group := by
  induction h with
  | put h => exact ⟨1, .put h hentry⟩
  | through _ hinner h ih =>
    obtain ⟨steps, hpath⟩ := ih hinner
    exact ⟨steps + 1, .through hpath h hentry⟩

/-- The search has taken some rounds, and the level comes next. -/
structure Frontier (d : Directory) (member : EntryId) (rounds : Nat)
    (met level : List EntryId) : Prop where
  /-- The groups of the level are one step further away than there were rounds. -/
  reached : ∀ id ∈ level, (d.entry? id).isSome = true → d.Path member (rounds + 1) id
  /-- Groups that are nearer were met. -/
  near : ∀ {steps id}, d.Path member steps id → steps ≤ rounds → id ∈ met
  /-- Groups that are one step further away were met, or they are in the level. -/
  next : ∀ {id}, d.Path member (rounds + 1) id → id ∈ met ++ level
  /-- The groups of groups that were met are not further away either. -/
  closed : ∀ inner ∈ met, (d.entry? inner).isSome = true → ∀ id ∈ d.parentsOf inner,
    id ∈ met ++ level
  /-- No group of the level was met before. -/
  fresh : ∀ id ∈ level, id ∉ met
  /-- No group is in the level twice. -/
  nodup : level.Nodup

/-- A list without its repetitions has no element twice. -/
theorem nodup_eraseDups {α : Type} [DecidableEq α] (l : List α) : l.eraseDups.Nodup := by
  cases l with
  | nil => exact List.nodup_nil
  | cons a l =>
    rw [List.eraseDups_cons]
    refine List.nodup_cons.mpr ⟨?_, nodup_eraseDups (l.filter (!· == a))⟩
    rw [List.mem_eraseDups, List.mem_filter]
    simp
termination_by l.length
decreasing_by exact Nat.lt_succ_of_le (List.length_filter_le _ _)

/-- Before the first round the level holds the groups into which the member was put. -/
theorem frontier_start (d : Directory) (member : EntryId) :
    d.Frontier member 0 [] (d.parentsOf member).eraseDups where
  reached id hid hentry := .put (List.mem_eraseDups.mp hid) hentry
  near hpath hsteps := by
    cases hpath <;> omega
  next hpath := by
    cases hpath with
    | put h => exact List.mem_eraseDups.mpr h
    | through hpath => cases hpath
  closed _ h := nomatch h
  fresh _ _ h := nomatch h
  nodup := nodup_eraseDups _

/-- The groups of what was met or comes next were met, are in the level or come in the next one. -/
theorem Frontier.closed_step {member : EntryId} {rounds : Nat} {met level : List EntryId}
    (h : d.Frontier member rounds met level) {inner id : EntryId} (hinner : inner ∈ met ++ level)
    (hentry : (d.entry? inner).isSome = true) (hput : id ∈ d.parentsOf inner) :
    id ∈ met ++ level ++ d.nextLevel (met ++ level) level := by
  rw [List.mem_append]
  rcases List.mem_append.mp hinner with hmet | hlevel
  · exact .inl (h.closed inner hmet hentry id hput)
  · by_cases hold : id ∈ met ++ level
    · exact .inl hold
    · exact .inr (mem_nextLevel.mpr ⟨⟨inner, hlevel, hentry, hput⟩, hold⟩)

/-- A round makes the groups of the level known, and the next level is one step further away. -/
theorem Frontier.step {member : EntryId} {rounds : Nat} {met level : List EntryId}
    (h : d.Frontier member rounds met level) :
    d.Frontier member (rounds + 1) (met ++ level) (d.nextLevel (met ++ level) level) where
  reached id hid hentry := by
    obtain ⟨⟨inner, hinner, hpresent, hput⟩, -⟩ := mem_nextLevel.mp hid
    exact .through (h.reached inner hinner hpresent) hput hentry
  near hpath hsteps := by
    rcases Nat.lt_or_eq_of_le hsteps with hless | rfl
    · exact List.mem_append_left _ (h.near hpath (Nat.le_of_lt_succ hless))
    · exact h.next hpath
  next hpath := by
    cases hpath with
    | through hinner hput _ => exact h.closed_step (h.next hinner) hinner.entry hput
  closed _ hinner hentry _ hput := h.closed_step hinner hentry hput
  fresh _ hid := (mem_nextLevel.mp hid).2
  nodup := (nodup_eraseDups _).filter _

/-- Of two groups that are found in this order the second is another one, and it is not nearer. -/
theorem Frontier.pairwise_levels {member : EntryId} {rounds : Nat} {met level : List EntryId}
    (h : d.Frontier member rounds met level) (fuel : Nat) :
    (d.levels fuel met level).flatten.Pairwise fun near far =>
      near ≠ far ∧ ((d.entry? near).isSome = true → d.NotFarther member near far) := by
  induction fuel generalizing rounds met level with
  | zero => exact .nil
  | succ fuel ih =>
    by_cases hempty : level = []
    · rw [hempty, levels_nil]
      exact .nil
    · -- What was not met is no nearer than the level.
      have hfar : ∀ near ∈ level, ∀ far, far ∉ met →
          (d.entry? near).isSome = true → d.NotFarther member near far := by
        intro near hnear far hunmet hentry steps hpath
        refine ⟨rounds + 1, ?_, h.reached near hnear hentry⟩
        by_contra hless
        exact hunmet (h.near hpath (by omega))
      rw [levels_succ hempty, List.flatten_cons, List.pairwise_append]
      refine ⟨?_, ih h.step, ?_⟩
      · refine h.nodup.imp_of_mem fun hnear hmem hne => ⟨hne, ?_⟩
        exact hfar _ hnear _ (h.fresh _ hmem)
      · intro near hnear far hmem
        have hlater := not_mem_of_mem_levels h.step.fresh hmem
        rw [List.mem_append, not_or] at hlater
        refine ⟨fun hsame => hlater.2 (hsame ▸ hnear), hfar near hnear far hlater.1⟩

/-- The groups of an entry are the ids of its levels that are entries, in this order. -/
theorem map_id_allGroups (member : EntryId) :
    (d.allGroups member).map (·.id) =
      (d.levelsAbove member).flatten.filter fun id => (d.entry? id).isSome := by
  have hids : ∀ (direct : Bool) (ids : List EntryId),
      (ids.filterMap (d.affiliation? direct)).map (·.id) =
        ids.filter fun id => (d.entry? id).isSome := by
    intro direct ids
    induction ids with
    | nil => rfl
    | cons id ids ih =>
      cases hentry : d.entry? id with
      | none => simp [affiliation?, hentry, ih]
      | some entry => simp [affiliation?, hentry, ih]
  rw [allGroups_eq, flatten_levelsAbove, List.map_append, List.filter_append, hids, hids]

/-- Enrolling puts one member into one group. -/
theorem mem_parentsOf_enroll {group newcomer outer member : EntryId} :
    outer ∈ (d.enroll group newcomer).parentsOf member ↔
      outer ∈ d.parentsOf member ∨ outer = group ∧ member = newcomer := by
  unfold enroll
  by_cases hknown : group ∈ d.parentsOf newcomer
  · rw [if_pos (by simpa using hknown)]
    refine ⟨.inl, ?_⟩
    rintro (hput | ⟨rfl, rfl⟩)
    · exact hput
    · exact hknown
  · rw [if_neg (by simpa using hknown)]
    unfold parentsOf at hknown ⊢
    rw [Table.get?_insert]
    by_cases hmember : member = newcomer
    · subst hmember
      simp
    · simp [hmember]

/-- A group is listed as what it is in the directory. -/
theorem exists_entry_of_mem_allGroups {member : EntryId} {group : Affiliation}
    (h : group ∈ d.allGroups member) :
    ∃ entry, d.entry? group.id = some entry ∧ group.adminGroup = entry.isAdminGroup ∧
      group.direct = decide (group.id ∈ d.parentsOf member) := by
  obtain ⟨entry, hentry, hgroup⟩ := Option.map_eq_some_iff.mp (mem_allGroups.mp h).2
  refine ⟨entry, hentry, ?_, ?_⟩
  · rw [← hgroup]
  · rw [← hgroup]

/-- Where admin groups are not asked for in particular, the membership is all groups of the
entry. -/
theorem membership_all (d : Directory) (e : Entry) :
    (d.membership e false).groups = d.allGroups e.id :=
  List.filter_eq_self.mpr fun _ _ => rfl

/-- An entry is a member exactly of the groups to which a path leads. -/
theorem contains_membership {e : Entry} {id : EntryId} :
    (d.membership e false).contains id = true ↔ ∃ steps, d.Path e.id steps id := by
  have hlisted : (d.membership e false).contains id = true ↔
      id ∈ (d.allGroups e.id).map (·.id) := by
    unfold Membership.contains
    rw [membership_all]
    simp
  rw [hlisted, map_id_allGroups, List.mem_filter, mem_levelsAbove]
  constructor
  · rintro ⟨hbelongs, hentry⟩
    exact exists_path_of_belongs hbelongs hentry
  · rintro ⟨steps, hpath⟩
    exact ⟨hpath.belongs, hpath.entry⟩

/-- The search for groups comes to its end and lists each group once, exactly those to which a path
leads, the nearer ones first. Direct are the groups into which the entry was put by enrolling. The
search for admin groups finds exactly those among all groups, whatever groups stand between. -/
theorem membership_closure (d : Directory) (e : Entry) :
    (∀ adminOnly, ∃ n seen, (Search.advance d adminOnly)^[n] (Search.start d e) =
      { queue := [], seen, found := d.membership e adminOnly }) ∧
    ((d.membership e false).groups.map (·.id)).Nodup ∧
    (∀ id, (d.membership e false).contains id = true ↔ ∃ steps, d.Path e.id steps id) ∧
    (d.membership e false).groups.Pairwise
      (fun near far => d.NotFarther e.id near.id far.id) ∧
    (∀ group ∈ (d.membership e false).groups,
      (group.direct = true ↔ group.id ∈ d.parentsOf e.id)) ∧
    (∀ group newcomer outer member, outer ∈ (d.enroll group newcomer).parentsOf member ↔
      outer ∈ d.parentsOf member ∨ outer = group ∧ member = newcomer) ∧
    (d.membership e true).groups = (d.membership e false).groups.filter
      fun group => (d.entry? group.id).any (·.isAdminGroup) := by
  have hfound := (frontier_start d e.id).pairwise_levels (d.parents.size + 1)
  have hordered : ((d.allGroups e.id).map (·.id)).Pairwise fun near far =>
      near ≠ far ∧ d.NotFarther e.id near far := by
    rw [map_id_allGroups]
    refine (hfound.filter _).imp_of_mem fun hnear _ h => ⟨h.1, h.2 ?_⟩
    exact (List.mem_filter.mp hnear).2
  refine ⟨fun adminOnly => Search.exists_iterate_start d adminOnly e, ?_,
    fun _ => contains_membership, ?_, ?_, fun _ _ _ _ => mem_parentsOf_enroll, ?_⟩
  · rw [membership_all]
    exact hordered.imp And.left
  · rw [membership_all]
    exact (List.pairwise_map.mp hordered).imp And.right
  · rw [membership_all]
    intro group hgroup
    obtain ⟨-, -, -, hdirect⟩ := exists_entry_of_mem_allGroups hgroup
    rw [hdirect, decide_eq_true_iff]
  · rw [membership_all]
    refine List.filter_congr fun group hgroup => ?_
    obtain ⟨entry, hentry, hadmin, -⟩ := exists_entry_of_mem_allGroups hgroup
    rw [hentry, hadmin]
    rfl

/-- A list that was put into itself is one of its own groups. -/
example :
    ((Sample.domains.enroll Sample.team.id Sample.team.id).membership Sample.team false).contains
      Sample.team.id = true := by
  decide +kernel

end DirectoryRights.Directory
