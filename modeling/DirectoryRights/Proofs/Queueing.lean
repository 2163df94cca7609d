import Mathlib.Logic.Function.Iterate
import DirectoryRights.Proofs.Belonging

/-!
# Groups found one by one

The groups of an entry can also be found with a queue. It holds the groups into which the entry was
put, and the groups of every group of the directory that was looked at are added at its end. A group
may stand in the queue more than once, and it is looked at once. So the queue holds what is left of
one level, followed by what was found of the next: the search goes through the levels in their order
and comes to an end, since there are finitely many of them.
-/

set_option autoImplicit false

namespace DirectoryRights.Directory

/-- A search for groups under way. -/
structure Search where
  /-- The groups to be looked at, each with whether the entry itself was put into it. -/
  queue : List (EntryId × Bool)
  /-- The groups that were looked at. -/
  seen : List EntryId
  /-- The groups of the directory among them that are listed. -/
  found : Membership

/-- The ids that were not seen before, each once. -/
def unseen (seen ids : List EntryId) : List EntryId :=
  ids.eraseDups.filter (!seen.contains ·)

/-- The groups of the groups of a level, as often as they are met. -/
def outerOf (d : Directory) (level : List EntryId) : List EntryId :=
  (level.filter fun id => (d.entry? id).isSome).flatMap d.parentsOf

/-- Whether a group is listed. -/
def wanted (adminOnly : Bool) (group : Affiliation) : Bool :=
  !adminOnly || group.adminGroup

namespace Search

variable (d : Directory) (adminOnly : Bool)

/-- The search for the groups of an entry. -/
def start (e : Entry) : Search :=
  { queue := (d.parentsOf e.id).map (·, true), seen := [], found := .empty }

/-- The search after a look at the first group of the queue. -/
def advance (s : Search) : Search :=
  match s.queue with
  | [] => s
  | (id, direct) :: queue =>
    if id ∈ s.seen then { s with queue }
    else
      let seen := s.seen ++ [id]
      match d.entry? id with
      | none => { s with queue, seen }
      | some group =>
        let listed := if !adminOnly || group.isAdminGroup then
            s.found.append { id, adminGroup := group.isAdminGroup,
                             dynamic := group.targetType = .dynamicGroup, direct }
          else s.found
        { queue := queue ++ (d.parentsOf id).map (·, false), seen, found := listed }

end Search

/-- Taking out repetitions and taking out what does not fit may change places. -/
theorem eraseDups_filter {α : Type} [DecidableEq α] (p : α → Bool) (l : List α) :
    (l.filter p).eraseDups = l.eraseDups.filter p := by
  cases l with
  | nil => rfl
  | cons a l =>
    have hrest := eraseDups_filter p (l.filter (!· == a))
    rw [List.eraseDups_cons]
    by_cases ha : p a = true
    · rw [List.filter_cons_of_pos ha, List.filter_cons_of_pos ha, List.eraseDups_cons, ← hrest,
        List.filter_filter, List.filter_filter]
      simp only [Bool.and_comm]
    · rw [List.filter_cons_of_neg ha, List.filter_cons_of_neg ha, ← hrest, List.filter_filter]
      congr 1
      refine List.filter_congr fun b _ => ?_
      by_cases hb : b = a
      · simp [hb, ha]
      · simp [hb]
termination_by l.length
decreasing_by exact Nat.lt_succ_of_le (List.length_filter_le _ _)

/-- An id that was seen is left out. -/
theorem unseen_cons_of_mem {seen : List EntryId} {id : EntryId} (h : id ∈ seen)
    (ids : List EntryId) : unseen seen (id :: ids) = unseen seen ids := by
  unfold unseen
  rw [List.eraseDups_cons, List.filter_cons_of_neg (by simpa using h), eraseDups_filter,
    List.filter_filter]
  refine List.filter_congr fun other _ => ?_
  by_cases hother : other = id
  · simp [hother, h]
  · simp [hother]

/-- An id that is new is kept, and seen from then on. -/
theorem unseen_cons_of_notMem {seen : List EntryId} {id : EntryId} (h : id ∉ seen)
    (ids : List EntryId) : unseen seen (id :: ids) = id :: unseen (seen ++ [id]) ids := by
  unfold unseen
  rw [List.eraseDups_cons, List.filter_cons_of_pos (by simpa using h), eraseDups_filter,
    List.filter_filter]
  congr 1
  refine List.filter_congr fun other _ => ?_
  by_cases hother : other = id <;> simp [hother]

variable {d : Directory} {adminOnly : Bool}

/-- The next level is what is new among the groups of the groups of this one. -/
theorem nextLevel_eq_unseen (met level : List EntryId) :
    d.nextLevel met level = unseen met (d.outerOf level) := rfl

/-- The groups of the groups of two levels are met level by level. -/
theorem outerOf_append (level more : List EntryId) :
    d.outerOf (level ++ more) = d.outerOf level ++ d.outerOf more := by
  unfold outerOf
  rw [List.filter_append, List.flatMap_append]

namespace Search

/-- No group is listed that was not looked at. -/
def Sound (s : Search) : Prop :=
  ∀ group ∈ s.found.groups, group.id ∈ s.seen

/-- What a look at a group adds to what was found. -/
def listed (d : Directory) (adminOnly direct : Bool) (ids : List EntryId) : List Affiliation :=
  (ids.filterMap (d.affiliation? direct)).filter (wanted adminOnly)

/-- What several looks add to what was found is added look by look. -/
theorem listed_append (direct : Bool) (ids more : List EntryId) :
    listed d adminOnly direct (ids ++ more) =
      listed d adminOnly direct ids ++ listed d adminOnly direct more := by
  unfold listed
  rw [List.filterMap_append, List.filter_append]

/-- A group that was not seen is not listed yet, and so it goes to the end. -/
theorem append_eq {s : Search} (hsound : s.Sound) {group : Affiliation}
    (hseen : group.id ∉ s.seen) : s.found.append group = ⟨s.found.groups ++ [group]⟩ := by
  unfold Membership.append Membership.contains
  rw [if_neg]
  intro hmem
  obtain ⟨other, hother, hsame⟩ := List.any_eq_true.mp hmem
  have hid : other.id = group.id := by simpa using hsame
  exact hseen (hid ▸ hsound other hother)

/-- A group that was seen is passed over. -/
theorem advance_of_mem {s : Search} {id : EntryId} {direct : Bool} {rest : List (EntryId × Bool)}
    (hqueue : s.queue = (id, direct) :: rest) (hseen : id ∈ s.seen) :
    advance d adminOnly s = { s with queue := rest } := by
  unfold advance
  rw [hqueue]
  exact if_pos hseen

/-- A group that was not seen is looked at. -/
theorem advance_of_notMem {s : Search} (hsound : s.Sound) {id : EntryId} {direct : Bool}
    {rest : List (EntryId × Bool)} (hqueue : s.queue = (id, direct) :: rest)
    (hseen : id ∉ s.seen) :
    advance d adminOnly s =
      { queue := rest ++ (d.outerOf [id]).map (·, false)
        seen := s.seen ++ [id]
        found := ⟨s.found.groups ++ listed d adminOnly direct [id]⟩ } := by
  unfold advance
  rw [hqueue]
  simp only [if_neg hseen]
  cases hentry : d.entry? id with
  | none => simp [listed, affiliation?, outerOf, hentry]
  | some group =>
    have houter : d.outerOf [id] = d.parentsOf id := by simp [outerOf, hentry]
    rw [houter]
    by_cases hadmin : (!adminOnly || group.isAdminGroup) = true
    · simp only [if_pos hadmin]
      rw [append_eq hsound (by exact hseen)]
      simp [listed, affiliation?, wanted, hentry, hadmin]
    · simp only [if_neg hadmin]
      simp [listed, affiliation?, wanted, hentry, hadmin]

/-- Only groups that are looked at are listed. -/
theorem id_of_mem_listed {direct : Bool} {ids : List EntryId} {group : Affiliation}
    (h : group ∈ listed d adminOnly direct ids) : group.id ∈ ids := by
  obtain ⟨id, hid, hgroup⟩ := List.mem_filterMap.mp (List.mem_filter.mp h).1
  rwa [affiliation?_id hgroup]

/-- Whether everything that is listed was looked at does not change when groups are looked at. -/
theorem Sound.listed (d : Directory) (adminOnly : Bool) {s : Search} (hsound : s.Sound)
    (direct : Bool) (ids : List EntryId) (queue : List (EntryId × Bool)) :
    Sound { queue, seen := s.seen ++ ids,
            found := ⟨s.found.groups ++ listed d adminOnly direct ids⟩ } := by
  intro group hgroup
  rcases List.mem_append.mp hgroup with hold | hnew
  · exact List.mem_append_left _ (hsound group hold)
  · exact List.mem_append_right _ (id_of_mem_listed hnew)

/-- The groups at the front of the queue are looked at one by one, and their groups come to stand
behind all others. -/
theorem iterate_advance (ids : List EntryId) (direct : Bool) (rest : List (EntryId × Bool))
    {s : Search} (hsound : s.Sound) (hqueue : s.queue = ids.map (·, direct) ++ rest) :
    (advance d adminOnly)^[ids.length] s =
      { queue := rest ++ (d.outerOf (unseen s.seen ids)).map (·, false)
        seen := s.seen ++ unseen s.seen ids
        found := ⟨s.found.groups ++ listed d adminOnly direct (unseen s.seen ids)⟩ } := by
  induction ids generalizing s rest with
  | nil =>
    obtain ⟨queue, seen, found⟩ := s
    subst hqueue
    simp [unseen, outerOf, listed]
  | cons id ids ih =>
    rw [List.map_cons, List.cons_append] at hqueue
    rw [List.length_cons, Function.iterate_succ_apply]
    by_cases hseen : id ∈ s.seen
    · rw [advance_of_mem hqueue hseen, unseen_cons_of_mem hseen]
      exact ih rest hsound rfl
    · have hstep := hsound.listed d adminOnly direct [id]
      have hcons : id :: unseen (s.seen ++ [id]) ids = [id] ++ unseen (s.seen ++ [id]) ids := rfl
      rw [advance_of_notMem hsound hqueue hseen, unseen_cons_of_notMem hseen,
        ih _ (hstep _) (List.append_assoc _ _ _), hcons, listed_append, outerOf_append]
      simp only [List.append_assoc, List.map_append]

/-- A search that stands before a level goes through this level and all that come after it, and then
it is at its end. -/
theorem exists_iterate_levels (adminOnly : Bool) {rounds : Nat} {ids : List EntryId} {s : Search}
    (hrounds : unseen s.seen ids ≠ [] → d.unused s.seen < rounds) (hsound : s.Sound)
    (hqueue : s.queue = ids.map (·, false)) :
    ∃ n seen, (advance d adminOnly)^[n] s =
      { queue := [], seen
        found := ⟨s.found.groups ++ listed d adminOnly false
          (d.levels rounds s.seen (unseen s.seen ids)).flatten⟩ } := by
  induction rounds generalizing ids s with
  | zero =>
    have hempty : unseen s.seen ids = [] := by
      by_contra hne
      exact Nat.not_lt_zero _ (hrounds hne)
    refine ⟨ids.length, s.seen, ?_⟩
    rw [iterate_advance ids false [] hsound (by simpa using hqueue), hempty]
    simp [outerOf, levels]
  | succ rounds ih =>
    by_cases hempty : unseen s.seen ids = []
    · refine ⟨ids.length, s.seen, ?_⟩
      rw [iterate_advance ids false [] hsound (by simpa using hqueue), hempty, levels_nil]
      simp [outerOf]
    · -- The level is not the last unless it leads nowhere new, and then no round is needed.
      have hfresh : ∀ id ∈ unseen s.seen ids, id ∉ s.seen := by
        intro id hid
        simpa using (List.mem_filter.mp hid).2
      have hlater : unseen (s.seen ++ unseen s.seen ids) (d.outerOf (unseen s.seen ids)) ≠ [] →
          d.unused (s.seen ++ unseen s.seen ids) < rounds := by
        intro hne
        have hless := unused_lt hfresh hne
        have hbound := hrounds hempty
        omega
      have hstep := hsound.listed d adminOnly false (unseen s.seen ids)
      obtain ⟨n, seen, hrest⟩ := ih hlater (hstep _) rfl
      refine ⟨n + ids.length, seen, ?_⟩
      rw [Function.iterate_add_apply, iterate_advance ids false [] hsound (by simpa using hqueue),
        List.nil_append, hrest, levels_succ hempty, nextLevel_eq_unseen, List.flatten_cons,
        listed_append, List.append_assoc]

/-- The search for the groups of an entry comes to its end, and then it has found them. -/
theorem exists_iterate_start (d : Directory) (adminOnly : Bool) (e : Entry) :
    ∃ n seen, (advance d adminOnly)^[n] (start d e) =
      { queue := [], seen, found := d.membership e adminOnly } := by
  have hsound : (start d e).Sound := fun _ h => nomatch h
  have hfirst : unseen (start d e).seen (d.parentsOf e.id) = (d.parentsOf e.id).eraseDups := by
    simp [unseen, start]
  have hrounds : unseen (d.parentsOf e.id).eraseDups (d.outerOf (d.parentsOf e.id).eraseDups) ≠ [] →
      d.unused (d.parentsOf e.id).eraseDups < d.parents.size := by
    intro hne
    have hless : d.unused ([] ++ (d.parentsOf e.id).eraseDups) < d.unused [] :=
      unused_lt (by simp) hne
    exact Nat.lt_of_lt_of_le hless List.countP_le_length
  obtain ⟨n, seen, hrest⟩ := exists_iterate_levels adminOnly hrounds
    (hsound.listed d adminOnly true (d.parentsOf e.id).eraseDups _) rfl
  refine ⟨n + (d.parentsOf e.id).length, seen, ?_⟩
  rw [Function.iterate_add_apply, iterate_advance (d.parentsOf e.id) true [] hsound
    (List.append_nil _).symm, hfirst]
  refine hrest.trans ?_
  unfold Directory.membership
  rw [allGroups_eq, List.filter_append]
  rfl

end Search

end DirectoryRights.Directory
