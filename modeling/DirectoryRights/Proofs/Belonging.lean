import DirectoryRights.Directory

/-!
# Who belongs to which group

A member belongs to the groups it was put into, and to the groups that those of them that are in the
directory belong to in turn. The levels of groups above an entry are found in a bounded number of
rounds. The bound is large enough: a round that leads further starts from a group with a row in the
table of parents, and this row was not used before. So the levels together hold every group to which
the entry belongs, and the first level holds those that it was put into.
-/

set_option autoImplicit false

namespace DirectoryRights.Directory

variable (d : Directory)

/-- A member is in a group, or in a group of the directory that belongs to it. -/
inductive Belongs (member : EntryId) : EntryId → Prop where
  /-- The member was put into the group. -/
  | put {group : EntryId} (h : group ∈ d.parentsOf member) : Belongs member group
  /-- The member belongs to a group of the directory that was put into the group. -/
  | through {group outer : EntryId} (h : Belongs member group)
    (hentry : (d.entry? group).isSome = true) (houter : outer ∈ d.parentsOf group) :
    Belongs member outer

/-- The number of rows of the table of parents that are not those of groups met before. -/
def unused (met : List EntryId) : Nat :=
  d.parents.rows.countP fun row => row.1 ∉ met

variable {d}

/-- The next level has the groups into which a known entry of the level was put, unless they were
met before. -/
theorem mem_nextLevel {met level : List EntryId} {outer : EntryId} :
    outer ∈ d.nextLevel met level ↔
      (∃ group ∈ level, (d.entry? group).isSome = true ∧ outer ∈ d.parentsOf group) ∧
        outer ∉ met := by
  unfold nextLevel
  rw [List.mem_filter, List.mem_eraseDups, List.mem_flatMap]
  simp [List.mem_filter, and_assoc]

/-- The levels from one that has groups on are this one and those from the next one on. -/
theorem levels_succ {rounds : Nat} {met level : List EntryId} (h : level ≠ []) :
    d.levels (rounds + 1) met level =
      level :: d.levels rounds (met ++ level) (d.nextLevel (met ++ level) level) := by
  rw [levels, if_neg h]

/-- Above a level without groups there are no levels. -/
theorem levels_nil (rounds : Nat) (met : List EntryId) : d.levels rounds met [] = [] := by
  cases rounds with
  | zero => rfl
  | succ rounds => rw [levels, if_pos rfl]

/-- A group with groups of its own has a row in the table of parents. -/
theorem exists_row_of_mem_parentsOf {group outer : EntryId} (h : outer ∈ d.parentsOf group) :
    ∃ row ∈ d.parents.rows, row.1 = group := by
  unfold parentsOf Table.get? at h
  cases hrow : d.parents.rows.find? (·.1 = group) with
  | none => simp [hrow] at h
  | some row =>
    have hkey : row.1 = group := by simpa using List.find?_some hrow
    exact ⟨row, List.mem_of_find?_eq_some hrow, hkey⟩

/-- A level from which the search goes on uses up a row. -/
theorem unused_lt {met level : List EntryId} (hfresh : ∀ id ∈ level, id ∉ met)
    (hnext : d.nextLevel (met ++ level) level ≠ []) : d.unused (met ++ level) < d.unused met := by
  obtain ⟨outer, houter⟩ := List.exists_mem_of_ne_nil _ hnext
  obtain ⟨⟨group, hgroup, -, hparent⟩, -⟩ := mem_nextLevel.mp houter
  obtain ⟨row, hrow, rfl⟩ := exists_row_of_mem_parentsOf hparent
  have hsplit : d.unused met = d.unused (met ++ level) +
      d.parents.rows.countP fun row => decide (row.1 ∉ met) && decide (row.1 ∈ level) := by
    unfold unused
    induction d.parents.rows with
    | nil => rfl
    | cons first rest ih =>
      rw [List.countP_cons, List.countP_cons, List.countP_cons, ih]
      by_cases hmet : first.1 ∈ met
      · simp [hmet]
      · by_cases hlevel : first.1 ∈ level
        · simp [hmet, hlevel]
          omega
        · simp [hmet, hlevel]
          omega
  have hused : 0 < d.parents.rows.countP fun row =>
      decide (row.1 ∉ met) && decide (row.1 ∈ level) := by
    rw [List.countP_pos_iff]
    refine ⟨row, hrow, ?_⟩
    simp [hgroup, hfresh row.1 hgroup]
  omega

/-- With enough rounds nothing is left out: the groups of a group that was found were met before, or
they are found as well. -/
theorem mem_levels_of_parent {rounds : Nat} {met level : List EntryId}
    (hfresh : ∀ id ∈ level, id ∉ met) (hrounds : d.unused met < rounds) {group outer : EntryId}
    (hgroup : group ∈ (d.levels rounds met level).flatten)
    (hentry : (d.entry? group).isSome = true) (houter : outer ∈ d.parentsOf group) :
    outer ∈ met ∨ outer ∈ (d.levels rounds met level).flatten := by
  induction rounds generalizing met level with
  | zero => omega
  | succ rounds ih =>
    by_cases hempty : level = []
    · rw [hempty, levels_nil] at hgroup
      cases hgroup
    · rw [levels_succ hempty, List.flatten_cons, List.mem_append] at hgroup ⊢
      by_cases hnext : d.nextLevel (met ++ level) level = []
      · -- The search ends here, so that the groups of this level lead nowhere new.
        rw [hnext, levels_nil] at hgroup ⊢
        have hlevel : group ∈ level := by simpa using hgroup
        by_cases hmet : outer ∈ met ++ level
        · simpa using hmet
        · have hmem : outer ∈ d.nextLevel (met ++ level) level :=
            mem_nextLevel.mpr ⟨⟨group, hlevel, hentry, houter⟩, hmet⟩
          rw [hnext] at hmem
          cases hmem
      · have hrest : d.unused (met ++ level) < rounds := by
          have hless := unused_lt hfresh hnext
          omega
        have hfresh' : ∀ id ∈ d.nextLevel (met ++ level) level, id ∉ met ++ level := by
          intro id hid
          exact (mem_nextLevel.mp hid).2
        have hreached : outer ∈ met ++ level ∨ outer ∈ (d.levels rounds (met ++ level)
            (d.nextLevel (met ++ level) level)).flatten := by
          rcases hgroup with hlevel | hlater
          · by_cases hmet : outer ∈ met ++ level
            · exact .inl hmet
            · refine .inr ?_
              obtain ⟨rounds, rfl⟩ : ∃ n, rounds = n + 1 := ⟨rounds - 1, by omega⟩
              rw [levels_succ hnext, List.flatten_cons, List.mem_append]
              exact .inl (mem_nextLevel.mpr ⟨⟨group, hlevel, hentry, houter⟩, hmet⟩)
          · exact ih hfresh' hrest hlater
        rcases hreached with hmet | hlater
        · rcases List.mem_append.mp hmet with hold | hlevel
          · exact .inl hold
          · exact .inr (.inl hlevel)
        · exact .inr (.inr hlater)

/-- What is met above entries to which a member belongs are groups to which it belongs. -/
theorem belongs_of_mem_levels {member : EntryId} {rounds : Nat} {met level : List EntryId}
    (hstart : ∀ id ∈ level, d.Belongs member id) {group : EntryId}
    (h : group ∈ (d.levels rounds met level).flatten) : d.Belongs member group := by
  induction rounds generalizing met level with
  | zero => cases h
  | succ rounds ih =>
    by_cases hempty : level = []
    · rw [hempty, levels_nil] at h
      cases h
    · rw [levels_succ hempty, List.flatten_cons, List.mem_append] at h
      rcases h with hlevel | hlater
      · exact hstart group hlevel
      · refine ih (fun id hid => ?_) hlater
        obtain ⟨⟨inner, hinner, hentry, hparent⟩, -⟩ := mem_nextLevel.mp hid
        exact .through (hstart inner hinner) hentry hparent

/-- No group is found that was met before. -/
theorem not_mem_of_mem_levels {rounds : Nat} {met level : List EntryId}
    (hfresh : ∀ id ∈ level, id ∉ met) {group : EntryId}
    (h : group ∈ (d.levels rounds met level).flatten) : group ∉ met := by
  induction rounds generalizing met level with
  | zero => cases h
  | succ rounds ih =>
    by_cases hempty : level = []
    · rw [hempty, levels_nil] at h
      cases h
    · rw [levels_succ hempty, List.flatten_cons, List.mem_append] at h
      rcases h with hlevel | hlater
      · exact hfresh group hlevel
      · have hmet := ih (fun id hid => (mem_nextLevel.mp hid).2) hlater
        exact fun hold => hmet (List.mem_append_left _ hold)

/-- The levels above an entry hold the groups to which it belongs. -/
theorem mem_levelsAbove {member group : EntryId} :
    group ∈ (d.levelsAbove member).flatten ↔ d.Belongs member group := by
  have hfresh : ∀ id ∈ (d.parentsOf member).eraseDups, id ∉ ([] : List EntryId) := by simp
  unfold levelsAbove
  constructor
  · apply belongs_of_mem_levels
    intro id hid
    rw [List.mem_eraseDups] at hid
    exact .put hid
  · intro h
    induction h with
    | @put group hput =>
      have hne : (d.parentsOf member).eraseDups ≠ [] := by
        apply List.ne_nil_of_mem (a := group)
        rwa [List.mem_eraseDups]
      rw [levels_succ hne, List.flatten_cons, List.mem_append, List.mem_eraseDups]
      exact .inl hput
    | @through group outer _ hentry houter ih =>
      have hrounds : d.unused [] < d.parents.size + 1 :=
        Nat.lt_succ_of_le List.countP_le_length
      simpa using mem_levels_of_parent hfresh hrounds ih hentry houter

/-- The levels above an entry after the groups into which it was put. -/
def laterLevels (d : Directory) (member : EntryId) : List (List EntryId) :=
  let first := (d.parentsOf member).eraseDups
  d.levels d.parents.size first (d.nextLevel first first)

/-- All levels above an entry are the groups into which it was put, followed by the later levels. -/
theorem flatten_levelsAbove (member : EntryId) :
    (d.levelsAbove member).flatten =
      (d.parentsOf member).eraseDups ++ (d.laterLevels member).flatten := by
  unfold levelsAbove laterLevels
  by_cases hempty : (d.parentsOf member).eraseDups = []
  · have hnext : d.nextLevel [] [] = [] := rfl
    simp only [hempty, levels_nil, hnext]
    rfl
  · rw [levels_succ hempty, List.nil_append, List.flatten_cons]

/-- The groups of an entry in the order of their levels, marked as direct in the first one alone. -/
theorem allGroups_eq (member : EntryId) :
    d.allGroups member =
      (d.parentsOf member).eraseDups.filterMap (d.affiliation? true) ++
        (d.laterLevels member).flatten.filterMap (d.affiliation? false) := by
  unfold allGroups levelsAbove laterLevels
  by_cases hempty : (d.parentsOf member).eraseDups = []
  · have hnext : d.nextLevel [] [] = [] := rfl
    simp only [hempty, levels_nil, hnext]
    rfl
  · rw [levels_succ hempty, List.nil_append]

/-- What is found later was not met in the first level. -/
theorem notMem_parentsOf_of_mem_laterLevels {member group : EntryId}
    (h : group ∈ (d.laterLevels member).flatten) : group ∉ d.parentsOf member := by
  have hmet := not_mem_of_mem_levels (fun id hid => (mem_nextLevel.mp hid).2) h
  rwa [List.mem_eraseDups] at hmet

/-- The group that is reported for an id has this id. -/
theorem affiliation?_id {direct : Bool} {id : EntryId} {group : Affiliation}
    (h : d.affiliation? direct id = some group) : group.id = id := by
  obtain ⟨entry, -, rfl⟩ := Option.map_eq_some_iff.mp h
  rfl

/-- The groups of an entry are those of the directory to which it belongs, and the direct ones among
them are those that it was put into. -/
theorem mem_allGroups {member : EntryId} {group : Affiliation} :
    group ∈ d.allGroups member ↔ d.Belongs member group.id ∧
      d.affiliation? (decide (group.id ∈ d.parentsOf member)) group.id = some group := by
  rw [allGroups_eq, ← mem_levelsAbove, flatten_levelsAbove, List.mem_append, List.mem_append,
    List.mem_filterMap, List.mem_filterMap, List.mem_eraseDups]
  constructor
  · rintro (⟨id, hmem, hsome⟩ | ⟨id, hmem, hsome⟩)
    · obtain rfl := affiliation?_id hsome
      rw [List.mem_eraseDups] at hmem
      simp [hmem, hsome]
    · obtain rfl := affiliation?_id hsome
      simp [hmem, notMem_parentsOf_of_mem_laterLevels hmem, hsome]
  · rintro ⟨hput | hfar, hsome⟩
    · refine .inl ⟨group.id, List.mem_eraseDups.mpr hput, ?_⟩
      rwa [decide_eq_true hput] at hsome
    · refine .inr ⟨group.id, hfar, ?_⟩
      rwa [decide_eq_false (notMem_parentsOf_of_mem_laterLevels hfar)] at hsome

end DirectoryRights.Directory
