import DirectoryRights.Proofs.WellFormed

/-!
# Bundles asked member by member

A bundle is executed on the entries on which one of its members is, and it is granted on those on
which all of its members are, if it has any. It holds a preset that is one of its members or that is
held by a bundle among them. Asked in this way, member by member, these questions have the answers
that the leaves give, for grants under the condition that no bundle is empty, at any depth. So what
is said of the leaves follows the way from a bundle down to what it holds: a right is executed
wherever a right in it is, and a right in a bundle is granted wherever the bundle is.
-/

set_option autoImplicit false

namespace DirectoryRights

namespace RightForm

/-- What holds of single rights, and of a bundle if it holds of its members, holds of any right. -/
theorem induction {P : RightForm → Prop} (single : ∀ s, P (.single s))
    (combo : ∀ label members, (∀ m ∈ members, P m) → P (.combo label members)) : ∀ f, P f
  | .single s => single s
  | .combo label members => combo label members fun m _ => induction single combo m

/-! ## Member by member -/

/-- Whether the right, or a member of the bundle, is executed on entries of a kind. -/
def worksOn (t : TargetType) : RightForm → Bool
  | single s => s.worksOn t
  | combo _ members => members.attach.any fun ⟨m, _⟩ => m.worksOn t

/-- Whether the right, or every member of a bundle that has some, is granted on entries of a
kind. -/
def canBeGrantedOn (t : TargetType) : RightForm → Bool
  | single s => s.canBeGrantedOn t
  | combo _ members => !members.isEmpty && members.attach.all fun ⟨m, _⟩ => m.canBeGrantedOn t

/-- Whether a member of the bundle is the preset of a name or a bundle that holds it. -/
def bundles (name : String) : RightForm → Bool
  | single _ => false
  | combo _ members => members.attach.any fun ⟨m, _⟩ =>
      m.single?.any (·.isPresetNamed name) || m.bundles name

/-- No bundle is empty, at any depth. An empty bundle is granted nowhere, and the leaves of a bundle
around it do not show this. -/
inductive Filled : RightForm → Prop where
  /-- A single right is no bundle. -/
  | single (s : SingleRight) : Filled (.single s)
  /-- The bundle has members, and in these no bundle is empty. -/
  | combo {label : Label} {members : List RightForm} (hsome : members ≠ [])
    (h : ∀ m ∈ members, Filled m) : Filled (.combo label members)

section Members

variable (label : Label) (members : List RightForm)

/-- A bundle works on the kinds of entry on which one of its members does. -/
theorem worksOn_combo (t : TargetType) :
    (combo label members).worksOn t = members.any (·.worksOn t) := by
  rw [worksOn]
  simp

/-- A bundle is granted where all its members are, if it has any. -/
theorem canBeGrantedOn_combo (t : TargetType) :
    (combo label members).canBeGrantedOn t =
      (!members.isEmpty && members.all (·.canBeGrantedOn t)) := by
  rw [canBeGrantedOn]
  simp

/-- A bundle holds the presets that are its members and those that these hold. -/
theorem bundles_combo (name : String) :
    (combo label members).bundles name =
      members.any fun m => m.single?.any (·.isPresetNamed name) || m.bundles name := by
  rw [bundles]
  simp

end Members

section Leaves

variable {label : Label} {members : List RightForm} {P : SingleRight → Prop}

/-- The leaves of a bundle are those of its members. -/
theorem mem_leaves_combo {s : SingleRight} :
    s ∈ (combo label members).leaves ↔ ∃ m ∈ members, s ∈ m.leaves := by
  show s ∈ leavesOf members ↔ _
  rw [leavesOf_eq_flatMap, List.mem_flatMap]

/-- A leaf of a bundle is of a certain sort exactly if a leaf of one of its members is. -/
theorem exists_mem_leaves_combo :
    (∃ s ∈ (combo label members).leaves, P s) ↔ ∃ m ∈ members, ∃ s ∈ m.leaves, P s := by
  constructor
  · rintro ⟨s, hs, hleaf⟩
    obtain ⟨m, hm, hmem⟩ := mem_leaves_combo.mp hs
    exact ⟨m, hm, s, hmem, hleaf⟩
  · rintro ⟨m, hm, s, hmem, hleaf⟩
    exact ⟨s, mem_leaves_combo.mpr ⟨m, hm, hmem⟩, hleaf⟩

/-- All leaves of a bundle are of a certain sort exactly if all leaves of each member are. -/
theorem forall_mem_leaves_combo :
    (∀ s ∈ (combo label members).leaves, P s) ↔ ∀ m ∈ members, ∀ s ∈ m.leaves, P s := by
  constructor
  · intro hall m hm s hmem
    exact hall s (mem_leaves_combo.mpr ⟨m, hm, hmem⟩)
  · intro hall s hs
    obtain ⟨m, hm, hmem⟩ := mem_leaves_combo.mp hs
    exact hall m hm s hmem

end Leaves

variable {f : RightForm}

/-- A right is executed where one of its leaves is. -/
theorem worksOn_iff {t : TargetType} :
    f.worksOn t = true ↔ ∃ s ∈ f.leaves, s.worksOn t = true := by
  induction f using RightForm.induction with
  | single s =>
    rw [worksOn, leaves]
    simp
  | combo label members ih =>
    rw [worksOn_combo, List.any_eq_true, exists_mem_leaves_combo]
    exact exists_congr fun m => and_congr_right (ih m)

/-- Where no bundle is empty there is some leaf. -/
theorem Filled.exists_mem_leaves (h : f.Filled) : ∃ s, s ∈ f.leaves := by
  induction h with
  | single s => exact ⟨s, List.mem_singleton_self s⟩
  | combo hsome _ ih =>
    obtain ⟨m, hm⟩ := List.exists_mem_of_ne_nil _ hsome
    obtain ⟨s, hs⟩ := ih m hm
    exact ⟨s, mem_leaves_combo.mpr ⟨m, hm, hs⟩⟩

/-- A right without empty bundles is granted where all of its leaves are. -/
theorem Filled.canBeGrantedOn_iff (h : f.Filled) {t : TargetType} :
    f.canBeGrantedOn t = true ↔ ∀ s ∈ f.leaves, s.canBeGrantedOn t = true := by
  induction h with
  | single s =>
    rw [canBeGrantedOn, leaves]
    simp
  | @combo label members hsome _ ih =>
    have hfilled : (!members.isEmpty) = true := by simpa using hsome
    rw [canBeGrantedOn_combo, hfilled, Bool.true_and, List.all_eq_true, forall_mem_leaves_combo]
    exact forall₂_congr ih

/-- A preset is found among the leaves if it is the right itself or held by the bundle. -/
theorem named_iff {name : String} :
    (∃ s ∈ f.leaves, s.isPresetNamed name = true) ↔
      (f.single?.any (·.isPresetNamed name) || f.bundles name) = true := by
  induction f using RightForm.induction with
  | single s =>
    rw [bundles, leaves]
    simp [single?]
  | combo label members ih =>
    rw [bundles_combo, exists_mem_leaves_combo]
    show _ ↔ (members.any _) = true
    rw [List.any_eq_true]
    exact exists_congr fun m => and_congr_right (ih m)

/-! ## Down to what a bundle holds -/

section Holding

variable {outer m : RightForm} {t : TargetType} {name : String}

/-- A bundle works on every kind of entry on which a member does. -/
theorem worksOn_of_member (hm : m ∈ outer.members) (h : m.worksOn t = true) :
    outer.worksOn t = true := by
  cases outer with
  | single s => cases hm
  | combo label members =>
    rw [worksOn_combo, List.any_eq_true]
    exact ⟨m, hm, h⟩

/-- Where a bundle is granted each of its members is. -/
theorem canBeGrantedOn_of_member (hm : m ∈ outer.members) (h : outer.canBeGrantedOn t = true) :
    m.canBeGrantedOn t = true := by
  cases outer with
  | single s => cases hm
  | combo label members =>
    rw [canBeGrantedOn_combo, Bool.and_eq_true, List.all_eq_true] at h
    exact h.2 m hm

/-- A bundle is executed wherever a right in it is. -/
theorem Holds.worksOn (h : outer.Holds f) (hf : f.worksOn t = true) : outer.worksOn t = true := by
  induction h with
  | member hm => exact worksOn_of_member hm hf
  | deeper _ hm ih => exact ih (worksOn_of_member hm hf)

/-- A right in a bundle is granted wherever the bundle is. -/
theorem Holds.canBeGrantedOn (h : outer.Holds f) (houter : outer.canBeGrantedOn t = true) :
    f.canBeGrantedOn t = true := by
  induction h with
  | member hm => exact canBeGrantedOn_of_member hm houter
  | deeper _ hm ih => exact canBeGrantedOn_of_member hm ih

/-- The leaves of a member are leaves of the bundle. -/
theorem mem_leaves_of_member {s : SingleRight} (hm : m ∈ outer.members) (hs : s ∈ m.leaves) :
    s ∈ outer.leaves := by
  cases outer with
  | single own => cases hm
  | combo label members => exact mem_leaves_combo.mpr ⟨m, hm, hs⟩

/-- The leaves of what is in a bundle, however deep, are leaves of the bundle. -/
theorem Holds.mem_leaves {s : SingleRight} (h : outer.Holds f) (hs : s ∈ f.leaves) :
    s ∈ outer.leaves := by
  induction h with
  | member hm => exact mem_leaves_of_member hm hs
  | deeper _ hm ih => exact ih (mem_leaves_of_member hm hs)

/-- The search by name finds what can be reached through members. -/
theorem bundles_iff : f.bundles name = true ↔
    ∃ s, f.Holds (.single s) ∧ s.isPresetNamed name = true := by
  induction f using RightForm.induction with
  | single s =>
    rw [bundles]
    exact iff_of_false Bool.false_ne_true fun ⟨_, hheld, _⟩ => hheld.not_single
  | combo label members ih =>
    rw [bundles_combo, List.any_eq_true]
    constructor
    · rintro ⟨m, hm, hfound⟩
      rcases (Bool.or_eq_true _ _).mp hfound with hown | hdeep
      · cases m with
        | single s => exact ⟨s, .member hm, hown⟩
        | combo inner others => cases hown
      · obtain ⟨s, hheld, hnamed⟩ := (ih m hm).mp hdeep
        exact ⟨s, hheld.of_member hm, hnamed⟩
    · rintro ⟨s, hheld, hnamed⟩
      obtain ⟨m, hm, rfl | hdeep⟩ := hheld.cases_member
      · exact ⟨.single s, hm, (Bool.or_eq_true _ _).mpr (.inl hnamed)⟩
      · exact ⟨m, hm, (Bool.or_eq_true _ _).mpr (.inr ((ih m hm).mpr ⟨s, hdeep, hnamed⟩))⟩

/-- No bundle is empty if the right itself and no bundle in it is. -/
theorem filled_of_holds (hown : f.single? = none → f.members ≠ [])
    (hheld : ∀ g, f.Holds g → g.single? = none → g.members ≠ []) : f.Filled := by
  induction f using RightForm.induction with
  | single s => exact .single s
  | combo label members ih =>
    refine .combo (hown rfl) fun m hm => ?_
    exact ih m hm (hheld m (.member hm)) fun g hg => hheld g (hg.of_member hm)

end Holding

end RightForm

namespace Right

variable (r : Right) (t : TargetType)

/-- Some leaf of a right passes a test exactly if one of its form does. -/
theorem any_leaves_iff (p : SingleRight → Bool) :
    r.leaves.any p = true ↔ ∃ s ∈ r.form.leaves, p s = true := by
  rw [List.any_eq_true]
  exact exists_congr fun s => and_congr_left' (r.mem_leaves s)

/-- Whether a right works on a kind of entry can be asked of its leaves or, member by member, of its
form. -/
theorem worksOn_eq : r.worksOn t = r.form.worksOn t := by
  rw [Bool.eq_iff_iff, RightForm.worksOn_iff]
  exact r.any_leaves_iff _

/-- The same for the kinds on which it is granted, if no bundle is empty. -/
theorem canBeGrantedOn_eq (h : r.form.Filled) :
    r.canBeGrantedOn t = r.form.canBeGrantedOn t := by
  obtain ⟨leaf, hleaf⟩ := h.exists_mem_leaves
  have hsome : (!r.leaves.isEmpty) = true := by
    simpa using List.ne_nil_of_mem ((r.mem_leaves leaf).mpr hleaf)
  rw [Bool.eq_iff_iff, h.canBeGrantedOn_iff]
  unfold canBeGrantedOn
  rw [hsome, Bool.true_and, List.all_eq_true]
  exact forall_congr' fun s => imp_congr_left (r.mem_leaves s)

/-- The same for the presets that it holds. -/
theorem bundles_eq (needed : Right) : r.bundles needed = r.form.bundles needed.name := by
  have hmeets : r.meets needed =
      (r.form.single?.any (·.isPresetNamed needed.name) || r.form.bundles needed.name) := by
    rw [Bool.eq_iff_iff, ← RightForm.named_iff]
    exact r.any_leaves_iff _
  unfold bundles isCombo single?
  rw [hmeets]
  -- A single right meets its own name, but it bundles nothing.
  cases r.form with
  | single s =>
    rw [RightForm.bundles]
    rfl
  | combo label members => rfl

/-- A bundle is no user right. -/
theorem isUserRight_of_isCombo (h : r.isCombo = true) : r.isUserRight = false := by
  unfold isCombo at h
  unfold isUserRight
  rw [Option.isNone_iff_eq_none.mp h]
  rfl

end Right

end DirectoryRights
