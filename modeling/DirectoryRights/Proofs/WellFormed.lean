import Mathlib.Data.List.Nodup
import DirectoryRights.Proofs.Leaves
import DirectoryRights.Proofs.Legible

/-!
# Well-formed catalogs

What a definition asks for is what the accepted right is, and the objections keep out what would not
fit. So in every catalog that comes from definitions the names tell the rights apart, user rights
are presets without a dot in their names, and the slots count the rights that have one. A bundle is
built from rights that were there before it: whatever it holds at any depth is no user right and
does not open domains, and what bundles it holds are older, so that it does not hold itself.
-/

set_option autoImplicit false

namespace DirectoryRights

/-- A right is in another one, directly or in a bundle that is in it. -/
inductive RightForm.Holds (outer : RightForm) : RightForm → Prop where
  /-- The right is a member. -/
  | member {f : RightForm} (h : f ∈ outer.members) : Holds outer f
  /-- The right is a member of a bundle that is in the outer one. -/
  | deeper {inner f : RightForm} (hinner : Holds outer inner) (h : f ∈ inner.members) :
    Holds outer f

/-- Whether a right is held by users rather than admins. -/
def RightForm.isUserRight (f : RightForm) : Bool :=
  f.single?.any (·.isUserRight)

namespace RightForm

/-- Nothing is in a right that is no bundle. -/
theorem Holds.not_single {f : RightForm} {s : SingleRight} (h : (single s).Holds f) : False := by
  induction h with
  | member h => cases h
  | deeper _ _ ih => exact ih

/-- What is in a member is in the bundle. -/
theorem Holds.of_member {outer m f : RightForm} (hm : m ∈ outer.members) (h : m.Holds f) :
    outer.Holds f := by
  induction h with
  | member hf => exact .deeper (.member hm) hf
  | deeper _ hf ih => exact .deeper ih hf

/-- What a bundle holds is a member or in a member. -/
theorem Holds.cases_member {outer f : RightForm} (h : outer.Holds f) :
    ∃ m ∈ outer.members, f = m ∨ m.Holds f := by
  induction h with
  | member h => exact ⟨_, h, .inl rfl⟩
  | deeper _ h ih =>
    obtain ⟨m, hm, rfl | hdeep⟩ := ih
    · exact ⟨_, hm, .inr (.member h)⟩
    · exact ⟨m, hm, .inr (.deeper hdeep h)⟩

end RightForm

/-- A right is a preset exactly if this is its kind. -/
theorem Right.isPreset_iff {r : Right} : r.isPreset = true ↔ r.kind = .preset := by
  unfold Right.isPreset Right.kind
  cases r.single? with
  | none => simp
  | some s =>
    cases s with
    | preset => simp [SingleRight.isPreset, SingleRight.kind]
    | attrs label access => cases access <;> simp [SingleRight.isPreset, SingleRight.kind]

namespace Catalog

variable {c : Catalog} {d : Definition} {right : Right}

/-- The members of an accepted bundle are single rights or rights of the catalog before it, of which
none is for users or opens domains. -/
theorem members_of_accept (h : c.accept d = .ok right) (hcombo : right.isCombo = true) :
    right.form.members ≠ [] ∧ ∀ f ∈ right.form.members, f.isUserRight = false ∧
      f.name ≠ crossDomainAdmin ∧ ((∃ s, f = .single s) ∨ ∃ r ∈ c.rights, r.form = f) := by
  rcases (accept_eq_ok h).2.2 with ⟨s, rfl⟩ | ⟨label, hbuilt⟩
  · cases hcombo
  obtain ⟨hnamed, members, hmembers, rfl⟩ := buildCombo_eq_ok hbuilt
  constructor
  · intro hempty
    have hnone : members = [] := List.map_eq_nil_iff.mp hempty
    rw [mapM_eq_ok, hnone, List.forall₂_nil_right_iff] at hmembers
    exact hnamed hmembers
  · intro f hf
    obtain ⟨m, hm, rfl⟩ := List.mem_map.mp hf
    obtain ⟨name, -, hmember⟩ := exists_of_mapM hmembers hm
    obtain ⟨hlookup, huser, hcross⟩ := member_eq_ok hmember
    refine ⟨huser, of_decide_eq_false hcross, ?_⟩
    cases hbundle : m.isCombo with
    | false => exact .inl (Right.exists_single_of_not_isCombo hbundle)
    | true => exact .inr ⟨m, mem_of_lookup_of_isCombo hlookup hbundle, rfl⟩

/-- A catalog in which names tell rights apart, user rights are presets, bundles hold older rights
for admins, and the slots count the rights that have one. -/
structure WellFormed (c : Catalog) : Prop where
  /-- No two rights have the same name. -/
  distinct : (c.rights.map (·.name)).Nodup
  /-- Every right has a name. -/
  named : ∀ r ∈ c.rights, r.name ≠ ""
  /-- User rights are presets without a dot in their names. -/
  users : ∀ r ∈ c.rights, r.isUserRight = true →
    r.isPreset = true ∧ Text.mentions '.' r.name = false
  /-- A preset is executed on entries of one kind. -/
  presets : ∀ r ∈ c.rights, r.isPreset = true → ∃ t, r.targets = [t]
  /-- No bundle is empty. -/
  filled : ∀ r ∈ c.rights, r.isCombo = true → r.form.members ≠ []
  /-- What a bundle holds at any depth is no user right and does not open domains. -/
  admins : ∀ r ∈ c.rights, ∀ f, r.form.Holds f →
    f.isUserRight = false ∧ f.name ≠ crossDomainAdmin
  /-- A bundle in a bundle is a right of the catalog. -/
  inner : ∀ r ∈ c.rights, ∀ f, r.form.Holds f → f.single? = none → ∃ b ∈ c.rights, b.form = f
  /-- No bundle holds a bundle of its own name. -/
  apart : ∀ r ∈ c.rights, ∀ f, r.form.Holds f → f.single? = none → f.name ≠ r.name
  /-- The slots are handed out in the order of the rights, without gaps. -/
  slots : c.rights.filterMap (·.label.slot) = List.range c.slotsUsed

/-- The empty catalog is well-formed. -/
theorem wellFormed_empty : empty.WellFormed := by
  constructor <;> simp [empty, slotsUsed]

/-- In a well-formed catalog every right is found under its name. -/
theorem WellFormed.get?_of_mem (hc : c.WellFormed) {r : Right} (hr : r ∈ c.rights) :
    c.get? r.name = some r := by
  have hsome : (c.rights.find? (·.name = r.name)).isSome := by
    rw [List.find?_isSome]
    exact ⟨r, hr, decide_eq_true rfl⟩
  obtain ⟨found, hfound⟩ := Option.isSome_iff_exists.mp hsome
  have hname : found.name = r.name := by simpa using List.find?_some hfound
  unfold get?
  rw [hfound, List.inj_on_of_nodup_map hc.distinct (List.mem_of_find?_eq_some hfound) hr hname]

/-- What a new bundle holds was there before it. -/
theorem WellFormed.held (hc : c.WellFormed) (h : c.accept d = .ok right) {f : RightForm}
    (hf : right.form.Holds f) :
    f.isUserRight = false ∧ f.name ≠ crossDomainAdmin ∧
      (f.single? = none → ∃ b ∈ c.rights, b.form = f) := by
  have hcombo : right.isCombo = true := by
    cases hsingle : right.isCombo with
    | true => rfl
    | false =>
      obtain ⟨s, hform⟩ := Right.exists_single_of_not_isCombo hsingle
      rw [hform] at hf
      exact hf.not_single.elim
  obtain ⟨m, hm, hheld⟩ := hf.cases_member
  obtain ⟨huser, hcross, horigin⟩ := (members_of_accept h hcombo).2 m hm
  rcases hheld with rfl | hdeep
  · refine ⟨huser, hcross, fun hbundle => ?_⟩
    rcases horigin with ⟨s, rfl⟩ | hfound
    · cases hbundle
    · exact hfound
  · -- What is deeper down is in a member that is a bundle, and this one was there before.
    rcases horigin with ⟨s, rfl⟩ | ⟨r, hr, rfl⟩
    · exact hdeep.not_single.elim
    · exact ⟨(hc.admins r hr f hdeep).1, (hc.admins r hr f hdeep).2, hc.inner r hr f hdeep⟩

/-- What all rights have after one was added is what all had before, and the new one has. -/
theorem forall_mem_push {P : Right → Prop} :
    (∀ r ∈ (c.push right).rights, P r) ↔ (∀ r ∈ c.rights, P r) ∧ P right := by
  simp [push, or_imp, forall_and]

/-- One more accepted right keeps a catalog well-formed. -/
theorem WellFormed.push (hc : c.WellFormed) (h : c.accept d = .ok right) :
    (c.push right).WellFormed := by
  obtain ⟨hobjection, hright, -⟩ := accept_eq_ok h
  obtain ⟨hname, hnew, huser⟩ := objection?_eq_none hobjection
  have hcalled : right.name = Text.trim d.name := name_of_accept h
  have hfresh : ∀ r ∈ c.rights, r.name ≠ right.name := by
    intro r hr hsame
    rw [← hcalled] at hnew
    have hnone := List.find?_eq_none.mp hnew r hr
    exact hnone (decide_eq_true hsame)
  constructor
  case distinct =>
    unfold Catalog.push
    rw [List.map_append, List.nodup_append]
    refine ⟨hc.distinct, List.nodup_singleton _, ?_⟩
    rintro name hold other hlast rfl
    obtain ⟨r, hr, rfl⟩ := List.mem_map.mp hold
    exact hfresh r hr (List.mem_singleton.mp hlast)
  case named => exact forall_mem_push.mpr ⟨hc.named, hcalled ▸ hname⟩
  case users =>
    refine forall_mem_push.mpr ⟨hc.users, fun hasked => ?_⟩
    obtain ⟨hkind, hdot⟩ := huser (hright.user.symm.trans hasked)
    exact ⟨Right.isPreset_iff.mpr (hright.kind.trans hkind), hcalled ▸ hdot⟩
  case presets =>
    refine forall_mem_push.mpr ⟨hc.presets, fun hpreset => ?_⟩
    have hkind := Right.isPreset_iff.mp hpreset
    obtain ⟨t, -, htargets⟩ := hright.target (hright.kind.symm.trans hkind)
    exact ⟨t, htargets⟩
  case filled =>
    exact forall_mem_push.mpr ⟨hc.filled, fun hcombo => (members_of_accept h hcombo).1⟩
  case admins =>
    refine forall_mem_push.mpr ⟨hc.admins, fun f hf => ?_⟩
    obtain ⟨hadmin, hcross, -⟩ := hc.held h hf
    exact ⟨hadmin, hcross⟩
  case inner =>
    refine forall_mem_push.mpr ⟨fun r hr f hf hbundle => ?_, fun f hf hbundle => ?_⟩
    · obtain ⟨b, hb, hform⟩ := hc.inner r hr f hf hbundle
      exact ⟨b, List.mem_append_left _ hb, hform⟩
    · obtain ⟨b, hb, hform⟩ := (hc.held h hf).2.2 hbundle
      exact ⟨b, List.mem_append_left _ hb, hform⟩
  case apart =>
    refine forall_mem_push.mpr ⟨hc.apart, fun f hf hbundle => ?_⟩
    obtain ⟨b, hb, rfl⟩ := (hc.held h hf).2.2 hbundle
    exact hfresh b hb
  case slots =>
    rw [slotsUsed_push]
    unfold Catalog.push
    rw [List.filterMap_append, hc.slots]
    rcases slot_of_accept h with hnone | hnext
    · simp [hnone]
    · simp [hnext, List.range_succ]

/-- A catalog that is made of definitions is well-formed. -/
theorem wellFormed_of_ofDefinitions {ds : List Definition} (h : ofDefinitions ds = .ok c) :
    c.WellFormed := by
  refine ofDefinitions_induction wellFormed_empty ?_ h
  intro c d right hc haccept
  exact hc.push haccept

end Catalog

end DirectoryRights
