import DirectoryRights.Proofs.Catalogs
import DirectoryRights.Proofs.Rereading

/-!
# What bundles amount to

The members of a bundle are rights of the catalog or spelled out by their names, and only attribute
rights are spelled out. So every preset that a bundle of a catalog holds at any depth is a right of
this catalog, and there is one such preset of each name. The right that opens domains is in no
bundle.
-/

set_option autoImplicit false

namespace DirectoryRights

namespace Right

/-- A right that is no bundle has no leaf but itself. -/
theorem leaves_of_single {right : Right} {s : SingleRight} (h : right.form = .single s) :
    ∀ leaf ∈ right.leaves, leaf = s := by
  intro leaf hleaf
  rw [right.mem_leaves, h] at hleaf
  exact List.mem_singleton.mp hleaf

/-- A right that is no bundle is a single right. -/
theorem exists_single_of_not_isCombo {right : Right} (h : right.isCombo = false) :
    ∃ s, right.form = .single s := by
  unfold isCombo single? at h
  cases hform : right.form with
  | single s => exact ⟨s, rfl⟩
  | combo label members =>
    rw [hform] at h
    cases h

/-- No preset is spelled out by its name. -/
theorem leaves_of_ofName {name : String} {right : Right} (h : ofName name = .ok right) :
    ∀ leaf ∈ right.leaves, leaf.isPreset = false := by
  obtain ⟨access, t, attr, rfl⟩ := attrs_of_ofName h
  intro leaf hleaf
  rw [leaves_of_single rfl leaf hleaf]
  rfl

end Right

namespace Catalog

/-- The presets in the rights of a catalog are rights of the catalog, and none of those in a bundle
opens domains. -/
structure Leafed (c : Catalog) : Prop where
  /-- A preset is found by its name. -/
  preset : ∀ right ∈ c.rights, ∀ s ∈ right.leaves, s.isPreset = true →
    c.get? s.name = some (.ofSingle s)
  /-- No bundle opens domains. -/
  border : ∀ right ∈ c.rights, right.isCombo = true → ∀ s ∈ right.leaves, s.isPreset = true →
    s.name ≠ crossDomainAdmin

variable {c : Catalog}

/-- The empty catalog has all leaves of its rights. -/
theorem leafed_empty : empty.Leafed := by
  constructor
  · intro right hright
    cases hright
  · intro right hright
    cases hright

/-- A right with presets that is found is in the catalog. -/
theorem mem_of_lookup_of_preset {name : String} {right : Right} (h : c.lookup name = .ok right)
    {s : SingleRight} (hs : s ∈ right.leaves) (hpreset : s.isPreset = true) :
    right ∈ c.rights := by
  rcases lookup_eq_ok h with hget | ⟨-, hspelled⟩
  · exact List.mem_of_find?_eq_some hget
  · rw [Right.leaves_of_ofName hspelled s hs] at hpreset
    cases hpreset

/-- A bundle that is found is in the catalog. -/
theorem mem_of_lookup_of_isCombo {name : String} {right : Right} (h : c.lookup name = .ok right)
    (hcombo : right.isCombo = true) : right ∈ c.rights := by
  rcases lookup_eq_ok h with hget | ⟨-, hspelled⟩
  · exact List.mem_of_find?_eq_some hget
  · obtain ⟨access, t, attr, rfl⟩ := Right.attrs_of_ofName hspelled
    cases hcombo

/-- The members of a bundle are found by their names, and none opens domains. -/
theorem members_of_buildCombo {label : Label} {d : Definition} {right : Right}
    (h : c.buildCombo label d = .ok right) :
    ∃ members, right = .combo label members ∧ ∀ m ∈ members,
      (∃ name, c.lookup name = .ok m) ∧ m.isCrossDomainAdmin = false := by
  obtain ⟨-, members, hmembers, rfl⟩ := buildCombo_eq_ok h
  refine ⟨members, rfl, ?_⟩
  intro m hm
  obtain ⟨name, -, hmember⟩ := exists_of_mapM hmembers hm
  obtain ⟨hlookup, -, hcross⟩ := member_eq_ok hmember
  exact ⟨⟨name, hlookup⟩, hcross⟩

/-- An accepted right has a new name, and it is a single right or a bundle of rights that can be
found. -/
theorem accept_cases {d : Definition} {right : Right} (h : c.accept d = .ok right) :
    c.get? right.name = none ∧ ((∃ s, right = .ofSingle s) ∨
      ∃ label members, right = .combo label members ∧ ∀ m ∈ members,
        (∃ name, c.lookup name = .ok m) ∧ m.isCrossDomainAdmin = false) := by
  obtain ⟨hobjection, -, hmade⟩ := accept_eq_ok h
  refine ⟨?_, ?_⟩
  · rw [name_of_accept h]
    exact (objection?_eq_none hobjection).2.1
  · rcases hmade with hsingle | ⟨label, hbuilt⟩
    · exact .inl hsingle
    · exact .inr ⟨label, members_of_buildCombo hbuilt⟩

/-- What a catalog has under a name it has there after a right was added. -/
theorem get?_push_of_some {right found : Right} {name : String} (h : c.get? name = some found) :
    (c.push right).get? name = some found := by
  unfold get? push at *
  rw [List.find?_append, h]
  rfl

/-- A right with a new name is found by it after it was added. -/
theorem get?_push_of_new {right : Right} (h : c.get? right.name = none) :
    (c.push right).get? right.name = some right := by
  unfold get? push at *
  rw [List.find?_append, h]
  simp

/-- The presets in the members of a bundle are rights of the catalog and do not open domains. -/
theorem Leafed.leaf_of_member (hc : c.Leafed) {name : String} {m : Right}
    (hm : c.lookup name = .ok m) (hcross : m.isCrossDomainAdmin = false) {s : SingleRight}
    (hs : s ∈ m.leaves) (hpreset : s.isPreset = true) :
    c.get? s.name = some (.ofSingle s) ∧ s.name ≠ crossDomainAdmin := by
  have hmem := mem_of_lookup_of_preset hm hs hpreset
  refine ⟨hc.preset m hmem s hs hpreset, ?_⟩
  cases hcombo : m.isCombo with
  | true => exact hc.border m hmem hcombo s hs hpreset
  | false =>
    obtain ⟨own, hform⟩ := Right.exists_single_of_not_isCombo hcombo
    rw [Right.leaves_of_single hform s hs]
    unfold Right.isCrossDomainAdmin Right.name Right.label at hcross
    rw [hform] at hcross
    exact of_decide_eq_false hcross

/-- A catalog that has the leaves of its rights still has them after a definition was accepted. -/
theorem Leafed.push (hc : c.Leafed) {d : Definition} {right : Right}
    (h : c.accept d = .ok right) : (c.push right).Leafed := by
  obtain ⟨hnew, hkind⟩ := accept_cases h
  have hold : ∀ {other : Right}, other ∈ c.rights → ∀ s ∈ other.leaves, s.isPreset = true →
      (c.push right).get? s.name = some (.ofSingle s) := fun hother s hs hpreset =>
    get?_push_of_some (hc.preset _ hother s hs hpreset)
  have hmembers : ∀ {label members}, right = .combo label members → (∀ m ∈ members,
      (∃ name, c.lookup name = .ok m) ∧ m.isCrossDomainAdmin = false) → ∀ s ∈ right.leaves,
      s.isPreset = true → c.get? s.name = some (.ofSingle s) ∧ s.name ≠ crossDomainAdmin := by
    intro label members hright hfound s hs hpreset
    rw [hright] at hs
    unfold Right.combo at hs
    simp only [List.mem_eraseDups, List.mem_flatMap] at hs
    obtain ⟨m, hm, hleaf⟩ := hs
    obtain ⟨⟨name, hlookup⟩, hcross⟩ := hfound m hm
    exact hc.leaf_of_member hlookup hcross hleaf hpreset
  constructor
  · intro other hother s hs hpreset
    rcases List.mem_append.mp hother with hin | hlast
    · exact hold hin s hs hpreset
    · rw [List.mem_singleton] at hlast
      rw [hlast] at hs
      rcases hkind with ⟨own, hown⟩ | ⟨label, members, hright, hfound⟩
      · have hsame : s = own := by
          rw [hown] at hs
          exact List.mem_singleton.mp hs
        have hname : s.name = right.name := by
          rw [hown, hsame]
          rfl
        rw [hname, get?_push_of_new hnew, hown, hsame]
      · exact get?_push_of_some (hmembers hright hfound s hs hpreset).1
  · intro other hother hcombo s hs hpreset
    rcases List.mem_append.mp hother with hin | hlast
    · exact hc.border other hin hcombo s hs hpreset
    · rw [List.mem_singleton] at hlast
      rw [hlast] at hcombo hs
      rcases hkind with ⟨own, hown⟩ | ⟨label, members, hright, hfound⟩
      · rw [hown] at hcombo
        cases hcombo
      · exact (hmembers hright hfound s hs hpreset).2

/-- A catalog that is made of definitions has the leaves of its rights. -/
theorem leafed_of_ofDefinitions {ds : List Definition} (h : ofDefinitions ds = .ok c) :
    c.Leafed := by
  refine ofDefinitions_induction leafed_empty ?_ h
  intro c d right hc haccept
  exact hc.push haccept

end Catalog

end DirectoryRights
