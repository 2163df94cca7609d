import DirectoryRights.Catalog
import DirectoryRights.Proofs.Reading

/-!
# What is found and what is accepted

A right that is found in a catalog was defined, or it is an attribute right that is spelled out by
its name. A right that is accepted for a definition met none of the objections, which are all about
the definition and the names in use, and it is what the definition asks for. Whatever else is known
of the rights of a catalog is derived from these two facts.
-/

set_option autoImplicit false

namespace DirectoryRights

/-- A right that is known by its dotted name alone is for attributes. -/
theorem Right.attrs_of_ofName {name : String} {right : Right} (h : Right.ofName name = .ok right) :
    ∃ access t attr, right = .attrs { name, description := none, default := none, slot := none }
      access [t] (.named [attr]) := by
  unfold Right.ofName at h
  repeat' split at h
  all_goals cases h
  exact ⟨_, _, _, rfl⟩

namespace Catalog

variable {c : Catalog} {d : Definition} {label : Label} {right : Right}

/-! ## Finding a right -/

/-- A right that is found was defined, or its name has a dot and spells it out. -/
theorem lookup_eq_ok {name : String} (h : c.lookup name = .ok right) :
    c.get? name = some right ∨ Text.mentions '.' name = true ∧ Right.ofName name = .ok right := by
  unfold lookup at h
  cases hget : c.get? name with
  | some found =>
    rw [hget] at h
    cases h
    exact .inl rfl
  | none =>
    rw [hget] at h
    simp only at h
    split at h
    · exact .inr ⟨‹_›, h⟩
    · cases h

/-- A member of a bundle is found by its name, is no user right and does not open domains. -/
theorem member_eq_ok {name memberName : String} (h : c.member name memberName = .ok right) :
    c.lookup memberName = .ok right ∧ right.isUserRight = false ∧
      right.isCrossDomainAdmin = false := by
  unfold member at h
  cases hlookup : c.lookup memberName with
  | error cause =>
    rw [hlookup] at h
    cases h
  | ok found =>
    rw [hlookup] at h
    simp only at h
    split at h
    · cases h
    · rename_i huser
      split at h
      · cases h
      · rename_i hcross
        cases h
        exact ⟨rfl, by simpa using huser, by simpa using hcross⟩

/-! ## Making a right -/

/-- A preset is made of a definition that names one target type, with the audience that the
definition asks for. -/
theorem buildPreset_eq_ok (h : buildPreset label d = .ok right) :
    ∃ t audience, presetTargets d = [t] ∧ right = .preset label t audience ∧
      (SingleRight.preset label t audience).isUserRight = d.user := by
  unfold buildPreset at h
  split at h
  · rename_i t htargets
    repeat' split at h
    all_goals cases h
    all_goals exact ⟨t, _, htargets, rfl, by simp [SingleRight.isUserRight, *]⟩
  · cases h

/-- What is made of a definition with an access to attributes is a right for attributes. -/
theorem buildAttrs_eq_ok {access : AttrAccess} (h : buildAttrs label access d = .ok right) :
    ∃ targets governed, right = .attrs label access targets governed := by
  unfold buildAttrs at h
  simp only at h
  repeat' split at h
  all_goals cases h
  all_goals exact ⟨_, _, rfl⟩

/-- A combo is made of a definition with members, and each of these could be resolved. -/
theorem buildCombo_eq_ok (h : c.buildCombo label d = .ok right) :
    d.rights ≠ [] ∧ ∃ members, d.rights.mapM (c.member label.name) = .ok members ∧
      right = .combo label members := by
  unfold buildCombo at h
  split at h
  · cases h
  · split at h
    · cases h
    · rename_i hnamed
      obtain ⟨members, hmembers, rfl⟩ := exists_of_map_eq_ok h
      exact ⟨hnamed, members, hmembers, rfl⟩

/-! ## Accepting a definition -/

/-- A definition without objection has a name that is new, and a user right is a preset with a name
without dots. -/
theorem objection?_eq_none {name : String} (h : c.objection? d name = none) :
    name ≠ "" ∧ c.get? name = none ∧
      (d.user = true → d.kind = .preset ∧ Text.mentions '.' name = false) := by
  unfold objection? at h
  repeat' split at h
  any_goals cases h
  rename_i hname hknown hkind hdot _
  refine ⟨hname, by simpa using hknown, fun huser => ⟨?_, ?_⟩⟩
  · exact Decidable.byContradiction fun hne => hkind ⟨huser, hne⟩
  · simpa [huser] using hdot

/-- Of the kinds of rights only presets are user rights. -/
theorem user_eq_false {name : String} (h : c.objection? d name = none)
    (hother : d.kind ≠ .preset) : d.user = false := by
  cases huser : d.user with
  | false => rfl
  | true => exact absurd ((objection?_eq_none h).2.2 huser).1 hother

/-- An accepted right is what its definition asks for. -/
structure Realizes (d : Definition) (slot : Option Nat) (right : Right) : Prop where
  /-- The right has the name and the texts of the definition, and the slot. -/
  label : right.label =
    { name := Text.trim d.name, description := d.description, default := d.default, slot }
  /-- The right is of the kind of the definition. -/
  kind : right.kind = d.kind
  /-- The right is for users exactly if the definition says so. -/
  user : right.isUserRight = d.user
  /-- A preset is executed on the one kind of entry of the definition. -/
  target : d.kind = .preset → ∃ t, presetTargets d = [t] ∧ right.targets = [t]

/-- What is no preset is for admins, and nothing is asked of its kinds of entry. -/
theorem Realizes.of_other {slot : Option Nat} (hother : d.kind ≠ .preset) (huser : d.user = false)
    (hadmin : right.isUserRight = false) (hkind : right.kind = d.kind)
    (hlabel : right.label =
      { name := Text.trim d.name, description := d.description, default := d.default, slot }) :
    Realizes d slot right where
  label := hlabel
  kind := hkind
  user := hadmin.trans huser.symm
  target hpreset := absurd hpreset hother

/-- An accepted definition met no objection, the right is what it asks for, and it is a single right
or the bundle that was made of members. -/
theorem accept_eq_ok (h : c.accept d = .ok right) :
    c.objection? d (Text.trim d.name) = none ∧
      Realizes d (if d.cache then some c.slotsUsed else none) right ∧
      ((∃ s, right = .ofSingle s) ∨ ∃ label, c.buildCombo label d = .ok right) := by
  unfold accept at h
  simp only at h
  split at h
  · cases h
  · rename_i hobjection
    refine ⟨hobjection, ?_⟩
    have hadmins : d.kind ≠ .preset → d.user = false := user_eq_false hobjection
    split at h
    · rename_i hkind
      obtain ⟨t, audience, htargets, rfl, huser⟩ := buildPreset_eq_ok h
      exact ⟨⟨rfl, hkind.symm, huser, fun _ => ⟨t, htargets, rfl⟩⟩, .inl ⟨_, rfl⟩⟩
    · rename_i hkind
      obtain ⟨targets, governed, rfl⟩ := buildAttrs_eq_ok h
      have hother : d.kind ≠ .preset := by simp [hkind]
      exact ⟨.of_other hother (hadmins hother) rfl hkind.symm rfl, .inl ⟨_, rfl⟩⟩
    · rename_i hkind
      obtain ⟨targets, governed, rfl⟩ := buildAttrs_eq_ok h
      have hother : d.kind ≠ .preset := by simp [hkind]
      exact ⟨.of_other hother (hadmins hother) rfl hkind.symm rfl, .inl ⟨_, rfl⟩⟩
    · rename_i hkind
      have hbuilt := h
      obtain ⟨-, members, -, rfl⟩ := buildCombo_eq_ok h
      have hother : d.kind ≠ .preset := by simp [hkind]
      exact ⟨.of_other hother (hadmins hother) rfl hkind.symm rfl, .inr ⟨_, hbuilt⟩⟩

/-- The accepted right has the name of its definition, without blanks around it. -/
theorem name_of_accept (h : c.accept d = .ok right) : right.name = Text.trim d.name :=
  congrArg Label.name (accept_eq_ok h).2.1.label

end Catalog

end DirectoryRights
