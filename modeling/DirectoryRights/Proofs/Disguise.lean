import DirectoryRights.Proofs.Building
import DirectoryRights.Proofs.Members

/-!
# User rights under another kind

User rights do not tell accounts from calendar resources, nor the two kinds of group. So a user
right for one kind of such a class may be defined for the other kind as well: a catalog accepts it
with the same grant target or refuses it for the same reason, it is used and granted on the same
entries, and grants of it mean the same.
-/

set_option autoImplicit false

namespace DirectoryRights

namespace TargetType

/-- A kind is the other kind of the other kind of its class. -/
theorem userTwin_userTwin (t : TargetType) : t.userTwin.userTwin = t := by
  cases t <;> rfl

/-- The two kinds of a class are of one class. -/
theorem userClass_userTwin (t : TargetType) : t.userTwin.userClass = t.userClass := by
  cases t <;> rfl

end TargetType

/-- For a user right it makes no difference which of the two kinds of a class the grants have to
reach. -/
theorem SingleRight.grantsReach_userTwin (target source : TargetType) :
    grantsReach target.userTwin true source = grantsReach target true source := by
  unfold grantsReach
  rw [target.userTwin_userTwin, Bool.true_and, Bool.true_and, Bool.or_comm]

namespace Right

variable {r : Right} {s : SingleRight}

/-- A right that is no bundle has itself as its only leaf. -/
theorem any_leaves_of_single (h : r.form = .single s) (p : SingleRight → Bool) :
    r.leaves.any p = p s := by
  rw [Bool.eq_iff_iff, r.any_leaves_iff, h]
  simp [RightForm.leaves]

/-- A right that is no bundle is granted where it is granted by itself. -/
theorem canBeGrantedOn_of_single (h : r.form = .single s) (t : TargetType) :
    r.canBeGrantedOn t = s.canBeGrantedOn t := by
  have hfilled : r.form.Filled := by
    rw [h]
    exact .single s
  rw [r.canBeGrantedOn_eq t hfilled, h, RightForm.canBeGrantedOn]

/-- The right for the other kind of its class, if it is the user right of a name. -/
def retarget (name : String) (r : Right) : Right :=
  match r.form with
  | .single (.preset label target (.users grantTarget)) =>
    if label.name = name then .preset label target.userTwin (.users grantTarget) else r
  | _ => r

/-- Either a right stays as it is, or it is a user right and gets the other kind of its class. -/
theorem retarget_cases (name : String) (r : Right) :
    r.retarget name = r ∨ ∃ label target grantTarget,
      r.form = .single (.preset label target (.users grantTarget)) ∧
        r.retarget name = .preset label target.userTwin (.users grantTarget) := by
  unfold retarget
  split
  · rename_i label target grantTarget hform
    by_cases hname : label.name = name
    · exact .inr ⟨label, target, grantTarget, hform, if_pos hname⟩
    · exact .inl (if_neg hname)
  · exact .inl rfl

/-- A change of rights that makes no difference to the search of grants. -/
structure Unnoticed (f : Right → Right) : Prop where
  /-- Rights keep their names, their defaults and their slots. -/
  label : ∀ r, (f r).label = r.label
  /-- User rights stay user rights, and admin rights admin rights. -/
  isUserRight : ∀ r, (f r).isUserRight = r.isUserRight
  /-- What can be checked still can, and nothing else. -/
  isPreset : ∀ r, (f r).isPreset = r.isPreset
  /-- Rights are used and passed on on the same kinds of entry. -/
  suits : ∀ r t delegate, (f r).suits t delegate = r.suits t delegate
  /-- Grants answer the same checks. -/
  meets : ∀ r needed, (f r).meets needed = r.meets needed

/-- A user right for the other kind of its class is not told from what it was. -/
theorem unnoticed_retarget (name : String) : Unnoticed (retarget name) := by
  -- Where the right changes, both rights are presets of one label for users, so that it is enough
  -- to compare the kinds of entry.
  constructor <;> intro r <;>
    obtain hsame | ⟨label, target, grantTarget, hform, hright⟩ := r.retarget_cases name
  · rw [hsame]
  · rw [hright]
    unfold Right.label
    rw [hform]
    rfl
  · rw [hsame]
  · rw [hright]
    unfold Right.isUserRight single?
    rw [hform]
    rfl
  · rw [hsame]
  · rw [hright]
    unfold Right.isPreset single?
    rw [hform]
    rfl
  · simp only [hsame, implies_true]
  · intro t delegate
    have hworks : (r.retarget name).worksOn t = r.worksOn t := by
      unfold worksOn
      rw [any_leaves_of_single hform, hright]
      show ((target.userTwin.userClass = t.userClass : Bool) || false) = _
      rw [target.userClass_userTwin, Bool.or_false]
      rfl
    have hgranted : (r.retarget name).canBeGrantedOn t = r.canBeGrantedOn t := by
      rw [canBeGrantedOn_of_single hform, hright]
      cases grantTarget with
      | none =>
        show (SingleRight.grantsReach target.userTwin true t && true) = _
        rw [SingleRight.grantsReach_userTwin, Bool.and_true]
        rfl
      | some confined => exact Bool.and_true _
    unfold suits
    rw [hworks, hgranted]
  · simp only [hsame, implies_true]
  · intro needed
    unfold meets
    rw [any_leaves_of_single hform, hright]
    exact Bool.or_false _

/-- Such a change leaves the names of rights alone. -/
theorem Unnoticed.name {f : Right → Right} (hf : Unnoticed f) (r : Right) : (f r).name = r.name :=
  congrArg Label.name (hf.label r)

/-- Such a change leaves it alone whether a right opens domains. -/
theorem Unnoticed.isCrossDomainAdmin {f : Right → Right} (hf : Unnoticed f) (r : Right) :
    (f r).isCrossDomainAdmin = r.isCrossDomainAdmin := by
  unfold Right.isCrossDomainAdmin
  rw [hf.name]

/-- Admin rights and rights of other names are what they were. -/
theorem retarget_of_other {name : String} (h : r.isUserRight = true → r.name ≠ name) :
    r.retarget name = r := by
  unfold retarget
  split
  · rename_i label target grantTarget hform
    unfold Right.name Right.label isUserRight single? at h
    rw [hform] at h
    exact if_neg (h rfl)
  · rfl

end Right

/-- The definition for the other kind of its class, if it is that of the user right of a name. -/
def Definition.retarget (name : String) (d : Definition) : Definition :=
  match d.user, Catalog.presetTargets d with
  | true, [target] =>
    if Text.trim d.name = name then { d with target := some (.one target.userTwin) } else d
  | _, _ => d

namespace Definition

/-- Either a definition stays as it is, or it is that of a user right of the name and gets the other
kind. -/
theorem retarget_cases (name : String) (d : Definition) :
    (d.retarget name = d ∧ ∀ target, d.user = true → Catalog.presetTargets d = [target] →
        Text.trim d.name ≠ name) ∨
      ∃ target, d.user = true ∧ Catalog.presetTargets d = [target] ∧ Text.trim d.name = name ∧
        d.retarget name = { d with target := some (.one target.userTwin) } := by
  unfold retarget
  split
  · rename_i target huser htarget
    by_cases hname : Text.trim d.name = name
    · exact .inr ⟨target, huser, htarget, hname, if_pos hname⟩
    · exact .inl ⟨if_neg hname, fun _ _ _ => hname⟩
  · rename_i hother
    exact .inl ⟨rfl, fun target huser htarget => (hother target huser htarget).elim⟩

/-- Nothing but the target of a definition changes. -/
theorem retarget_eq (name : String) (d : Definition) :
    ∃ target, d.retarget name = { d with target } := by
  rcases d.retarget_cases name with ⟨hsame, -⟩ | ⟨target, -, -, -, hchanged⟩
  · exact ⟨d.target, hsame⟩
  · exact ⟨some (.one target.userTwin), hchanged⟩

end Definition

/-- A function that keeps the result of an outcome, if there is one, keeps the outcome. -/
theorem map_eq_self {α : Type} {x : Except Error α} {f : α → α} (h : ∀ a, x = .ok a → f a = a) :
    x.map f = x := by
  cases x with
  | error e => rfl
  | ok a => exact congrArg Except.ok (h a rfl)

namespace Catalog

variable (c : Catalog) (name : String)

/-- The catalog with the user right of a name for the other kind of its class. -/
def retarget : Catalog :=
  ⟨c.rights.map (Right.retarget name)⟩

/-- Under each name the catalog has the right that it had, for the other kind if it is the one in
question. -/
theorem get?_retarget (n : String) :
    (c.retarget name).get? n = (c.get? n).map (Right.retarget name) := by
  have hname : (fun r : Right => decide ((r.retarget name).name = n)) =
      fun r => decide (r.name = n) := by
    funext r
    rw [(Right.unnoticed_retarget name).name]
  show List.find? _ (c.rights.map _) = _
  rw [List.find?_map]
  exact congrArg (fun p => (c.rights.find? p).map _) hname

/-- A name leads to the changed right where it led to the right. -/
theorem lookup_retarget (n : String) :
    (c.retarget name).lookup n = (c.lookup n).map (Right.retarget name) := by
  unfold lookup
  rw [get?_retarget]
  cases c.get? n with
  | some right => rfl
  | none =>
    show (if Text.mentions '.' n = true then _ else _) = Except.map _ (if _ then _ else _)
    split
    · cases hspelled : Right.ofName n with
      | error e => rfl
      | ok right =>
        obtain ⟨access, t, attr, rfl⟩ := Right.attrs_of_ofName hspelled
        rfl
    · rfl

/-- The objections to a definition are those of the catalog as it was. -/
theorem objection?_retarget (d : Definition) (n : String) :
    (c.retarget name).objection? d n = c.objection? d n := by
  unfold objection?
  rw [get?_retarget, Option.isSome_map]

/-- As many slots are in use as before. -/
theorem slotsUsed_retarget : (c.retarget name).slotsUsed = c.slotsUsed := by
  show List.countP _ (c.rights.map _) = _
  rw [List.countP_map]
  congr 1
  funext r
  show ((r.retarget name).label.slot).isSome = _
  rw [(Right.unnoticed_retarget name).label]

/-- User rights cannot be members of a bundle, and the others are what they were. -/
theorem member_retarget (n memberName : String) :
    (c.retarget name).member n memberName = c.member n memberName := by
  unfold member
  rw [lookup_retarget]
  cases c.lookup memberName with
  | error e => rfl
  | ok right =>
    show (if (right.retarget name).isUserRight = true then _ else _) =
      if right.isUserRight = true then _ else _
    rw [(Right.unnoticed_retarget name).isUserRight]
    split
    · rfl
    · rw [Right.retarget_of_other fun huser => absurd huser ‹_›]

/-- A bundle is made of the rights of the changed catalog as it was of those before. -/
theorem buildCombo_retarget (label : Label) (d : Definition) :
    (c.retarget name).buildCombo label d =
      (c.buildCombo label d).map (Right.retarget name) := by
  unfold buildCombo
  have hmember : (c.retarget name).member label.name = c.member label.name :=
    funext (c.member_retarget name label.name)
  rw [hmember]
  split
  · rfl
  · split
    · rfl
    · cases d.rights.mapM (c.member label.name) <;> rfl

/-- A user right that can be made is for the target type that its definition names. -/
theorem buildPreset_of_user {label : Label} {d : Definition} {target : TargetType} {right : Right}
    (huser : d.user = true) (htarget : presetTargets d = [target])
    (h : buildPreset label d = .ok right) :
    right = .preset label target (.users d.grantTarget) := by
  unfold buildPreset at h
  rw [htarget] at h
  simp only [huser, if_true] at h
  cases hgrant : d.grantTarget with
  | none =>
    rw [hgrant] at h
    exact (Except.ok.inj h).symm
  | some grantTarget =>
    rw [hgrant] at h
    simp only at h
    split at h
    · exact (Except.ok.inj h).symm
    · cases h

/-- Whether the grant target of a user right is accepted does not depend on which of the two kinds
the right is for. -/
theorem buildPreset_userTwin (label : Label) {d : Definition} {target : TargetType}
    (huser : d.user = true) (htarget : presetTargets d = [target]) :
    buildPreset label { d with target := some (.one target.userTwin) } =
      (buildPreset label d).map fun _ => .preset label target.userTwin (.users d.grantTarget) := by
  have htwin : presetTargets { d with target := some (.one target.userTwin) } =
      [target.userTwin] := rfl
  unfold buildPreset
  rw [htwin, htarget]
  simp only [huser, if_true]
  cases d.grantTarget with
  | none => rfl
  | some grantTarget =>
    simp only [SingleRight.grantsReach_userTwin]
    split <;> rfl

/-- The changed definition makes the changed right, or is refused for the same reason. -/
theorem make_retarget (label : Label) (d : Definition) (hname : label.name = Text.trim d.name)
    (hkind : d.user = true → d.kind = .preset) :
    Builder.make (c.retarget name) label (d.retarget name) =
      (Builder.make c label d).map (Right.retarget name) := by
  rcases d.retarget_cases name with ⟨hsame, hother⟩ | ⟨target, huser, htarget, hright, hchanged⟩
  · rw [hsame]
    unfold Builder.make
    cases d.kind with
    | preset =>
      refine (map_eq_self fun right hright => Right.retarget_of_other fun huser => ?_).symm
      obtain ⟨t, audience, htargets, rfl, hisUser⟩ := buildPreset_eq_ok hright
      show label.name ≠ name
      rw [hname]
      exact hother t (hisUser.symm.trans huser) htargets
    | getAttrs =>
      refine (map_eq_self fun right hright => ?_).symm
      obtain ⟨targets, governed, rfl⟩ := buildAttrs_eq_ok hright
      rfl
    | setAttrs =>
      refine (map_eq_self fun right hright => ?_).symm
      obtain ⟨targets, governed, rfl⟩ := buildAttrs_eq_ok hright
      rfl
    | combo => exact c.buildCombo_retarget name label d
  · have hpreset : ∀ right, buildPreset label d = .ok right →
        right.retarget name = .preset label target.userTwin (.users d.grantTarget) := by
      intro right hbuilt
      rw [buildPreset_of_user huser htarget hbuilt]
      exact if_pos (hname.trans hright)
    have hmake : ∀ (c' : Catalog) (d' : Definition), d'.kind = .preset →
        Builder.make c' label d' = buildPreset label d' := by
      intro c' d' hpreset
      unfold Builder.make
      rw [hpreset]
    let changed : Definition := { d with target := some (.one target.userTwin) }
    rw [hchanged, hmake c d (hkind huser)]
    refine (hmake (c.retarget name) changed (hkind huser)).trans ?_
    rw [buildPreset_userTwin label huser htarget]
    cases hbuilt : buildPreset label d with
    | error e => rfl
    | ok right => exact congrArg Except.ok (hpreset right hbuilt).symm

/-- The changed definition is accepted as the changed right, or refused for the reason for which the
definition is. -/
theorem accept_retarget (d : Definition) :
    (c.retarget name).accept (d.retarget name) = (c.accept d).map (Right.retarget name) := by
  obtain ⟨written, hd⟩ := d.retarget_eq name
  let label : Label :=
    { name := Text.trim d.name, description := d.description, default := d.default,
      slot := if d.cache then some c.slotsUsed else none }
  -- Names, descriptions, defaults and slots are what they were.
  have hobjection : (c.retarget name).objection? (d.retarget name)
      (Text.trim (d.retarget name).name) = c.objection? d (Text.trim d.name) := by
    rw [objection?_retarget, hd]
    rfl
  have hlabel : Label.mk (Text.trim (d.retarget name).name) (d.retarget name).description
      (d.retarget name).default
      (if (d.retarget name).cache then some (c.retarget name).slotsUsed else none) = label := by
    rw [slotsUsed_retarget, hd]
  rw [Builder.accept_eq, Builder.accept_eq, hobjection, hlabel]
  cases hnone : c.objection? d (Text.trim d.name) with
  | some objection => rfl
  | none =>
    exact c.make_retarget name label d rfl fun huser => ((objection?_eq_none hnone).2.2 huser).1

/-- To define the changed right in the changed catalog is to define it and then change the
catalog. -/
theorem define_retarget (d : Definition) :
    (c.retarget name).define (d.retarget name) = (c.define d).map (·.retarget name) := by
  unfold define
  rw [accept_retarget]
  cases c.accept d with
  | error e => rfl
  | ok right =>
    show Except.ok (Catalog.mk (c.rights.map _ ++ [right].map (Right.retarget name))) =
      Except.ok (Catalog.mk ((c.rights ++ [right]).map (Right.retarget name)))
    rw [List.map_append]

/-- The changed definitions make the changed catalog, or are refused as the definitions are. -/
theorem ofDefinitions_retarget (ds : List Definition) :
    ofDefinitions (ds.map (Definition.retarget name)) =
      (ofDefinitions ds).map (·.retarget name) := by
  have hfold : ∀ c : Catalog, (ds.map (Definition.retarget name)).foldlM define (c.retarget name) =
      (ds.foldlM define c).map (·.retarget name) := by
    induction ds with
    | nil => exact fun c => rfl
    | cons d ds ih =>
      intro c
      rw [List.map_cons, List.foldlM_cons, List.foldlM_cons, define_retarget]
      cases c.define d with
      | error e => rfl
      | ok defined => exact ih defined
  exact hfold empty

end Catalog

end DirectoryRights
