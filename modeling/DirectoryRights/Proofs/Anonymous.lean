import DirectoryRights.Proofs.DecidingGrant

/-!
# Callers without identity

Grants to everyone are meant to be the only ones that reach a caller without identity, and in every
tier but that of the groups they are. In the tier of the groups an external group is asked for the
caller by the name that stands in for a missing one, so that a member of this name lets every such
caller in. Nothing else does: a caller without identity belongs to no group of the directory, and
holds no admin right.
-/

set_option autoImplicit false

namespace DirectoryRights

/-- The external group that a text names has a member with the name of callers without identity. -/
def Directory.ListsAnonymous (d : Directory) (text : String) : Prop :=
  ∃ group, ExternalGroup.parse text = .ok group ∧ d.externalContains? group .anonymous = some true

namespace Matching

variable {d : Directory} {asAdmin : Bool} {g : Grant}

/-- Callers without identity are in an external group exactly if the group lists their display
name. -/
theorem inExternalGroup_anonymous :
    inExternalGroup d.view .anonymous g = .ok true ↔ d.ListsAnonymous g.grantee := by
  unfold inExternalGroup Directory.ListsAnonymous
  cases hparse : ExternalGroup.parse g.grantee with
  | error e =>
    constructor
    · intro h
      cases h
    · rintro ⟨group, h, -⟩
      cases h
  | ok group =>
    have hasked : ((d.view.externalContains group .anonymous).map fun known => known.getD false) =
        .ok ((d.externalContains? group .anonymous).getD false) := rfl
    simp only [Except.bind, hasked]
    cases hknown : d.externalContains? group .anonymous with
    | none => simp [hknown]
    | some known => simp [hknown]

/-- A caller without identity is in no group of the directory. -/
theorem inGroup_anonymous :
    inGroup d.view .anonymous asAdmin g = .ok true ↔
      g.granteeType = .externalGroup ∧ d.ListsAnonymous g.grantee := by
  have hnone : (groupsOf d.view .anonymous asAdmin).containsText g.grantee = false := rfl
  unfold inGroup
  rw [hnone, if_neg Bool.false_ne_true]
  by_cases htype : g.granteeType = .externalGroup
  · simp [htype, inExternalGroup_anonymous]
  · simp [htype]

/-- Outside of groups callers without identity are grantees only of grants to everyone. -/
theorem isGrantee_anonymous :
    isGrantee d.view .anonymous asAdmin g = .ok true ↔ g.granteeType = .everyone := by
  unfold isGrantee
  simp

/-- The grants that match a caller without identity: in a tier of groups those to external groups
that list the display name, and in the other tiers those to everyone. -/
theorem inTier_anonymous {tier : Tier} :
    inTier d.view .anonymous asAdmin tier g = .ok true ↔
      if tier.viaGroups then g.granteeType = .externalGroup ∧ d.ListsAnonymous g.grantee
      else g.granteeType = .everyone := by
  unfold inTier
  cases tier.viaGroups with
  | true => simpa using inGroup_anonymous
  | false => simpa using isGrantee_anonymous

end Matching

/-- No rule speaks for callers without identity, and they hold no admin rights. -/
theorem Request.settled_anonymous {r : Request} {verdict : Option Decision}
    (hcaller : r.principal = .anonymous) (h : r.settled = .ok verdict) :
    verdict = none ∧ r.right.isUserRight = true := by
  have hglobal : r.principal.isGlobalAdmin = false := by
    rw [hcaller]
    rfl
  have hdelegated : r.principal.isDelegatedAdmin = false := by
    rw [hcaller]
    rfl
  unfold settled PriorRules.verdict at h
  rw [hglobal, hdelegated] at h
  cases huser : r.right.isUserRight with
  | false => simp [huser] at h
  | true =>
    simp only [huser, Bool.and_false, Bool.false_eq_true, if_false, if_true] at h
    cases hpreset : r.right.isPreset with
    | false => simp [hpreset] at h
    | true =>
      simp only [hpreset, if_true, Except.ok.injEq] at h
      exact ⟨h.symm, rfl⟩

namespace Sample

/-- A caller without identity asks whether mail may be sent in Ann's name, and by which grant. -/
def anonymousRequest : Request :=
  { Request.ofRight .anonymous ann sendAs with wantsVia := true }

/-- The group "eng@corp.example" of an external directory. -/
def engineers : ExternalGroup :=
  { domainId := "d", email := "eng@corp.example" }

/-- The directory in which Ann lets these engineers send in her name, and a member of theirs is
known by the name of callers without identity. -/
def engineered : Directory :=
  (directoryWith ["d:eng@corp.example egp sendAs"]).registerGroup engineers ["anonymous"]

end Sample

namespace AccessControl

/-- The grants that let a caller without identity in are those to everyone and those to an external
group that lists the name of such callers. -/
theorem anonymous_deciding (k : AccessControl) (d : Directory) :
    (∀ asAdmin tier g, Matching.inTier d.view .anonymous asAdmin tier g = .ok true ↔
      if tier.viaGroups then g.granteeType = .externalGroup ∧ d.ListsAnonymous g.grantee
      else g.granteeType = .everyone) ∧
    ∀ r evaluation, r.principal = .anonymous → k.uncached d r = .ok evaluation →
      evaluation.decision = .allow →
      ∃ via, k.uncached d { r with wantsVia := true } = .ok ⟨.allow, some via⟩ ∧
        via.negative = false ∧
        (via.granteeType = .everyone ∨
          via.granteeType = .externalGroup ∧ d.ListsAnonymous via.grantee) := by
  refine ⟨fun asAdmin tier g => Matching.inTier_anonymous, ?_⟩
  intro r evaluation hcaller h hallow
  obtain ⟨verdict, hsettled⟩ := settled_of_uncached h
  obtain ⟨rfl, huser⟩ := Request.settled_anonymous hcaller hsettled
  have hcourse : (r.inquiry d.view).course = .search none :=
    (r.inquiry d.view).course_of_user huser
  obtain ⟨g, tier, via, hreported, htype, hgrantee, hnegative, hpositive, -, hanswers⟩ :=
    exists_deciding hsettled hcourse h hallow
  have hprincipal : (r.inquiry d.view).principal = .anonymous := hcaller
  have hmatched := hanswers.matched
  rw [hprincipal] at hmatched
  have hreached := Matching.inTier_anonymous.mp hmatched
  refine ⟨via, hreported, hnegative.trans hpositive, ?_⟩
  rw [htype, hgrantee]
  cases hgroups : tier.viaGroups with
  | true =>
    rw [hgroups, if_pos rfl] at hreached
    exact .inr hreached
  | false =>
    rw [hgroups, if_neg Bool.false_ne_true] at hreached
    exact .inl hreached

/-- A grant to everyone lets in a caller without identity. -/
theorem anonymous_deciding_sample :
    ∃ via, Sample.control.uncached
        (Sample.directoryWith ["99999999-9999-9999-9999-999999999999 pub sendAs"])
        Sample.anonymousRequest = .ok ⟨.allow, some via⟩ ∧ via.granteeType = .everyone := by
  obtain ⟨evaluation, h, hallow⟩ := Store.exists_ok_of_any
    (x := Sample.control.uncached
      (Sample.directoryWith ["99999999-9999-9999-9999-999999999999 pub sendAs"])
      Sample.anonymousRequest)
    (p := (·.decision = .allow)) (by decide +kernel)
  obtain ⟨via, hvia, -, htype | ⟨-, group, -, hlisted⟩⟩ :=
    (anonymous_deciding Sample.control _).2 Sample.anonymousRequest evaluation rfl h
      (of_decide_eq_true hallow)
  · exact ⟨via, hvia, htype⟩
  · -- There is no external group.
    cases hlisted

/-- A member of an external group who is known by the name of callers without identity lets all of
them in, though the grant is to the group. -/
theorem anonymous_let_in :
    Catalog.ofDefinitions [Sample.definition] = .ok Sample.control.catalog ∧
    ∃ via, Sample.control.uncached Sample.engineered Sample.anonymousRequest =
        .ok ⟨.allow, some via⟩ ∧ via.granteeType = .externalGroup ∧
      Matching.inTier Sample.engineered.view .anonymous false ⟨[.group], true⟩
        (.make "d:eng@corp.example" .externalGroup Sample.sendAs none none) = .ok true := by
  let via : Via :=
    { targetType := some .account, targetName := some "ann@example.com",
      granteeType := .externalGroup, grantee := "d:eng@corp.example", right := "sendAs",
      negative := false }
  refine ⟨Sample.catalog_built, via, ?_, rfl, ?_⟩
  · decide +kernel
  · decide +kernel

end AccessControl

end DirectoryRights
