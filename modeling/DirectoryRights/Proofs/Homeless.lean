import DirectoryRights.Proofs.Ruling

/-!
# Targets whose domain is not known

Whether positive grants of a foreign group count for an admin is asked of the domain in which the
target lives. A kind of entry that lives in no domain has nobody to ask, and all groups count for
it. An entry of a kind that does live in a domain, but whose domain cannot be found, is treated in
the same way: all its groups count, the foreign ones too, and no level is that of a domain. So an
entry that lost its domain is open to the admins of all domains whose groups it is in.
-/

set_option autoImplicit false

namespace DirectoryRights

namespace Inquiry

variable {q : Inquiry}

/-- The levels above an entry without a domain, if all its groups count wherever they live. -/
def ungated (q : Inquiry) (source : Entry → GrantAnswer) : List Level :=
  [⟨false, (source q.target).grants⟩,
    ⟨false, (Ancestry.groups q.view q.target true).flatMap fun (group, direct) =>
      (source group).grants.filter fun g => g.denies || direct || !g.isDisinherit⟩,
    ⟨false, (source Directory.globalGrant).grants⟩]

/-- Without a domain of the target every group counts. -/
theorem groupCounts_homeless (holder : Option Entry) (group : Entry) :
    q.groupCounts holder none group = pure true := by
  cases holder <;> rfl

/-- Where the domain of the target leads nowhere, none is known. -/
theorem home_homeless {d : Directory} (hview : q.view = d.view)
    (hlives : q.target.targetType.livesInDomain = true) (h : d.homeDomain? q.target = none) :
    q.home = none := by
  unfold home
  rw [q.targetHome_of_lives hview hlives, h]
  rfl

/-- No domain stands above a target without one. -/
theorem knownStops_homeless {d : Directory}
    (hlives : q.target.targetType.livesInDomain = true) (h : d.homeDomain? q.target = none) :
    q.knownStops d = [(Directory.globalGrant, false)] := by
  have hglobal : q.target.targetType ≠ .global := by
    intro hglobal
    rw [hglobal] at hlives
    cases hlives
  unfold knownStops
  rw [domains_of_lives hlives, h, if_neg hglobal]
  simp

/-- Of a group of a target without a domain all counts but what is kept from nested groups. -/
theorem groupShare_homeless (hhome : q.home = none) (source : Entry → GrantAnswer) (group : Entry)
    (direct : Bool) :
    q.groupShare source (.group group direct) =
      (source group).grants.filter fun g => g.denies || direct || !g.isDisinherit := by
  unfold groupShare
  simp only [hhome, groupCounts_homeless, Reading.eval_pure, Bool.true_and, Bool.or_assoc]

/-- The levels above a target without a domain are those in which every group counts. -/
theorem standing_homeless {d : Directory} (hview : q.view = d.view) (hadmin : q.isAdminRight = true)
    (hlives : q.target.targetType.livesInDomain = true) (h : d.homeDomain? q.target = none)
    (source : Entry → GrantAnswer) : q.standing source = q.ungated source := by
  have hnone := home_homeless hview hlives h
  rw [q.standing_ofDirectory hview, knownStops_homeless hlives h, q.expandsGroups_of_admin hadmin]
  simp only [groupShare_homeless hnone]
  rfl

end Inquiry

namespace Sample

/-- An account that is said to live in a domain, if in any, but in none of the directory. -/
def stray (domainId : Option EntryId) : Entry :=
  { account 9 "stray@away.com" with domainId }

/-- The directory in which this account is in the list of the first domain, and the list lets the
admin see accounts. -/
def straying (domainId : Option EntryId) : Directory :=
  storing team adminLine
    ((directoryOf [home, admin, team, stray domainId]).enroll team.id (stray domainId).id)

end Sample

namespace AccessControl

variable {k : AccessControl}

/-- For an admin right on an entry whose domain cannot be found, all groups of the entry count,
wherever they live. -/
theorem decision_of_homeless {d : Directory} {r : Request} {evaluation : Evaluation}
    (hrules : PriorRules.verdict r.principal r.target r.right r.asAdmin = .ok none)
    (hadmin : r.right.isUserRight = false) (hcross : r.right.isCrossDomainAdmin = false)
    (hlives : r.target.targetType.livesInDomain = true) (hhome : d.homeDomain? r.target = none)
    (h : k.uncached d r = .ok evaluation) :
    evaluation.decision = (r.inquiry d.view).ruling
      ((r.inquiry d.view).ungated (Store.fresh k.catalog (.ofDirectory d))) := by
  have hdecided := k.decision_uncached d r
  rw [h] at hdecided
  have hasked : (r.inquiry d.view).isAdminRight = true := congrArg not hadmin
  rw [decided_eq_ruling hrules hcross hdecided.symm,
    Inquiry.standing_homeless rfl hasked hlives hhome]

/-- What the list of the admin's own domain says of the stray account decides. -/
theorem decision_of_homeless_sample :
    let q := (Sample.listing (Sample.stray none)).inquiry (Sample.straying none).view
    Decision.allow = q.ruling (q.ungated
      (Store.fresh Sample.office.catalog (.ofDirectory (Sample.straying none)))) := by
  have h : Sample.office.uncached (Sample.straying none) (Sample.listing (Sample.stray none)) =
      .ok (.bare .allow) := by
    decide +kernel
  exact decision_of_homeless rfl rfl (by decide) rfl (by decide +kernel) h

/-- Whether an account has no domain or that of an id that leads nowhere, the grant of a list in
another domain decides. -/
theorem homeless_let_in :
    Catalog.ofDefinitions Sample.officeDefinitions = .ok Sample.office.catalog ∧
      ∀ domainId ∈ [none, some (Sample.idOf 4)],
        (Sample.straying domainId).homeDomain? (Sample.stray domainId) = none ∧
        Sample.office.uncached (Sample.straying domainId)
            { Sample.listing (Sample.stray domainId) with wantsVia := true } =
          .ok ⟨.allow, some { targetType := some .distributionList,
                              targetName := some "team@home.com",
                              granteeType := .user,
                              grantee := "55555555-5555-5555-5555-555555555555",
                              right := "listAccount",
                              negative := false }⟩ := by
  refine ⟨Sample.office_catalog_built, ?_⟩
  decide +kernel

end AccessControl

end DirectoryRights
