import DirectoryRights.Proofs.DecidingGrant
import DirectoryRights.Proofs.Leaves
import DirectoryRights.Proofs.Loosening
import DirectoryRights.Proofs.Ruling

/-!
# Whose admins a domain lets in

Whether the admins of one domain may administer another is read from the grants of the second domain
alone. They are searched for the first one that is about the first domain, and since a set holds one
grant for each slot, there is no second one: the order of the search does not matter. No bundle of a
catalog holds the right in question, so that only grants of the right itself count.
-/

set_option autoImplicit false

namespace DirectoryRights

/-- A grant of the right that opens domains, to the domain of an id, by which admins of this domain
may use the right, or pass it on. -/
structure Grant.Opens (right : Right) (holder : EntryId) (delegate : Bool) (g : Grant) : Prop where
  /-- The grant is of the right itself. -/
  right : g.right = right
  /-- The grantee is a domain. -/
  granteeType : g.granteeType = .domain
  /-- This domain has the id. -/
  grantee : g.grantee = holder.text
  /-- The grant does not deny. -/
  positive : g.denies = false
  /-- The right may be passed on, if this is what is asked for. -/
  delegable : delegate = true → g.isDelegable = true

namespace DomainBorder

/-- Where grants have different slots, a domain is open exactly if one of them opens it, in whatever
order they come. -/
theorem decide_eq_allow_iff {domainId : String} {delegate : Bool} {gs : List Grant}
    (hdistinct : (gs.map Grant.slot).Nodup) :
    decide domainId delegate gs = .allow ↔
      ∃ g ∈ gs, concerns domainId g = true ∧ g.denies = false ∧
        (delegate = true → g.isDelegable = true) := by
  rw [Inquiry.decide_eq_allow]
  constructor
  · rintro ⟨g, hfound, hpositive⟩
    have hg := List.find?_some hfound
    rw [Bool.and_eq_true] at hg
    refine ⟨g, List.mem_of_find?_eq_some hfound, hg.1, hpositive, fun hdelegate => ?_⟩
    have huse := hg.2
    rw [hdelegate, Grant.isForUse, hpositive] at huse
    simpa using huse
  · rintro ⟨g, hg, hconcerns, hpositive, hdelegable⟩
    have hsuits : (concerns domainId g && !(delegate && g.isForUse)) = true := by
      rw [hconcerns, Grant.isForUse]
      cases delegate with
      | false => rfl
      | true => simp [hdelegable rfl]
    -- What is found first may be another grant, but it is about the same domain.
    have hsome : (gs.find? fun g => concerns domainId g && !(delegate && g.isForUse)).isSome =
        true := List.find?_isSome.mpr ⟨g, hg, hsuits⟩
    obtain ⟨found, hfound⟩ := Option.isSome_iff_exists.mp hsome
    have hother := List.find?_some hfound
    rw [Bool.and_eq_true] at hother
    obtain rfl : found = g :=
      eq_of_concerns hdistinct (List.mem_of_find?_eq_some hfound) hg hother.1 hconcerns
    exact ⟨found, hfound, hpositive⟩

/-- Where grants do not open a border they deny it. -/
theorem decide_eq_deny_of_ne_allow {domainId : String} {delegate : Bool} {gs : List Grant}
    (h : decide domainId delegate gs ≠ .allow) : decide domainId delegate gs = .deny := by
  unfold decide at h ⊢
  split
  · rename_i g hfound
    rw [hfound] at h
    by_cases hdeny : g.denies = true
    · exact if_pos hdeny
    · exact absurd (if_neg hdeny) h
  · rfl

/-- The stored grants about a border are those of the right that opens domains. -/
theorem concerns_iff {c : Catalog} {right : Right} (hright : c.get? crossDomainAdmin = some right)
    {g : Grant} (hknown : c.lookup g.right.name = .ok g.right) {domainId : String} :
    concerns domainId g = true ↔
      g.right = right ∧ g.granteeType = .domain ∧ g.grantee = domainId := by
  have hsame : g.right.isCrossDomainAdmin = true ↔ g.right = right := by
    unfold Right.isCrossDomainAdmin
    rw [decide_eq_true_iff]
    constructor
    · intro hname
      rw [hname, Catalog.lookup, hright] at hknown
      exact (Except.ok.inj hknown).symm
    · rintro rfl
      simpa using List.find?_some hright
  unfold concerns
  rw [Bool.and_eq_true, Bool.and_eq_true, decide_eq_true_iff, decide_eq_true_iff, hsame, and_assoc]

/-- The grants stored on a domain open it exactly if one of them is a grant of the right. -/
theorem decide_stored {c : Catalog} {right : Right} (hright : c.get? crossDomainAdmin = some right)
    {e : Entry} {lines : List String} {set : GrantSet} (hset : GrantSet.parse c e lines = .ok set)
    {holder : EntryId} {delegate : Bool} :
    decide holder.text delegate set.all = .allow ↔
      ∃ g ∈ set.grants, g.Opens right holder delegate := by
  have hdistinct : (set.all.map Grant.slot).Nodup :=
    ((Grant.ranked_perm set.grants).map Grant.slot).nodup_iff.mpr
      (GrantSet.distinct_of_parse hset)
  rw [decide_eq_allow_iff hdistinct]
  constructor
  · rintro ⟨g, hg, hconcerns, hpositive, hdelegable⟩
    have hmem := Grant.mem_ranked.mp hg
    obtain ⟨hsame, htype, hgrantee⟩ :=
      (concerns_iff hright (GrantSet.writable_of_stored hset hmem).2).mp hconcerns
    exact ⟨g, hmem, hsame, htype, hgrantee, hpositive, hdelegable⟩
  · rintro ⟨g, hg, hopens⟩
    have hconcerns := (concerns_iff hright (GrantSet.writable_of_stored hset hg).2).mpr
      ⟨hopens.right, hopens.granteeType, hopens.grantee⟩
    exact ⟨g, Grant.mem_ranked.mpr hg, hconcerns, hopens.positive, hopens.delegable⟩

end DomainBorder

/-- No bundle of a catalog holds the right that opens domains. -/
theorem Catalog.Leafed.bundles_eq_false {c : Catalog} (hc : c.Leafed) {right bundle : Right}
    (hright : c.get? crossDomainAdmin = some right) (hbundle : bundle ∈ c.rights) :
    bundle.bundles right = false := by
  have hname : right.name = crossDomainAdmin := by simpa using List.find?_some hright
  unfold Right.bundles Right.meets
  cases hcombo : bundle.isCombo with
  | false => rfl
  | true =>
    rw [Bool.true_and, List.any_eq_false]
    intro s hs hnamed
    unfold SingleRight.isPresetNamed at hnamed
    rw [Bool.and_eq_true, decide_eq_true_iff, hname] at hnamed
    exact hc.border bundle hbundle hcombo s hs hnamed.1 hnamed.2

namespace AccessControl

variable {k : AccessControl} {d : Directory} {r : Request} {e holder : Entry}

/-- No rule comes before the grants where a delegated admin asks for an admin right on a domain. -/
theorem verdict_of_delegated (hprincipal : r.principal = .entry e)
    (hdelegated : e.isDelegatedAdmin = true) (hglobal : e.isGlobalAdmin = false)
    (hasAdmin : r.asAdmin = true) (hadmin : r.right.isUserRight = false)
    (hdomain : r.target.isDomain = true) :
    PriorRules.verdict r.principal r.target r.right r.asAdmin = .ok none := by
  have htarget : r.target.isGlobalAdmin = false := by
    rw [Entry.isDomain, decide_eq_true_iff, Entry.targetType] at hdomain
    unfold Entry.isGlobalAdmin
    cases hkind : r.target.kind <;> rw [hkind] at hdomain <;> first | rfl | cases hdomain
  have hnotGlobal : r.principal.isGlobalAdmin = false := by
    rw [hprincipal]
    exact hglobal
  have hrank : r.principal.isDelegatedAdmin = true := by
    rw [hprincipal]
    exact hdelegated
  unfold PriorRules.verdict
  rw [hasAdmin, hnotGlobal, hadmin, hrank, htarget]
  rfl

/-- Where no rule comes before the grants, the check of the right that opens domains looks at the
border of the target. -/
theorem course_of_opening (hprincipal : r.principal = .entry e)
    (hverdict : PriorRules.verdict r.principal r.target r.right r.asAdmin = .ok none)
    (hadmin : r.right.isUserRight = false) (hcross : r.right.isCrossDomainAdmin = true)
    (hholder : d.homeDomain? e = some holder) :
    (r.inquiry d.view).course = .border holder := by
  obtain ⟨asker, hasker, hmay⟩ := mayUseAdminRights_of_verdict hadmin hverdict
  have hasks : ((r.inquiry d.view).principal.entry?.filter
      fun _ => (r.inquiry d.view).principal.mayUseAdminRights) = some e := by
    show (r.principal.entry?.filter fun _ => r.principal.mayUseAdminRights) = some e
    rw [hmay, hprincipal]
    rfl
  have hhome : (r.inquiry d.view).holderDomain e = .ok holder := by
    have hanswer : (r.inquiry d.view).view.homeDomain e = .ok (some holder) :=
      congrArg Except.ok hholder
    unfold Inquiry.holderDomain
    rw [hanswer]
  have hright : (r.inquiry d.view).right.isCrossDomainAdmin = true := hcross
  have hasked : (r.inquiry d.view).isAdminRight = true := congrArg not hadmin
  unfold Inquiry.course
  rw [if_pos hasked, hasks]
  simp only [hhome, if_pos hright]

/-- A check at a border, with no decision and no set remembered, reports what the stored lines say
of it. -/
theorem evaluateFresh_of_border (hsettled : r.settled = .ok none)
    (hcourse : (r.inquiry d.view).course = .border holder) :
    k.evaluateFresh (.ofDirectory d) r =
      ((DomainBorder.check holder r.target r.delegate).eval
        (Store.fresh k.catalog (.ofDirectory d))).map Evaluation.bare := by
  have hanswer := (r.inquiry d.view).eval_follow_border
    (Store.fresh k.catalog (.ofDirectory d)) holder
  rw [← hcourse, ← Inquiry.answer_eq_follow] at hanswer
  unfold evaluateFresh
  rw [hsettled]
  show (r.reading d.view).eval _ = _
  rw [r.reading_eval, hanswer]
  show Except.map _ (Except.map _ ((DomainBorder.check holder r.target r.delegate).eval _)) = _
  have hbare : ∀ decision, r.report decision none = .bare decision := by
    intro decision
    unfold Request.report
    cases r.wantsVia <;> rfl
  cases (DomainBorder.check holder r.target r.delegate).eval
      (Store.fresh k.catalog (.ofDirectory d)) with
  | error cause => rfl
  | ok decision => exact congrArg Except.ok (hbare decision)

/-- A check that reports no grant reports the same from a directory. -/
theorem uncached_eq_bare {decision : Decision}
    (h : k.evaluateFresh (.ofDirectory d) r = .ok (.bare decision)) :
    k.uncached d r = .ok (.bare decision) := by
  have hunplaced := k.uncached_unplaced d r
  rw [h] at hunplaced
  cases hreported : k.uncached d r with
  | error cause =>
    rw [hreported] at hunplaced
    cases hunplaced
  | ok evaluation =>
    obtain ⟨reported, via⟩ := evaluation
    rw [hreported] at hunplaced
    cases via with
    | none =>
      exact hunplaced
    | some via => cases hunplaced

/-- A delegated admin asks, as an admin, for a right on a domain. -/
structure AsksOnDomain (e : Entry) (r : Request) : Prop where
  /-- The admin asks. -/
  principal : r.principal = .entry e
  /-- The admin is a delegated one. -/
  delegated : e.isDelegatedAdmin = true
  /-- The admin is not a global one. -/
  notGlobal : e.isGlobalAdmin = false
  /-- The admin acts as an admin. -/
  asAdmin : r.asAdmin = true
  /-- The target is a domain. -/
  domain : r.target.isDomain = true

/-- The check of the right that opens domains decides by the grants of the target. -/
theorem AsksOnDomain.uncached_eq (h : AsksOnDomain e r)
    (hright : k.catalog.get? crossDomainAdmin = some r.right) (hpreset : r.right.isPreset = true)
    (hadmin : r.right.isUserRight = false) (hholder : d.homeDomain? e = some holder)
    {set : GrantSet} (hset : GrantSet.parse k.catalog r.target
      (d.valuesOf r.target.id Store.grantAttribute) = .ok set) :
    k.uncached d r = .ok (.bare (DomainBorder.decide holder.id.text r.delegate set.all)) := by
  have hcross : r.right.isCrossDomainAdmin = true := List.find?_some hright
  have hverdict := verdict_of_delegated h.principal h.delegated h.notGlobal h.asAdmin hadmin
    h.domain
  have hsettled : r.settled = .ok none := by
    unfold Request.settled
    rw [hverdict]
    exact if_pos hpreset
  have hcourse := course_of_opening h.principal hverdict hadmin hcross hholder
  apply uncached_eq_bare
  rw [evaluateFresh_of_border hsettled hcourse, Inquiry.check_eval, if_pos h.domain,
    Store.fresh_eq, hset]
  show Except.ok (Evaluation.bare (DomainBorder.decide _ _ ((Store.present set).elim [] _))) = _
  rw [GrantSet.elim_present]

/-- The admin is allowed to open the domain, or to pass this on, exactly if a grant says so. -/
theorem AsksOnDomain.uncached_iff (h : AsksOnDomain e r)
    (hright : k.catalog.get? crossDomainAdmin = some r.right) (hpreset : r.right.isPreset = true)
    (hadmin : r.right.isUserRight = false) (hholder : d.homeDomain? e = some holder)
    {set : GrantSet} (hset : GrantSet.parse k.catalog r.target
      (d.valuesOf r.target.id Store.grantAttribute) = .ok set) :
    ((∃ g ∈ set.grants, g.Opens r.right holder.id r.delegate) →
        k.uncached d r = .ok (.bare .allow)) ∧
      ((¬ ∃ g ∈ set.grants, g.Opens r.right holder.id r.delegate) →
        k.uncached d r = .ok (.bare .deny)) := by
  have hdecided := h.uncached_eq hright hpreset hadmin hholder hset
  have hopen : DomainBorder.decide holder.id.text r.delegate set.all = .allow ↔ _ :=
    DomainBorder.decide_stored hright hset
  constructor
  · intro hopens
    rw [hdecided, hopen.mpr hopens]
  · intro hcloses
    rw [hdecided, DomainBorder.decide_eq_deny_of_ne_allow (mt hopen.mp hcloses)]

/-- Over a catalog that comes from definitions, a delegated admin is allowed to open a domain, or to
pass this on, exactly if the domain itself stores a grant of the right to the domain of the admin by
which it may be used or passed on, and denied it otherwise. No bundle holds the right, and nothing
that is stored on another entry or of another right changes the answer. -/
theorem uncached_opening {definitions : List Definition}
    (hbuilt : Catalog.ofDefinitions definitions = .ok k.catalog)
    (hright : k.catalog.get? crossDomainAdmin = some r.right) (hpreset : r.right.isPreset = true)
    (hadmin : r.right.isUserRight = false) (h : AsksOnDomain e r)
    (hholder : d.homeDomain? e = some holder) {set : GrantSet}
    (hset : GrantSet.parse k.catalog r.target
      (d.valuesOf r.target.id Store.grantAttribute) = .ok set) :
    ((∃ g ∈ set.grants, g.Opens r.right holder.id r.delegate) →
        k.uncached d r = .ok (.bare .allow)) ∧
      ((¬ ∃ g ∈ set.grants, g.Opens r.right holder.id r.delegate) →
        k.uncached d r = .ok (.bare .deny)) ∧
      (∀ bundle ∈ k.catalog.rights, bundle.bundles r.right = false) ∧
      ∀ (d' : Directory) (holder' : Entry) (set' : GrantSet),
        d'.homeDomain? e = some holder' → holder'.id = holder.id →
        GrantSet.parse k.catalog r.target
          (d'.valuesOf r.target.id Store.grantAttribute) = .ok set' →
        (∀ g, g.right = r.right → (g ∈ set'.grants ↔ g ∈ set.grants)) →
        k.uncached d' r = k.uncached d r := by
  have hdecided := h.uncached_iff hright hpreset hadmin hholder hset
  refine ⟨hdecided.1, hdecided.2, fun bundle => ?_, ?_⟩
  · exact (Catalog.leafed_of_ofDefinitions hbuilt).bundles_eq_false hright
  · intro d' holder' set' hholder' hid hset' hsame
    have hdecided' := h.uncached_iff hright hpreset hadmin hholder' hset'
    have hgrants : (∃ g ∈ set'.grants, g.Opens r.right holder'.id r.delegate) ↔
        ∃ g ∈ set.grants, g.Opens r.right holder.id r.delegate := by
      rw [hid]
      constructor
      · rintro ⟨g, hg, hopens⟩
        exact ⟨g, (hsame g hopens.right).mp hg, hopens⟩
      · rintro ⟨g, hg, hopens⟩
        exact ⟨g, (hsame g hopens.right).mpr hg, hopens⟩
    by_cases hopens : ∃ g ∈ set.grants, g.Opens r.right holder.id r.delegate
    · rw [hdecided.1 hopens, hdecided'.1 (hgrants.mpr hopens)]
    · rw [hdecided.2 hopens, hdecided'.2 (mt hgrants.mp hopens)]

/-- The second domain lets the admin of the first one open it. -/
theorem uncached_opening_sample :
    Sample.office.uncached (Sample.storing Sample.away Sample.openingLine Sample.domains)
      (.ofRight (.entry Sample.admin) Sample.away Sample.opening) = .ok (.bare .allow) := by
  let stored : Grant :=
    { Grant.make Sample.home.id.text .domain Sample.opening none none with
      origin := some { targetType := .domain, targetName := "away.com" } }
  have hset : GrantSet.parse Sample.office.catalog Sample.away
      ((Sample.storing Sample.away Sample.openingLine Sample.domains).valuesOf Sample.away.id
        Store.grantAttribute) = .ok ⟨[stored]⟩ := by
    rfl
  have hholder : (Sample.storing Sample.away Sample.openingLine Sample.domains).homeDomain?
      Sample.admin = some Sample.home := by
    decide +kernel
  have hasks : AsksOnDomain Sample.admin
      (.ofRight (.entry Sample.admin) Sample.away Sample.opening) := ⟨rfl, rfl, rfl, rfl, rfl⟩
  have h := uncached_opening Sample.office_catalog_built rfl rfl rfl hasks hholder hset
  have hopens : stored.Opens Sample.opening Sample.home.id false :=
    ⟨rfl, rfl, rfl, rfl, fun hdelegate => nomatch hdelegate⟩
  exact h.1 ⟨stored, List.mem_singleton_self _, hopens⟩

end AccessControl

end DirectoryRights
