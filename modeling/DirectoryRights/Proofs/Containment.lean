import Mathlib.Data.Option.Basic
import DirectoryRights.Proofs.Building
import DirectoryRights.Proofs.Bundles
import DirectoryRights.Proofs.Members

/-!
# Rights within bundles

No bundle of a catalog is empty, at any depth, and a preset that is held by a bundle is the right of
this name in the catalog. So what is in a bundle reaches no further than the bundle: it is an admin
right that does not open domains, it is granted wherever the bundle is, and it is executed only
where the bundle is. If the bundle can be granted to somebody on an entry, each preset in it could
be granted there instead.
-/

set_option autoImplicit false

namespace DirectoryRights

/-- The second right reaches no further than the first one, and could be granted in its place. -/
structure Right.Covers (bundle inner : Right) : Prop where
  /-- The inner right is for admins. -/
  admins : inner.isUserRight = false
  /-- The inner right does not open domains. -/
  border : inner.isCrossDomainAdmin = false
  /-- The inner right is granted on entries of every kind on which the bundle is. -/
  granted : ∀ t, bundle.canBeGrantedOn t = true → inner.canBeGrantedOn t = true
  /-- The bundle is executed on entries of every kind on which the inner right is. -/
  executed : ∀ t, inner.worksOn t = true → bundle.worksOn t = true

namespace Catalog

variable {c : Catalog}

/-- No bundle of a well-formed catalog is empty, at any depth. -/
theorem WellFormed.filled_form (hc : c.WellFormed) {r : Right} (hr : r ∈ c.rights) :
    r.form.Filled := by
  apply RightForm.filled_of_holds
  · intro hcombo
    exact hc.filled r hr (Option.isNone_iff_eq_none.mpr hcombo)
  · intro g hg hcombo
    obtain ⟨b, hb, rfl⟩ := hc.inner r hr g hg hcombo
    exact hc.filled b hb (Option.isNone_iff_eq_none.mpr hcombo)

/-- A right of a well-formed catalog that is in one of its bundles reaches no further than the
bundle. -/
theorem WellFormed.covers (hc : c.WellFormed) {bundle inner : Right} (hbundle : bundle ∈ c.rights)
    (hinner : inner ∈ c.rights) (h : bundle.form.Holds inner.form) : bundle.Covers inner where
  admins := (hc.admins bundle hbundle inner.form h).1
  border := decide_eq_false (hc.admins bundle hbundle inner.form h).2
  granted t hgranted := by
    rw [bundle.canBeGrantedOn_eq t (hc.filled_form hbundle)] at hgranted
    rw [inner.canBeGrantedOn_eq t (hc.filled_form hinner)]
    exact h.canBeGrantedOn hgranted
  executed t hworks := by
    rw [inner.worksOn_eq t] at hworks
    rw [bundle.worksOn_eq t]
    exact h.worksOn hworks

/-- A preset of the catalog is what a bundle of the catalog holds under its name. -/
theorem eq_of_holds_named (hc : c.WellFormed) (hleafed : c.Leafed) {bundle preset : Right}
    (hbundle : bundle ∈ c.rights) (hpreset : preset ∈ c.rights) {s : SingleRight}
    (hheld : bundle.form.Holds (.single s)) (hnamed : s.isPresetNamed preset.name = true) :
    preset = .ofSingle s := by
  obtain ⟨hkind, hname⟩ := (Bool.and_eq_true _ _).mp hnamed
  have hleaf : s ∈ bundle.leaves :=
    (bundle.mem_leaves s).mpr (hheld.mem_leaves (List.mem_singleton_self s))
  have hfound := hleafed.preset bundle hbundle s hleaf hkind
  rw [of_decide_eq_true hname, hc.get?_of_mem hpreset] at hfound
  exact Option.some.inj hfound

end Catalog

namespace Grant

variable {g : Grant}

/-- The grant of another right to the same grantee, without a modifier. -/
def ofOnly (right : Right) (g : Grant) : Grant :=
  { g with right, modifier := none }

/-- Nothing is wrong with a grant exactly if its grantee, its holder and its modifier are each in
order. -/
theorem objection?_eq_none : g.objection? = none ↔
    g.granteeObjection? = none ∧ g.holderObjection? = none ∧ g.modifierObjection? = none := by
  unfold objection?
  rw [Option.orElse_eq_none, Option.orElse_eq_none]

/-- Who may be granted an admin right may be granted any that does not open domains. -/
theorem holderObjection?_ofOnly (hadmin : g.right.isUserRight = false)
    (h : g.holderObjection? = none) {right : Right} (hborder : right.isCrossDomainAdmin = false) :
    (g.ofOnly right).holderObjection? = none := by
  have hmay : g.granteeType.mayHoldAdminRights = true := by
    unfold holderObjection? at h
    split at h
    · cases h
    · rename_i hnot
      simpa [hadmin] using hnot
  unfold holderObjection? ofOnly
  simp [hmay, hborder]

end Grant

namespace Store

variable {c : Catalog} {s : Store} {target : Entry} {bundle inner : Right}

/-- Nothing is wrong with a grant on a target exactly if it is in order and its right can be granted
there. -/
theorem objection?_eq_none {g : Grant} : objection? target g = none ↔
    g.objection? = none ∧ g.right.canBeGrantedOn target.targetType = true := by
  unfold objection?
  rw [Option.orElse_eq_none]
  cases g.right.canBeGrantedOn target.targetType <;> simp

/-- Nothing is wrong with a grant of what a bundle covers where nothing is wrong with one of the
bundle. -/
theorem objection?_ofOnly (h : bundle.Covers inner) (hadmin : bundle.isUserRight = false)
    {g : Grant} (hright : g.right = bundle) (hg : objection? target g = none) :
    objection? target (g.ofOnly inner) = none := by
  subst hright
  rw [objection?_eq_none, Grant.objection?_eq_none] at hg ⊢
  obtain ⟨⟨hgrantee, hholder, -⟩, hgranted⟩ := hg
  exact ⟨⟨hgrantee, Grant.holderObjection?_ofOnly hadmin hholder h.border, rfl⟩,
    h.granted _ hgranted⟩

/-- A request for grants goes through exactly if nothing is wrong with the grants, the stored set
can be read, and the directory takes the write if there is one to make. -/
theorem isOk_grant {gs : List Grant} : (s.grant c target gs).isOk = true ↔
    (∀ g ∈ gs, objection? target g = none) ∧
      ∃ set, s.read c target = .ok set ∧ ((set.grant gs).2 = [] ∨ s.CanWrite target) := by
  rw [← List.findSome?_eq_none_iff]
  unfold grant
  cases gs.findSome? (objection? target) with
  | some objection => exact iff_of_false Bool.false_ne_true fun h => nomatch h.1
  | none =>
    cases hread : s.read c target with
    | error e => exact iff_of_false Bool.false_ne_true fun ⟨_, _, h, _⟩ => nomatch h
    | ok set =>
      refine isOk_commit.trans ⟨fun h => ⟨rfl, set, rfl, h⟩, ?_⟩
      rintro ⟨-, other, hsame, h⟩
      cases hsame
      exact h

/-- Where a request for grants of a bundle goes through, one for grants of what it covers does, as
long as the directory takes the write that may have to be made. -/
theorem isOk_grant_ofOnly (h : bundle.Covers inner) (hadmin : bundle.isUserRight = false)
    {gs : List Grant} (hgs : ∀ g ∈ gs, g.right = bundle) (hwrite : s.CanWrite target)
    (hgranted : (s.grant c target gs).isOk = true) :
    (s.grant c target (gs.map (Grant.ofOnly inner))).isOk = true := by
  obtain ⟨hgood, set, hread, -⟩ := isOk_grant.mp hgranted
  refine isOk_grant.mpr ⟨?_, set, hread, .inr hwrite⟩
  intro single hsingle
  obtain ⟨g, hg, rfl⟩ := List.mem_map.mp hsingle
  exact objection?_ofOnly h hadmin (hgs g hg) (hgood g hg)

end Store

namespace Sample

/-- The grant of a bundle to the admin, kept from the members of nested groups. -/
def caringGrant : Grant :=
  .make "55555555-5555-5555-5555-555555555555" .user care (some .disinherit) none

/-- The definitions of the bundles and of the rights in them, and one that is refused. -/
def attempts : List Definition :=
  [.preset "listAccount" .account false, .combo "early" ["look"],
    .preset "addDistributionListMember" .distributionList false, .combo "look" ["listAccount"],
    .combo "care" ["look", "addDistributionListMember"]]

/-- The attempts end with the catalog of those that are accepted. -/
theorem tried_attempts : (Builder.tried attempts).catalog = caring.catalog := rfl

end Sample

namespace Builder

/-- Whatever definitions were tried, a bundle holds a preset exactly if a preset of this name can be
reached from it through members. Then the right of this name is what is reached, it is an admin
right that does not open domains, it is granted wherever the bundle is, and it is executed nowhere
else than the bundle. So nothing is wrong with a grant of it without a modifier if nothing is wrong
with one of the bundle to the same grantee, and a request for such grants goes through if one for
grants of the bundle does, as long as the directory takes writes. -/
theorem bundles_covered (ds : List Definition) {bundle right : Right}
    (hbundle : bundle ∈ (tried ds).catalog.rights) (hright : right ∈ (tried ds).catalog.rights) :
    (bundle.bundles right = true ↔
      ∃ s, bundle.form.Holds (.single s) ∧ s.isPreset = true ∧ s.name = right.name) ∧
    (bundle.bundles right = true → bundle.form.Holds right.form ∧ bundle.Covers right ∧
      ∀ target,
        (∀ g : Grant, g.right = bundle → Store.objection? target g = none →
          Store.objection? target (g.ofOnly right) = none) ∧
        ∀ (s : Store) (gs : List Grant), (∀ g ∈ gs, g.right = bundle) → s.CanWrite target →
          (s.grant (tried ds).catalog target gs).isOk = true →
            (s.grant (tried ds).catalog target (gs.map (Grant.ofOnly right))).isOk = true) := by
  obtain ⟨accepted, c, -, hbuilt, hrep⟩ := exists_represents_tried ds
  rw [hrep.catalog_eq] at hbundle hright ⊢
  have hformed := Catalog.wellFormed_of_ofDefinitions hbuilt
  have hreached : bundle.bundles right = true ↔
      ∃ s, bundle.form.Holds (.single s) ∧ s.isPresetNamed right.name = true := by
    rw [bundle.bundles_eq]
    exact RightForm.bundles_iff
  constructor
  · rw [hreached]
    simp [SingleRight.isPresetNamed]
  · intro hbundles
    have hcombo : bundle.isCombo = true := ((Bool.and_eq_true _ _).mp hbundles).1
    have hadmin : bundle.isUserRight = false := bundle.isUserRight_of_isCombo hcombo
    obtain ⟨s, hs, hnamed⟩ := hreached.mp hbundles
    have hsame : right = .ofSingle s := Catalog.eq_of_holds_named hformed
      (Catalog.leafed_of_ofDefinitions hbuilt) hbundle hright hs hnamed
    have hheld : bundle.form.Holds right.form := by
      rw [hsame]
      exact hs
    have hcovers : bundle.Covers right := hformed.covers hbundle hright hheld
    refine ⟨hheld, hcovers, fun target => ⟨?_, ?_⟩⟩
    · intro g hg hgood
      exact Store.objection?_ofOnly hcovers hadmin hg hgood
    · intro s gs hgs hwrite hgranted
      exact Store.isOk_grant_ofOnly hcovers hadmin hgs hwrite hgranted

/-- The right to see accounts is in a bundle in the bundle. Where the bundle is granted on a list,
this right can be granted. -/
theorem bundles_covered_sample :
    Sample.care.bundles Sample.listAccount = true ∧
    ((Store.ofDirectory Sample.domains).grant Sample.caring.catalog Sample.staff
      [Sample.caringGrant]).isOk = true ∧
    Sample.care.form.Holds Sample.listAccount.form ∧ Sample.care.Covers Sample.listAccount ∧
    ((Store.ofDirectory Sample.domains).grant Sample.caring.catalog Sample.staff
      [.make "55555555-5555-5555-5555-555555555555" .user Sample.listAccount none none]).isOk =
        true := by
  have hcare : Sample.care ∈ (tried Sample.attempts).catalog.rights := by
    rw [Sample.tried_attempts]
    simp [Sample.caring]
  have hlist : Sample.listAccount ∈ (tried Sample.attempts).catalog.rights := by
    rw [Sample.tried_attempts]
    simp [Sample.caring]
  have hbundles : Sample.care.bundles Sample.listAccount = true := by decide +kernel
  have hgranted : ((Store.ofDirectory Sample.domains).grant Sample.caring.catalog Sample.staff
      [Sample.caringGrant]).isOk = true := by
    decide +kernel
  have hwrite : (Store.ofDirectory Sample.domains).CanWrite Sample.staff :=
    ⟨by decide +kernel, rfl⟩
  have hgrant : ∀ g ∈ [Sample.caringGrant], g.right = Sample.care := by
    simp [Sample.caringGrant, Grant.make]
  obtain ⟨hheld, hcovers, haccepted⟩ := (bundles_covered Sample.attempts hcare hlist).2 hbundles
  refine ⟨hbundles, hgranted, hheld, hcovers, ?_⟩
  exact (haccepted Sample.staff).2 _ [Sample.caringGrant] hgrant hwrite hgranted

end Builder

end DirectoryRights
