import DirectoryRights.Proofs.Loosening
import DirectoryRights.Proofs.Rereading

/-!
# Grants act in one direction

A denial takes away and a positive grant gives. After a denial was added to an entry, whoever is
allowed something was allowed it before; after a positive grant of a new slot was added, whoever was
allowed something still is. This is said of every check on every target, not only on the entry, and
also of the grants that open a domain to the admins of another.

There is one exception. A new denial takes the place of the one of its slot, and where grants carry
a secret, the old denial may have met somebody with the old secret whom the new one does not meet.
For this somebody a denial goes, and another grant may now allow a right that was denied by it. The
answers about all other rights stay under the rule.
-/

set_option autoImplicit false

namespace DirectoryRights

namespace Grant

/-- Grants that say the same have the same line. -/
theorem line_of_same {g h : Grant} (hsame : h.same g = true) : h.line = g.line := by
  obtain ⟨hslot, hmodifier, hsecret⟩ := same_iff.mp hsame
  obtain ⟨hgrantee, htype, hname⟩ := Slot.mk.inj hslot
  unfold line granteeField rightField
  rw [hgrantee, htype, hname, hmodifier, hsecret]

end Grant

namespace GrantSet

/-- The order of the search of a set that was read in this order. -/
theorem all_of_reread (s : GrantSet) : (GrantSet.mk (s.all.map Grant.unplaced)).all =
    s.all.map Grant.unplaced := by
  show Grant.ranked ((Grant.ranked s.grants).map Grant.unplaced) = _
  rw [Grant.ranked_map_unplaced, Grant.ranked_ranked]
  rfl

/-- Two grants that say the same leave the same lines. -/
theorem lines_insert_of_same (s : GrantSet) {g h : Grant} (hsame : h.same g = true) :
    (s.insert g).lines = (s.insert h).lines := by
  have hline := Grant.line_of_same hsame
  obtain ⟨hslot, hmodifier, hsecret⟩ := Grant.same_iff.mp hsame
  have hholds : s.holds g = s.holds h := by
    unfold holds Grant.same Grant.sameTerms
    rw [hslot, hmodifier, hsecret]
  unfold insert
  rw [hholds, hslot]
  by_cases hheld : s.holds h = true
  · rw [if_pos hheld, if_pos hheld]
  · rw [if_neg hheld, if_neg hheld]
    have hkind : ∀ p : Grant → Bool, p g = p h →
        ([g].filter p).map Grant.line = ([h].filter p).map Grant.line := by
      intro p hp
      rw [List.filter_singleton, List.filter_singleton, hp]
      cases p h with
      | true => exact congrArg (fun line => [line]) hline.symm
      | false => rfl
    unfold lines all Grant.ranked
    simp only [List.filter_append, List.map_append]
    rw [hkind Grant.denies, hkind Grant.isDelegable, hkind Grant.isForUse]
    · unfold Grant.isForUse Grant.isDelegable Grant.denies
      rw [hmodifier]
    · unfold Grant.isDelegable
      rw [hmodifier]
    · unfold Grant.denies
      rw [hmodifier]

end GrantSet

namespace Store

variable {c : Catalog}

/-- What is read of an entry, without where it was found. -/
theorem fresh_unplaced {s : Store} (hs : s.outages = []) {target : Entry} {set : GrantSet}
    (hread : s.read c target = .ok set) {e : Entry} (he : e.id = target.id) :
    (fresh c s e).unplaced = .ok (present set.unplaced) := by
  have hsame := GrantSet.parse_unplaced c e target (s.directory.valuesOf e.id grantAttribute)
  rw [← read_eq c hs, he, ← read_eq c hs, hread] at hsame
  unfold fresh
  cases hown : s.read c e with
  | error cause =>
    rw [hown] at hsame
    cases hsame
  | ok own =>
    rw [hown] at hsame
    show Except.ok ((present own).map GrantSet.unplaced) = _
    rw [GrantSet.present_unplaced, Except.ok.inj hsame]

/-- What is read after a grant was added that is read back as one that says the same. -/
theorem fresh_unplaced_of_grant {s t : Store} (hs : s.outages = []) {target : Entry}
    {set : GrantSet} (hread : s.read c target = .ok set) {g again : Grant}
    (hagain : Grant.parse c g.line = .ok again) (hsame : again.same g = true)
    (h : Written target (set.insert g).lines s t) {e : Entry} (he : e.id = target.id) :
    (fresh c t e).unplaced = .ok (present ⟨(set.insert again).all.map Grant.unplaced⟩) := by
  have hstored := parse_of_read hread
  have hmem : ∀ x ∈ (set.insert again).grants,
      x.Writable ∧ c.lookup x.right.name = .ok x.right := by
    intro x hx
    rcases GrantSet.mem_insert hx with hold | rfl
    · exact GrantSet.writable_of_stored hstored hold
    · obtain ⟨field, right, hfields⟩ := Grant.read_of_parse hagain
      exact ⟨Grant.writable_of_parse hagain, hfields.found⟩
  have hparse := GrantSet.parse_lines ((GrantSet.distinct_of_parse hstored).insert again)
    (fun x hx => (hmem x hx).2) (fun x hx => (hmem x hx).1) target
  rw [← set.lines_insert_of_same hsame, ← h.read_target hread] at hparse
  rw [fresh_unplaced (h.outages.trans hs) hparse he]
  unfold GrantSet.unplaced
  rw [List.map_map]
  rfl

/-- Either an entry has the grants of the set, and then those with the new one, or it is another
entry than the target, and nothing about it changed. -/
theorem fresh_cases_of_grant {s t : Store} (hs : s.outages = []) {target : Entry}
    {set : GrantSet} (hread : s.read c target = .ok set) {g again : Grant}
    (hagain : Grant.parse c g.line = .ok again) (hsame : again.same g = true)
    (h : Written target (set.insert g).lines s t) (e : Entry) :
    ((fresh c s e).unplaced = .ok (present set.unplaced) ∧
        (fresh c t e).unplaced = .ok (present ⟨(set.insert again).all.map Grant.unplaced⟩)) ∨
      fresh c t e = fresh c s e := by
  by_cases he : e.id = target.id
  · exact .inl ⟨fresh_unplaced hs hread he, fresh_unplaced_of_grant hs hread hagain hsame h he⟩
  · refine .inr ?_
    unfold fresh
    rw [h.read_other hs he]

end Store

namespace Inquiry

variable {q : Inquiry}

/-- A harmless grant is harmless wherever it was found. -/
theorem harmless_unplaced {g : Grant} (h : q.Harmless g) : q.Harmless g.unplaced := by
  rcases h with hpositive | ⟨hsecret, hnever⟩
  · exact .inl hpositive
  · refine .inr ⟨hsecret, fun hmeets tier htier hanswers => hnever hmeets tier htier ?_⟩
    exact ⟨hanswers.admitted, hanswers.matched⟩

/-- Sets whose grants become looser, as they are read. -/
theorem looserAnswer_of_sets {before after : GrantSet} (h : q.Looser before.all after.all) :
    q.LooserAnswer (.ok (Store.present before)) (.ok (Store.present after)) := by
  refine .ok ?_
  rw [GrantSet.elim_present, GrantSet.elim_present]
  exact h

/-- Grants become looser in the same way without where they were found. -/
theorem Looser.unplaced {xs ys : List Grant} (h : q.Looser xs ys) :
    q.Looser (xs.map Grant.unplaced) (ys.map Grant.unplaced) :=
  Relaxed.map (f := Grant.unplaced) (fun _ hg => hg) (fun _ hg => harmless_unplaced hg) h

/-- A set without some grants, and the set itself. -/
theorem looser_of_filter {p : Grant → Bool} {gs : List Grant}
    (h : ∀ g ∈ gs, p g = false → q.Harmless g) : q.Looser (gs.filter p) gs := by
  induction gs with
  | nil => exact .nil
  | cons g rest ih =>
    have hrest := ih fun x hx => h x (List.mem_cons_of_mem _ hx)
    rw [List.filter_cons]
    cases hp : p g with
    | true => exact .keep g hrest
    | false => exact .add (h g List.mem_cons_self hp) hrest

/-- Taking a denial back makes a set looser, unless it had replaced one that the principal met. -/
theorem looser_of_denial {set : GrantSet} {g : Grant} (hdeny : g.denies = true)
    (hreplaced : ∀ old ∈ set.grants, old.slot = g.slot → ¬ old.same g = true → q.Harmless old) :
    q.Looser (set.insert g).grants set.grants := by
  unfold GrantSet.insert
  by_cases hheld : set.holds g = true
  · rw [if_pos hheld]
    exact Relaxed.refl _
  · rw [if_neg hheld]
    have hkept : q.Looser (set.grants.filter (·.slot ≠ g.slot)) set.grants := by
      refine looser_of_filter fun old hold hslot => ?_
      refine hreplaced old hold (by simpa using hslot) fun hsame => hheld ?_
      exact List.any_eq_true.mpr ⟨old, hold, hsame⟩
    have hlast : q.Looser [g] [] := by
      refine .drop ?_ .nil
      exact hdeny
    have happend := hkept.append hlast
    rwa [List.append_nil] at happend

/-- A positive grant of a new slot makes a set looser. -/
theorem looser_of_positive {set : GrantSet} {g : Grant} (hpositive : g.denies = false)
    (hnew : ∀ old ∈ set.grants, old.slot ≠ g.slot) :
    q.Looser set.grants (set.insert g).grants := by
  rw [GrantSet.insert_of_new hnew]
  have hkept : q.Looser set.grants set.grants := Relaxed.refl _
  have happend := hkept.append (.add (.inl hpositive) .nil : q.Looser [] [g])
  rwa [List.append_nil] at happend

/-- A denial that was replaced by one that says something else carries a secret, and so it is
harmless for other rights and for whom it does not meet. -/
theorem harmless_of_replaced {old again : Grant} (hold : old.Writable)
    (hagain : again.Writable) (hslot : old.slot = again.slot) (hdeny : again.denies = true)
    (hdiffers : ¬ old.same again = true)
    (hnever : old.denies = true → old.secret ≠ again.secret → old.right.meets q.right = true →
      ∀ tier ∈ Tier.all q.right.isUserRight, ¬ q.Answers tier old) :
    q.Harmless old := by
  cases hkind : old.denies with
  | false => exact .inl hkind
  | true =>
    have hmodifier : old.modifier = again.modifier := by
      unfold Grant.denies at hkind hdeny
      rw [of_decide_eq_true hkind, of_decide_eq_true hdeny]
    have hsecret : old.secret ≠ again.secret := fun hsecret =>
      hdiffers (Grant.same_iff.mpr ⟨hslot, hmodifier, hsecret⟩)
    refine .inr ⟨?_, hnever hkind hsecret⟩
    have htype : old.granteeType = again.granteeType := (Slot.mk.inj hslot).2.1
    by_cases hcarries : old.granteeType.carriesSecret = true
    · exact hcarries
    · have hnone := hold.grantee
      have hnone' := hagain.grantee
      unfold Grant.KeepsGrantee at hnone hnone'
      rw [if_neg hcarries] at hnone
      rw [← htype, if_neg hcarries] at hnone'
      exact absurd (hnone.1.trans hnone'.1.symm) hsecret

end Inquiry

namespace Sample

/-- Carl, who is no entry of the directory, with the password he knows. -/
def carl : Principal :=
  .guest { email := "carl@example.org", password := some "old", accessKey := none }

/-- The denial of the right for Carl under a password. -/
def denialFor (password : String) : Grant :=
  .make "carl@example.org" .guest sendAs (some .deny) (some password)

/-- The directory in which Ann lets everybody send in her name but Carl under his password. -/
def guarded : Directory :=
  directoryWith ["carl@example.org:old gst -sendAs",
    "99999999-9999-9999-9999-999999999999 pub sendAs"]

end Sample

namespace AccessControl

variable {k : AccessControl}

/-- After a denial was added whoever is allowed something was allowed it before, unless the denial
took the place of one that denied this very right and met the principal by another secret; after a
positive grant of a new slot was added whoever was allowed something still is. -/
theorem grant_monotone {s t : Store} {target : Entry} {set : GrantSet} {g again : Grant}
    {changed : List Grant} {r : Request} {before after : Evaluation} (hs : s.outages = [])
    (hread : s.read k.catalog target = .ok set)
    (hgrant : s.grant k.catalog target [g] = .ok (changed, t))
    (hagain : Grant.parse k.catalog g.line = .ok again) (hsame : again.same g = true)
    (hbefore : k.uncached s.directory r = .ok before)
    (hafter : k.uncached t.directory r = .ok after) :
    (g.denies = true →
      (∀ old ∈ set.grants, old.slot = g.slot → old.denies = true → old.secret ≠ g.secret →
        old.right.meets r.right = true → ∀ tier ∈ Tier.all r.right.isUserRight,
          ¬ (r.inquiry s.directory.view).Answers tier old) →
      after.decision = .allow → before.decision = .allow) ∧
    (g.denies = false → (∀ old ∈ set.grants, old.slot ≠ g.slot) →
      before.decision = .allow → after.decision = .allow) := by
  obtain ⟨found, hfound, -, ⟨-, rfl⟩ | ⟨-, hwritten⟩⟩ := Store.changed_of_grant hgrant
  · -- Nothing was written, and the two checks are one.
    obtain rfl : before = after := Except.ok.inj (hbefore.symm.trans hafter)
    exact ⟨fun _ _ h => h, fun _ _ h => h⟩
  · obtain rfl : set = found := Except.ok.inj (hread.symm.trans hfound)
    rw [GrantSet.grant_fst] at hwritten
    have hstored := Store.parse_of_read hread
    obtain ⟨hslot, hmodifier, hsecret⟩ := Grant.same_iff.mp hsame
    have hdenies : again.denies = g.denies := by
      unfold Grant.denies
      rw [hmodifier]
    have hview := hwritten.entries.view
    have ht := hwritten.outages.trans hs
    have hcases := Store.fresh_cases_of_grant hs hread hagain hsame hwritten
    constructor
    · -- Back over the denial, what is read of the target becomes looser.
      intro hdeny hreplaced
      refine uncached_of_looser ht hs hview.symm (fun e => ?_) hafter hbefore
      rw [hview]
      rcases hcases e with ⟨hset, hset'⟩ | hother
      · rw [hset, hset']
        refine Inquiry.looserAnswer_of_sets ?_
        rw [GrantSet.all_of_reread, GrantSet.all_unplaced]
        refine (Inquiry.Looser.ranked (Inquiry.looser_of_denial (hdenies.trans hdeny)
          fun old hold holdSlot hdiffers => ?_)).unplaced
        refine Inquiry.harmless_of_replaced (GrantSet.writable_of_stored hstored hold).1
          (Grant.writable_of_parse hagain) holdSlot (hdenies.trans hdeny) hdiffers ?_
        rw [hsecret]
        exact hreplaced old hold (holdSlot.trans hslot)
      · rw [hother]
        exact .refl _
    · intro hpositive hnew
      refine uncached_of_looser hs ht hview (fun e => ?_) hbefore hafter
      rcases hcases e with ⟨hset, hset'⟩ | hother
      · rw [hset, hset']
        refine Inquiry.looserAnswer_of_sets ?_
        rw [GrantSet.all_of_reread, GrantSet.all_unplaced]
        refine (Inquiry.Looser.ranked (Inquiry.looser_of_positive (hdenies.trans hpositive)
          fun old hold => ?_)).unplaced
        rw [hslot]
        exact hnew old hold
      · rw [hother]
        exact .refl _

/-- Bob, who may send in Ann's name, still may after Ann let everybody do so. And where he may after
Ann denied it to Carl under a new password, he could before, although the new denial took the place
of the one under the old password. -/
theorem grant_monotone_sample :
    (∃ changed t after,
      (Store.ofDirectory Sample.directory).grant Sample.control.catalog Sample.ann
        [.make "" .everyone Sample.sendAs none none] = .ok (changed, t) ∧
      Sample.control.uncached t.directory Sample.request = .ok after ∧ after.decision = .allow) ∧
    ∃ changed t before,
      (Store.ofDirectory Sample.guarded).grant Sample.control.catalog Sample.ann
        [Sample.denialFor "new"] = .ok (changed, t) ∧
      Sample.control.uncached t.directory Sample.request = .ok (.bare .allow) ∧
      Sample.control.uncached Sample.guarded Sample.request = .ok before ∧
      before.decision = .allow := by
  constructor
  · obtain ⟨⟨changed, t⟩, hgrant, hchecks⟩ := Store.exists_ok_of_any
      (x := (Store.ofDirectory Sample.directory).grant Sample.control.catalog Sample.ann
        [.make "" .everyone Sample.sendAs none none])
      (p := fun granted => (Sample.control.uncached granted.2.directory Sample.request).isOk)
      (by decide +kernel)
    obtain ⟨after, hafter⟩ := Store.exists_ok_of_isOk hchecks
    obtain ⟨set, hread, hslots⟩ := Store.exists_ok_of_any
      (x := (Store.ofDirectory Sample.directory).read Sample.control.catalog Sample.ann)
      (p := fun set => set.grants.all fun old =>
        old.slot ≠ (Grant.make "" .everyone Sample.sendAs none none).slot)
      (by decide +kernel)
    have hparse : Grant.parse Sample.control.catalog
        (Grant.make "" .everyone Sample.sendAs none none).line =
          .ok (Grant.make "" .everyone Sample.sendAs none none) := rfl
    have hbefore : Sample.control.uncached (Store.ofDirectory Sample.directory).directory
        Sample.request = .ok (.bare .allow) := by
      decide +kernel
    have hresult := grant_monotone rfl hread hgrant hparse rfl hbefore hafter
    exact ⟨changed, t, after, hgrant, hafter, hresult.2 rfl
      (fun old hold => of_decide_eq_true (List.all_eq_true.mp hslots old hold)) rfl⟩
  · obtain ⟨⟨changed, t⟩, hgrant, hchecks⟩ := Store.exists_ok_of_any
      (x := (Store.ofDirectory Sample.guarded).grant Sample.control.catalog Sample.ann
        [Sample.denialFor "new"])
      (p := fun granted =>
        Sample.control.uncached granted.2.directory Sample.request = .ok (.bare .allow))
      (by decide +kernel)
    obtain ⟨again, hagain, hsame⟩ := Store.exists_ok_of_any
      (x := Grant.parse Sample.control.catalog (Sample.denialFor "new").line)
      (p := (·.same (Sample.denialFor "new"))) (by decide +kernel)
    obtain ⟨set, hread, hunmet⟩ := Store.exists_ok_of_any
      (x := (Store.ofDirectory Sample.guarded).read Sample.control.catalog Sample.ann)
      (p := fun set => set.grants.all fun old => old.slot = (Sample.denialFor "new").slot →
        ∀ tier ∈ Tier.all true, ¬ (Sample.request.inquiry Sample.guarded.view).Answers tier old)
      (by decide +kernel)
    obtain ⟨before, hbefore⟩ := Store.exists_ok_of_isOk
      (x := Sample.control.uncached Sample.guarded Sample.request) (by decide +kernel)
    have hresult := grant_monotone rfl hread hgrant hagain hsame hbefore (of_decide_eq_true hchecks)
    refine ⟨changed, t, before, hgrant, of_decide_eq_true hchecks, hbefore, ?_⟩
    -- The old denial is for Carl alone and does not meet Bob.
    refine hresult.1 (by decide +kernel) (fun old hold hslot _ _ _ => ?_) rfl
    exact of_decide_eq_true (List.all_eq_true.mp hunmet old hold) hslot

/-- A denial that takes the place of one with another password lets the holder of the old one in. -/
theorem allow_after_denial :
    (Sample.denialFor "new").denies = true ∧
      (Grant.parse Sample.control.catalog (Sample.denialFor "new").line).toOption.map
        (·.same (Sample.denialFor "new")) = some true ∧
      Sample.control.uncached Sample.guarded (.ofRight Sample.carl Sample.ann Sample.sendAs) =
        .ok (.bare .deny) ∧
      ∃ changed t, (Store.ofDirectory Sample.guarded).grant Sample.control.catalog Sample.ann
          [Sample.denialFor "new"] = .ok (changed, t) ∧
        Sample.control.uncached t.directory (.ofRight Sample.carl Sample.ann Sample.sendAs) =
          .ok (.bare .allow) := by
  obtain ⟨⟨changed, t⟩, hgrant, hafter⟩ := Store.exists_ok_of_any
    (x := (Store.ofDirectory Sample.guarded).grant Sample.control.catalog Sample.ann
      [Sample.denialFor "new"])
    (p := fun granted => Sample.control.uncached granted.2.directory
      (.ofRight Sample.carl Sample.ann Sample.sendAs) = .ok (.bare .allow))
    (by decide +kernel)
  exact ⟨by decide +kernel, by decide +kernel, by decide +kernel, changed, t, hgrant,
    of_decide_eq_true hafter⟩

end AccessControl

end DirectoryRights
