import DirectoryRights.Proofs.Loading

/-!
# Grants to everyone

A grant to all authenticated accounts or to everyone has a fixed grantee, so that the text which a
world gives as its grantee is of no use. Still it is read where it is no id, as the name of an entry,
and the grant is made only if there is such an entry. Apart from this the text makes no difference:
a world in which the texts of such grants are replaced is built to the same store, or it is not
built, because one of the new texts is neither an id nor the name of an entry.
-/

set_option autoImplicit false

namespace DirectoryRights

namespace Sample

/-- The world of Ann in whose name everyone may send, with a text for the grantee. -/
def openHouse (grantee : String) : World :=
  { ofNames [] [] ["ann@home.com"] [] with
    grants := [⟨"ann@home.com", grantee, "pub", "sendAs", none, none, none⟩] }

end Sample

namespace DeclaredGrant

/-- The grantee of the grant is fixed by its type. -/
def isForEveryone (g : DeclaredGrant) : Bool :=
  ((GranteeType.ofCode? g.granteeType).bind GranteeType.fixedId?).isSome

/-- The text of the grantee is an id or the name of an entry. -/
def findsGrantee (g : DeclaredGrant) (d : Directory) : Bool :=
  (Uuid.parse? g.grantee).isSome || (d.named? g.grantee).isSome

/-- The second grant is the first one, perhaps with another text for a grantee that is fixed. -/
def Regranted (g g' : DeclaredGrant) : Prop :=
  g' = g ∨ g.isForEveryone = true ∧ ∃ text, g' = { g with grantee := text }

/-- The grant is one for everyone, and the text of its grantee leads nowhere. -/
def Lost (d : Directory) (g : DeclaredGrant) : Prop :=
  g.isForEveryone = true ∧ g.findsGrantee d = false

variable {g g' : DeclaredGrant} {c : Catalog} {d : Directory} {maxLifetime now : Int} {s t : Store}

/-- The grant as it is read if its grantee is fixed: only whether the text finds one matters. -/
def readFixed (g : DeclaredGrant) (c : Catalog) (granteeType : GranteeType) (finds : Bool) :
    Except WorldFault Grant :=
  ((c.lookup g.right).mapError .grant).bind fun right =>
    g.readModifier.bind fun modifier =>
      if finds then .ok (Grant.make "" granteeType right modifier g.secret)
      else .error (.noEntry g.grantee)

/-- A grantee that is fixed is put in place of the text, but a text that finds nobody stops the
grant. -/
theorem readGrantee_of_fixed {granteeType : GranteeType} {fixed : String}
    (hfixed : granteeType.fixedId? = some fixed) (right : Right) (modifier : Option Modifier) :
    ((g.readGrantee d granteeType).bind fun grantee =>
        .ok (Grant.make grantee granteeType right modifier g.secret)) =
      if g.findsGrantee d then .ok (Grant.make "" granteeType right modifier g.secret)
      else .error (.noEntry g.grantee) := by
  have hnamed : granteeType.isNamedById = true := by
    cases granteeType <;> first | rfl | cases hfixed
  have hmake : ∀ grantee, Grant.make grantee granteeType right modifier g.secret =
      Grant.make "" granteeType right modifier g.secret := by
    intro grantee
    unfold Grant.make
    rw [hfixed]
    rfl
  unfold readGrantee findsGrantee
  cases hparse : Uuid.parse? g.grantee with
  | some id =>
    rw [if_neg fun h => nomatch h.2]
    exact congrArg Except.ok (hmake g.grantee)
  | none =>
    rw [if_pos ⟨hnamed, rfl⟩]
    unfold Directory.named
    cases d.named? g.grantee with
    | none => rfl
    | some e => exact congrArg Except.ok (hmake e.id.text)

/-- How a grant with a fixed grantee is read depends only on whether its text finds somebody. -/
theorem read_of_fixed {granteeType : GranteeType} {fixed : String}
    (htype : GranteeType.ofCode? g.granteeType = some granteeType)
    (hfixed : granteeType.fixedId? = some fixed) :
    g.read c d = g.readFixed c granteeType (g.findsGrantee d) := by
  unfold read readFixed
  simp only [← readGrantee_of_fixed hfixed, htype]
  rfl

/-- Where the grant is read, it is read in the same way from any other text that finds a grantee. -/
theorem read_regranted (hfixed : g.isForEveryone = true) {grant : Grant}
    (hread : g.read c d = .ok grant) (text : String) :
    { g with grantee := text }.read c d =
      if { g with grantee := text }.findsGrantee d then .ok grant
      else .error (.noEntry text) := by
  obtain ⟨fixed, hsome⟩ := Option.isSome_iff_exists.mp hfixed
  obtain ⟨granteeType, htype, hfixed⟩ := Option.bind_eq_some_iff.mp hsome
  rw [read_of_fixed htype hfixed] at hread
  obtain ⟨right, hright, hrest⟩ := exists_of_bind_eq_ok hread
  obtain ⟨modifier, hmodifier, hmade⟩ := exists_of_bind_eq_ok hrest
  have hfinds : g.findsGrantee d = true := by
    by_contra hfinds
    rw [if_neg hfinds] at hmade
    cases hmade
  rw [if_pos hfinds] at hmade
  rw [read_of_fixed (g := { g with grantee := text }) htype hfixed, ← hmade]
  unfold readFixed
  have hsame : { g with grantee := text }.readModifier = g.readModifier := rfl
  rw [hright, hsame, hmodifier]
  rfl

/-- Makes a grant that was read on the entry of its target. -/
def store (g : DeclaredGrant) (c : Catalog) (maxLifetime now : Int) (s : Store) (target : Entry)
    (grant : Grant) : Except WorldFault Store :=
  match g.expiry with
  | some expiry =>
    ((s.grantUntil c maxLifetime target [grant] (some expiry) now).map Prod.snd).mapError
      (.granting g.right g.target)
  | none => ((s.grant c target [grant]).map Prod.snd).mapError (.granting g.right g.target)

/-- A grant is made in three steps: its target is found, it is read, and it is stored. -/
theorem make_eq (g : DeclaredGrant) (c : Catalog) (maxLifetime now : Int) (s : Store) :
    g.make c maxLifetime now s = (s.directory.named g.target).bind fun target =>
      (g.read c s.directory).bind (g.store c maxLifetime now s target) := rfl

/-- Where a grant is made, another text for a grantee that is fixed changes nothing, or it leads
nowhere and the grant is not made. -/
theorem make_regranted (h : g.Regranted g') (hmake : g.make c maxLifetime now s = .ok t) :
    ¬ Lost s.directory g' ∧ g'.make c maxLifetime now s = .ok t ∨
      Lost s.directory g' ∧ g'.make c maxLifetime now s = .error (.noEntry g'.grantee) := by
  by_cases hfixed : g.isForEveryone = true
  · obtain ⟨text, rfl⟩ : ∃ text, g' = { g with grantee := text } := by
      rcases h with rfl | ⟨-, htext⟩
      · exact ⟨g'.grantee, rfl⟩
      · exact htext
    rw [make_eq] at hmake ⊢
    obtain ⟨target, htarget, hgrant⟩ := exists_of_bind_eq_ok hmake
    obtain ⟨grant, hread, hmade⟩ := exists_of_bind_eq_ok hgrant
    rw [htarget]
    show ¬ _ ∧ Except.bind _ _ = _ ∨ _ ∧ Except.bind _ _ = _
    rw [read_regranted hfixed hread text]
    by_cases hfinds : { g with grantee := text }.findsGrantee s.directory = true
    · rw [if_pos hfinds]
      exact .inl ⟨fun hlost => Bool.false_ne_true (hlost.2.symm.trans hfinds), hmade⟩
    · rw [if_neg hfinds]
      exact .inr ⟨⟨hfixed, Bool.eq_false_iff.mpr hfinds⟩, rfl⟩
  · have hsame : g' = g := h.resolve_right fun hother => hfixed hother.1
    rw [hsame]
    exact .inl ⟨fun hlost => hfixed hlost.1, hmake⟩

/-- Directories in which names lead to the same entries find the same grantees. -/
theorem findsGrantee_of_sameNames {e : Directory} (h : Directory.SameNames d e) :
    g.findsGrantee e = g.findsGrantee d := by
  unfold findsGrantee
  rw [h.named?_eq]

end DeclaredGrant

namespace World

/-- The second world is the first one, perhaps with other texts for grantees that are fixed. -/
def Regranted (w w' : World) : Prop :=
  ∃ grants, List.Forall₂ DeclaredGrant.Regranted w.grants grants ∧ w' = { w with grants }

variable {c : Catalog} {maxLifetime now : Int} {s t : Store} {gs gs' : List DeclaredGrant}

/-- Where the grants of a list are made, they are made in the same way with other texts for grantees
that are fixed, or the first text that leads nowhere ends the work. -/
theorem foldlM_regranted (h : List.Forall₂ DeclaredGrant.Regranted gs gs')
    (hmade : gs.foldlM (fun s g => g.make c maxLifetime now s) s = .ok t) :
    (∀ g ∈ gs', ¬ g.Lost t.directory) ∧
        gs'.foldlM (fun s g => g.make c maxLifetime now s) s = .ok t ∨
      ∃ g ∈ gs', g.Lost t.directory ∧
        gs'.foldlM (fun s g => g.make c maxLifetime now s) s = .error (.noEntry g.grantee) := by
  induction h generalizing s with
  | nil => exact .inl ⟨fun g hg => absurd hg List.not_mem_nil, hmade⟩
  | @cons g g' gs gs' hgrant hrest ih =>
    rw [List.foldlM_cons] at hmade ⊢
    obtain ⟨next, hnext, hmade⟩ := exists_of_bind_eq_ok hmade
    -- What leads nowhere before the grants are made leads nowhere afterwards.
    have hsame : Directory.SameNames s.directory t.directory :=
      foldlM_induction (fun _ t => Directory.SameNames s.directory t.directory)
        (DeclaredGrant.sameNames_make hnext)
        (fun _ _ _ _ hbefore hstep => hbefore.trans (DeclaredGrant.sameNames_make hstep)) hmade
    have hlost : g'.Lost s.directory ↔ g'.Lost t.directory := by
      unfold DeclaredGrant.Lost
      rw [DeclaredGrant.findsGrantee_of_sameNames hsame]
    rcases DeclaredGrant.make_regranted hgrant hnext with ⟨hfound, hmake⟩ | ⟨hnowhere, hmake⟩
    · rw [hmake]
      rcases ih hmade with ⟨hall, hrun⟩ | ⟨other, hother, hnowhere, hrun⟩
      · exact .inl ⟨List.forall_mem_cons.mpr ⟨fun h => hfound (hlost.mpr h), hall⟩, hrun⟩
      · exact .inr ⟨other, List.mem_cons_of_mem _ hother, hnowhere, hrun⟩
    · rw [hmake]
      exact .inr ⟨g', List.mem_cons_self, hlost.mp hnowhere, rfl⟩

/-- Other texts for grantees that are fixed make no difference to what is stored. The world is built
to the same store exactly if each such text is an id or the name of an entry, and otherwise the
fault is that there is no entry of one of these names. -/
theorem build_regranted {w w' : World} (h : w.Regranted w')
    (hbuild : w.build c maxLifetime now = .ok s) :
    (w'.build c maxLifetime now = .ok s ↔ ∀ g ∈ w'.grants, ¬ g.Lost s.directory) ∧
      ∀ fault, w'.build c maxLifetime now = .error fault →
        ∃ g ∈ w'.grants, g.Lost s.directory ∧ fault = .noEntry g.grantee := by
  obtain ⟨grants, hgrants, rfl⟩ := h
  obtain ⟨d, hdirectory, hrun⟩ := exists_of_bind_eq_ok hbuild
  have hother : { w with grants }.build c maxLifetime now =
      grants.foldlM (fun s g => g.make c maxLifetime now s) (.ofDirectory d) :=
    congrArg (·.bind fun d => grants.foldlM (fun s g => g.make c maxLifetime now s)
      (.ofDirectory d)) hdirectory
  rw [hother]
  rcases foldlM_regranted hgrants hrun with ⟨hall, hmade⟩ | ⟨g, hg, hlost, hmade⟩
  · rw [hmade]
    exact ⟨iff_of_true rfl hall, nofun⟩
  · rw [hmade]
    refine ⟨iff_of_false nofun fun hall => hall g hg hlost, fun fault hfault => ?_⟩
    exact ⟨g, hg, hlost, (Except.error.inj hfault).symm⟩

/-- The worlds differ in the text of the grantee alone. -/
theorem regranted_openHouse (text other : String) :
    (Sample.openHouse text).Regranted (Sample.openHouse other) := by
  have hpublic : ∀ text, DeclaredGrant.isForEveryone
      ⟨"ann@home.com", text, "pub", "sendAs", none, none, none⟩ = true :=
    fun _ => rfl
  exact ⟨_, .cons (.inr ⟨hpublic text, other, rfl⟩) .nil, rfl⟩

/-- A grant to everyone that names Ann is made as one with the fixed grantee. -/
theorem build_regranted_sample :
    ∃ s, (Sample.openHouse "ann@home.com").build Sample.control.catalog 0 0 = .ok s ∧
      (Sample.openHouse GranteeType.everyoneId).build Sample.control.catalog 0 0 = .ok s := by
  have hok : ((Sample.openHouse "ann@home.com").build Sample.control.catalog 0 0).isOk = true := by
    decide +kernel
  obtain ⟨s, hbuild⟩ := Store.exists_ok_of_isOk hok
  have hid : (Uuid.parse? GranteeType.everyoneId).isSome = true := by decide +kernel
  refine ⟨s, hbuild, (build_regranted (regranted_openHouse _ _) hbuild).1.mpr fun g hg hlost => ?_⟩
  rw [List.mem_singleton.mp hg] at hlost
  have hnone : (Uuid.parse? GranteeType.everyoneId).isSome = false :=
    (Bool.or_eq_false_iff.mp hlost.2).1
  exact Bool.false_ne_true (hnone.symm.trans hid)

/-- The same grant without a text for its grantee is not made. -/
theorem grantee_asked_for :
    (Sample.openHouse GranteeType.everyoneId).Regranted (Sample.openHouse "") ∧
      ((Sample.openHouse GranteeType.everyoneId).build Sample.control.catalog 0 0).isOk = true ∧
      ((Sample.openHouse "").build Sample.control.catalog 0 0).map (fun _ => ()) =
        .error (.noEntry "") := by
  refine ⟨regranted_openHouse _ _, ?_, ?_⟩
  · decide +kernel
  · decide +kernel

end World

end DirectoryRights
