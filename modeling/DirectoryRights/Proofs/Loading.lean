import Mathlib.Data.Finite.Vector
import Mathlib.Data.Fintype.EquivFin
import DirectoryRights.Proofs.Finding
import DirectoryRights.Proofs.Spelling

/-!
# The entries of a world that is built

What a world declares is found under its name as long as names are apart: those that are no domains
differ from each other and, in any case of their letters, from those of all domains, and none is
read as something else. Where it is found, the names are apart.
-/

set_option autoImplicit false

namespace DirectoryRights

namespace Sample

/-- A world with a declaration of each kind, a member and a grant. -/
def town : World where
  domains := ["Home.com"]
  cos := ["gold"]
  accounts := [⟨"ann@home.com", .delegated, true⟩]
  groups := [⟨"team@home.com", true, true, ["ann@home.com"]⟩]
  grants := [⟨"ann@home.com", "team@home.com", "grp", "sendAs", none, none, none⟩]

/-- The world of some names, without members and grants. -/
def ofNames (domains cos accounts groups : List String) : World where
  domains := domains
  cos := cos
  accounts := accounts.map (⟨·, .none, false⟩)
  groups := groups.map (⟨·, false, false, []⟩)
  grants := []

/-- The kind of the entry that is found under a name when a world is built. -/
def kindFound? (w : World) (name : String) : Except WorldFault (Option EntryKind) :=
  (w.build control.catalog 0 0).map fun s => (s.directory.named? name).map (·.kind)

end Sample

namespace Uuid

/-- There are more names than identifiers, so that some names have the same one. -/
theorem ofName_not_injective : ¬ Function.Injective ofName := by
  intro hinjective
  let digits (name : String) : List.Vector (Fin 16) 32 := ⟨nameDigits name, length_nameDigits name⟩
  refine not_injective_infinite_finite digits fun name other hsame => hinjective ?_
  have hdigits : nameDigits name = nameDigits other := congrArg Subtype.val hsame
  unfold ofName
  simp only [hdigits]

end Uuid

namespace World

/-- All names of entries. -/
def names (w : World) : List String :=
  w.domainNames ++ w.ownNames

/-- Different names have different ids. -/
def IdsDiffer (w : World) : Prop :=
  ∀ name ∈ w.names, ∀ other ∈ w.names, Uuid.ofName name = Uuid.ofName other → name = other

instance (w : World) : Decidable w.IdsDiffer :=
  inferInstanceAs (Decidable (∀ name ∈ w.names, _))

/-- A name is neither that of the global grant entry nor the text of an id that is derived from a
name. -/
def Plain (w : World) (name : String) : Prop :=
  Text.sameFolded name Directory.globalGrantName = false ∧
    ∀ other ∈ Directory.globalGrantName :: w.names, Uuid.parse? name ≠ some (Uuid.ofName other)

instance (w : World) (name : String) : Decidable (w.Plain name) :=
  inferInstanceAs (Decidable (_ ∧ _))

/-- No domain or class of service is called by the text of the id that is derived from its own name,
in any case of its letters. -/
def NoOwnId (w : World) : Prop :=
  ∀ name ∈ w.domains ++ w.cos, ∀ other ∈ w.names, Text.lower other = Text.lower name →
    Uuid.parse? name ≠ some (Uuid.ofName other)

/-- The names of a world stand for one entry each. -/
structure Apart (w : World) : Prop where
  /-- No two classes of service, accounts and groups have the same name. -/
  different : w.ownNames.Nodup
  /-- None of them has the name of a domain, in any case of its letters. -/
  offDomains : ∀ name ∈ w.ownNames, ∀ domain ∈ w.domainNames, Text.lower name ≠ Text.lower domain
  /-- No domain or class of service is called as the global grant entry is, or by the text of an id
  that is derived from a name. -/
  plain : ∀ name ∈ w.domains ++ w.cos, w.Plain name

instance (w : World) : Decidable w.Apart :=
  decidable_of_iff (w.ownNames.Nodup ∧ (∀ name ∈ w.ownNames, ∀ domain ∈ w.domainNames,
      Text.lower name ≠ Text.lower domain) ∧
    ∀ name ∈ w.domains ++ w.cos, w.Plain name)
    ⟨fun ⟨hdifferent, hoff, hplain⟩ => ⟨hdifferent, hoff, hplain⟩,
      fun h => ⟨h.different, h.offDomains, h.plain⟩⟩

end World

/-- The kind of a domain is that of domains. -/
theorem Entry.kind_of_isDomain {e : Entry} (h : e.isDomain = true) : e.kind = .domain := by
  rw [isDomain, decide_eq_true_iff, targetType] at h
  cases hkind : e.kind <;> rw [hkind] at h <;> first | rfl | cases h

/-- An address has an at sign. -/
theorem Text.at_mem_of_afterFirst? {email domainName : String}
    (h : afterFirst? '@' email = some domainName) : '@' ∈ email.toList := by
  by_contra hnot
  unfold afterFirst? at h
  rw [cutFirst?_eq_none.mpr hnot] at h
  cases h

/-- So it is not the name of the global grant entry. -/
theorem Text.sameFolded_globalGrantName {email : String} (h : '@' ∈ email.toList) :
    sameFolded email Directory.globalGrantName = false := by
  refine beq_false_of_ne fun heq => ?_
  have hmem : '@'.toLower ∈ Directory.globalGrantName.toList.map Char.toLower :=
    heq ▸ List.mem_map_of_mem h
  revert hmem
  decide

namespace World

open Directory

/-- Nor is it the text of an id. -/
theorem plain_of_at_mem (w : World) {email : String} (h : '@' ∈ email.toList) : w.Plain email :=
  ⟨Text.sameFolded_globalGrantName h, fun _ _ hparse =>
    absurd h (Uuid.foreign_not_mem_of_parse? (by decide) hparse)⟩

section Brings

variable {w : World} {es : List Entry} (hbrings : Brings w.declarations es)

include hbrings

/-- The names of domains in the world are the names of the domains that come in. -/
theorem mem_domainNames_iff {name : String} :
    name ∈ w.domainNames ↔ ∃ home ∈ es, home.isDomain = true ∧ home.name = name := by
  unfold domainNames
  rw [← w.filterMap_domainName?]
  exact hbrings.mem_firstSpelled name

/-- The name of a domain that comes in is one of the names of domains. -/
theorem mem_domainNames {e : Entry} (he : e ∈ es) (hdomain : e.isDomain = true) :
    e.name ∈ w.domainNames :=
  (mem_domainNames_iff hbrings).mpr ⟨e, he, hdomain, rfl⟩

/-- The name of any other entry that comes in is one of the names that are no domains. -/
theorem mem_ownNames {e : Entry} (he : e ∈ es) (hown : e.isDomain = false) :
    e.name ∈ w.ownNames := by
  have hkept : e ∈ es.filter (!·.isDomain) := List.mem_filter.mpr ⟨he, by rw [hown]; rfl⟩
  rw [← w.filterMap_ownName?, ← hbrings.own]
  exact List.mem_map_of_mem hkept

/-- The name of an entry that comes in is one of the names of the world. -/
theorem mem_names {e : Entry} (he : e ∈ es) : e.name ∈ w.names := by
  cases hdomain : e.isDomain with
  | true => exact List.mem_append_left _ (mem_domainNames hbrings he hdomain)
  | false => exact List.mem_append_right _ (mem_ownNames hbrings he hdomain)

/-- Under each name of the world an entry comes in. -/
theorem exists_of_mem_names {name : String} (h : name ∈ w.names) : ∃ e ∈ es, e.name = name := by
  rcases List.mem_append.mp h with hdomain | hown
  · obtain ⟨home, hhome, -, hname⟩ := (mem_domainNames_iff hbrings).mp hdomain
    exact ⟨home, hhome, hname⟩
  · rw [← w.filterMap_ownName?, ← hbrings.own] at hown
    obtain ⟨e, he, hname⟩ := List.mem_map.mp hown
    exact ⟨e, (List.mem_filter.mp he).1, hname⟩

/-- Nothing comes in under an id that no name has. -/
theorem entry?_eq_none {id : EntryId}
    (h : ∀ other ∈ globalGrantName :: w.names, id ≠ Uuid.ofName other) :
    entry? (ofEntries es) id = none := by
  cases hentry : entry? (ofEntries es) id with
  | none => rfl
  | some e =>
    obtain ⟨hmem, rfl⟩ := mem_of_entry?_ofEntries hentry
    rcases List.mem_cons.mp hmem with rfl | hmem
    · exact absurd rfl (h globalGrantName List.mem_cons_self)
    · exact absurd (hbrings.ids e hmem) (h e.name (List.mem_cons_of_mem _ (mem_names hbrings hmem)))

/-- A plain name stands for the domain of this name, and if there is none for the entry under the id
that is derived from it. -/
theorem named_iff_of_plain {name : String} {found : Entry} (hplain : w.Plain name) :
    (ofEntries es).named name = .ok found ↔
      ((ofEntries es).domainNamed? name <|> entry? (ofEntries es) (Uuid.ofName name)) =
        some found := by
  refine named_iff hplain.1 fun id hid => entry?_eq_none hbrings fun other hother heq => ?_
  exact hplain.2 other hother (hid.trans (congrArg some heq))

variable (hids : w.IdsDiffer) (hapart : w.Apart)

include hapart

/-- Where names stand for one entry each, no entry but a domain is called like a domain. -/
theorem lower_name_ne {e home : Entry} (he : e ∈ es) (hhome : home ∈ es)
    (hown : e.isDomain = false) (hdomain : home.isDomain = true) :
    Text.lower e.name ≠ Text.lower home.name :=
  hapart.offDomains e.name (mem_ownNames hbrings he hown) home.name
    (mem_domainNames hbrings hhome hdomain)

/-- Entries that come in have different names. -/
theorem names_differ : es.Pairwise fun older newer => older.name ≠ newer.name := by
  have hown : es.Pairwise fun older newer => (!older.isDomain) = true →
      (!newer.isDomain) = true → older.name ≠ newer.name := by
    have hnodup := hapart.different
    rw [← w.filterMap_ownName?, ← hbrings.own] at hnodup
    exact List.pairwise_filter.mp (List.pairwise_map.mp hnodup)
  refine (hbrings.once.and hown).imp_of_mem ?_
  rintro older newer holder hnewer ⟨honce, hown⟩ hsame
  -- Two domains differ in lower case, two others as they are declared, and a domain differs from
  -- the others in lower case.
  cases hleft : older.isDomain <;> cases hright : newer.isDomain
  · exact hown (by rw [hleft]; rfl) (by rw [hright]; rfl) hsame
  · exact lower_name_ne hbrings hapart holder hnewer hleft hright (congrArg Text.lower hsame)
  · exact lower_name_ne hbrings hapart hnewer holder hright hleft (congrArg Text.lower hsame.symm)
  · exact honce hleft hright (congrArg Text.lower hsame)

include hids

/-- What came in is there. -/
theorem entry?_of_mem {e : Entry} (he : e ∈ es) : entry? (ofEntries es) e.id = some e := by
  refine entry?_ofEntries_of_mem ((names_differ hbrings hapart).imp_of_mem ?_) he
  intro older newer holder hnewer hdiffer hsame
  refine hdiffer (hids _ (mem_names hbrings holder) _ (mem_names hbrings hnewer) ?_)
  rw [← hbrings.ids older holder, ← hbrings.ids newer hnewer, hsame]

/-- A domain is found by its name. -/
theorem domainNamed?_of_mem {name : String} {home : Entry} (hmem : home ∈ es)
    (hname : home.HasName (Text.lower name)) :
    (ofEntries es).domainNamed? name = some home := by
  rw [hbrings.domainNamed?_eq hmem hname]
  exact entry?_of_mem hbrings hids hapart hmem

/-- Any other entry is found by its name if this is not read as something else. -/
theorem named_of_own {e : Entry} (he : e ∈ es) (hown : e.isDomain = false)
    (hplain : w.Plain e.name) : (ofEntries es).named e.name = .ok e := by
  -- The names of domains come before derived ids.
  have hnone : (ofEntries es).domainNamed? e.name = none := by
    refine hbrings.domainNamed?_eq_none fun home hhome hname => ?_
    exact lower_name_ne hbrings hapart he hhome hown hname.1 hname.2.symm
  rw [named_iff_of_plain hbrings hplain, hnone, ← hbrings.ids e he,
    entry?_of_mem hbrings hids hapart he]
  rfl

/-- An address of the world is found as it is declared, where names stand for one entry each. -/
theorem findsAddress {email : String} {kind : EntryKind} (notDomain : kind.targetType ≠ .domain)
    (h : .address email kind notDomain ∈ w.declarations) :
    (ofEntries es).FindsAddress email kind := by
  obtain ⟨domainName, haddress, home, hhome, hname, hmem⟩ := hbrings.met _ h
  have hfound := named_of_own hbrings hids hapart hmem (decide_eq_false notDomain)
    (w.plain_of_at_mem (Text.at_mem_of_afterFirst? haddress))
  exact ⟨_, domainName, home, hfound, rfl, rfl, haddress,
    domainNamed?_of_mem hbrings hids hapart hhome hname, Entry.kind_of_isDomain hname.1, hname.2,
    rfl⟩

/-- The directory into which all entries came finds every declaration as what it declares. -/
theorem findsAll_of_brings : (ofEntries es).FindsAll w := by
  refine ⟨fun name hname => ?_, fun name hname => ?_, fun a ha => ?_, fun g hg => ?_⟩
  · have hdeclared : .domain name ∈ w.declarations := by simp [declarations, hname]
    have hplain : w.Plain name := hapart.plain name (List.mem_append_left _ hname)
    obtain ⟨home, hhome, hnamed⟩ := hbrings.met _ hdeclared
    refine ⟨home, ?_, Entry.kind_of_isDomain hnamed.1, hnamed.2⟩
    rw [named_iff_of_plain hbrings hplain, domainNamed?_of_mem hbrings hids hapart hhome hnamed]
    rfl
  · have hdeclared : .cos name ∈ w.declarations := by simp [declarations, hname]
    have hplain : w.Plain name := hapart.plain name (List.mem_append_right _ hname)
    have hmem : Entry.ofCos name ∈ es := hbrings.met _ hdeclared
    exact ⟨.ofCos name, named_of_own hbrings hids hapart hmem rfl hplain, rfl, rfl⟩
  · apply findsAddress hbrings hids hapart a.notDomain
    simp only [declarations, List.mem_append, List.mem_map]
    exact .inl (.inr ⟨a, ha, rfl⟩)
  · apply findsAddress hbrings hids hapart g.notDomain
    simp only [declarations, List.mem_append, List.mem_map]
    exact .inr ⟨g, hg, rfl⟩

end Brings

section Finds

variable {w : World} {es : List Entry} (hbrings : Brings w.declarations es)
  (hfinds : (ofEntries es).FindsAll w)

include hbrings hfinds

/-- If the names of domains and classes of service lead to them, they are plain. -/
theorem plain_of_findsAll (hown : w.NoOwnId) {name : String} (hname : name ∈ w.domains ++ w.cos) :
    w.Plain name := by
  obtain ⟨e, he, hglobal, hspelled⟩ := hfinds.plain hname
  have hfold : Text.sameFolded name globalGrantName = false := by
    refine Bool.eq_false_iff.mpr fun hfold => hglobal ?_
    exact Except.ok.inj (he.symm.trans (named_of_sameFolded hfold))
  refine ⟨hfold, fun other hother hparse => ?_⟩
  -- An entry of this id would be found in place of what is declared.
  obtain ⟨holder, hholder, hid⟩ : ∃ holder ∈ globalGrant :: es, holder.id = Uuid.ofName other := by
    rcases List.mem_cons.mp hother with rfl | hother
    · exact ⟨globalGrant, List.mem_cons_self, rfl⟩
    · obtain ⟨holder, hholder, rfl⟩ := exists_of_mem_names hbrings hother
      exact ⟨holder, List.mem_cons_of_mem _ hholder, hbrings.ids holder hholder⟩
  obtain ⟨found, hfound⟩ := exists_entry?_ofEntries hholder
  rw [hid] at hfound
  obtain rfl : e = found := Except.ok.inj (he.symm.trans (named_of_parse hfold hparse hfound))
  obtain ⟨hmem, hsame⟩ := mem_of_entry?_ofEntries hfound
  have hmem : e ∈ es := (List.mem_cons.mp hmem).resolve_left hglobal
  refine hown name hname e.name (mem_names hbrings hmem) hspelled ?_
  rw [hparse, ← hsame, hbrings.ids e hmem]

/-- If everything that is declared is found, each domain is found by its name. -/
theorem home_of_findsAll (hplain : ∀ name ∈ w.domains ++ w.cos, w.Plain name) {name : String}
    (hname : name ∈ w.domainNames) :
    ∃ home, (ofEntries es).domainNamed? name = some home ∧ home.kind = .domain := by
  rcases List.mem_append.mp (Text.mem_of_mem_firstSpelled hname) with hdeclared | hasked
  · obtain ⟨e, he, hkind, -⟩ := hfinds.domains name hdeclared
    rw [named_iff_of_plain hbrings (hplain name (List.mem_append_left _ hdeclared))] at he
    -- There is something under the id of the domain, so that no other id is tried.
    obtain ⟨home, hhome, hdomain, rfl⟩ := (mem_domainNames_iff hbrings).mp hname
    obtain ⟨found, hfound⟩ := exists_entry?_ofEntries (List.mem_cons_of_mem globalGrant hhome)
    rw [hbrings.domainNamed?_eq hhome ⟨hdomain, rfl⟩, hfound] at he ⊢
    cases he
    exact ⟨e, rfl, hkind⟩
  · obtain ⟨email, hemail, hafter⟩ := List.mem_filterMap.mp hasked
    obtain ⟨kind, -, -, e, domainName, home, -, -, -, hafter', hhome, hkind, -⟩ :=
      hfinds.address hemail
    obtain rfl : name = domainName := Option.some.inj (hafter.symm.trans hafter')
    exact ⟨home, hhome, hkind⟩

/-- If the other names do not lead to domains, they are not names of domains. -/
theorem offDomains_of_findsAll (hplain : ∀ name ∈ w.domains ++ w.cos, w.Plain name)
    {name domain : String} (hname : name ∈ w.ownNames) (hdomain : domain ∈ w.domainNames) :
    Text.lower name ≠ Text.lower domain := by
  intro hsame
  have hread : w.Plain name := by
    rcases List.mem_append.mp hname with hcos | haddress
    · exact hplain name (List.mem_append_right _ hcos)
    · obtain ⟨kind, -, -, e, domainName, home, -, -, -, hafter, -⟩ := hfinds.address haddress
      exact w.plain_of_at_mem (Text.at_mem_of_afterFirst? hafter)
  obtain ⟨home, hhome, hkind⟩ := home_of_findsAll hbrings hfinds hplain hdomain
  obtain ⟨e, he, -, hother⟩ := hfinds.own hname
  have hspelled : (ofEntries es).domainNamed? name = some home := by
    rw [← hhome]
    unfold domainNamed?
    rw [hsame]
  rw [named_iff_of_plain hbrings hread, hspelled] at he
  cases he
  exact hother hkind

end Finds

variable {w : World}

/-- The members of groups come in last, and they change nothing about names. -/
theorem directory_of_entries {d : Directory} (h : w.directory = .ok d) :
    ∃ before, w.entries = .ok before ∧ SameNames before d := by
  obtain ⟨before, hbefore, hrun⟩ := exists_of_bind_eq_ok h
  refine ⟨before, hbefore, foldlM_induction (fun _ => SameNames before) ⟨rfl, rfl⟩ ?_ hrun⟩
  exact fun _ d group after hsame hstep => hsame.trans (sameNames_addMembers hstep)

/-- A world that is built has the entries that its declarations bring in. -/
theorem exists_of_build {c : Catalog} {maxLifetime now : Int} {s : Store}
    (h : w.build c maxLifetime now = .ok s) :
    ∃ es, Brings w.declarations es ∧ SameNames (ofEntries es) s.directory := by
  obtain ⟨d, hdirectory, hrun⟩ := exists_of_bind_eq_ok h
  obtain ⟨before, hentries, hjoined⟩ := directory_of_entries hdirectory
  obtain ⟨es, rfl, hbrings⟩ := exists_of_entries hentries
  have hgranted : SameNames d s.directory := by
    refine foldlM_induction (fun _ s => SameNames d s.directory) ⟨rfl, rfl⟩ ?_ hrun
    exact fun _ s g after hsame hstep => hsame.trans (DeclaredGrant.sameNames_make hstep)
  exact ⟨es, hbrings, hjoined.trans hgranted⟩

/-- Every declaration of a world whose names are apart is found under its name when the world is
built, as what it declares, and none takes the place of another. -/
theorem findsAll_of_build {c : Catalog} {maxLifetime now : Int} {s : Store}
    (hbuild : w.build c maxLifetime now = .ok s) (hids : w.IdsDiffer) (hapart : w.Apart) :
    s.directory.FindsAll w ∧ s.directory.KeepsApart w := by
  obtain ⟨es, hbrings, hsame⟩ := exists_of_build hbuild
  have hfinds : s.directory.FindsAll w := hsame.findsAll (findsAll_of_brings hbrings hids hapart)
  exact ⟨hfinds, hfinds.keepsApart⟩

/-- A world with a declaration of each kind is found again in the directory that is built of it. -/
theorem findsAll_of_build_sample :
    ∃ s, Sample.town.build Sample.control.catalog 0 0 = .ok s ∧
      s.directory.FindsAll Sample.town ∧ s.directory.KeepsApart Sample.town := by
  have hok : (Sample.town.build Sample.control.catalog 0 0).isOk = true := by decide +kernel
  obtain ⟨s, hbuild⟩ := Store.exists_ok_of_isOk hok
  exact ⟨s, hbuild, findsAll_of_build hbuild (by decide +kernel) (by decide +kernel)⟩

/-- Names that differ within each list may still clash: an account with a group, a class of service
with the domain of an address, an account with the domain of another address, a class of service
with the global grant entry, and a domain with the id of a class of service. The one is found in
place of the other, which is not found. -/
theorem declared_lost :
    Sample.kindFound? (Sample.ofNames [] [] ["team@home.com"] ["team@home.com"])
        "team@home.com" = .ok (some (.distributionList false)) ∧
      Sample.kindFound? (Sample.ofNames [] ["home.com"] ["ann@home.com"] []) "home.com" =
        .ok (some .domain) ∧
      Sample.kindFound? (Sample.ofNames [] [] ["ann@home.com", "bob@ann@home.com"] [])
        "ann@home.com" = .ok (some .domain) ∧
      Sample.kindFound? (Sample.ofNames [] ["GlobalGrant"] [] []) "GlobalGrant" =
        .ok (some .globalGrant) ∧
      Sample.kindFound? (Sample.ofNames [(Uuid.ofName "gold").text] ["gold"] [] [])
        (Uuid.ofName "gold").text = .ok (some .cos) := by
  refine ⟨?_, ?_, ?_, ?_, ?_⟩
  · decide +kernel
  · decide +kernel
  · decide +kernel
  · decide +kernel
  · decide +kernel

/-- Nothing less will do: where the names differ within each list and all declarations are found,
the names are apart. -/
theorem apart_of_findsAll {c : Catalog} {maxLifetime now : Int} {s : Store}
    (hbuild : w.build c maxLifetime now = .ok s) (hown : w.NoOwnId) (hcos : w.cos.Nodup)
    (haccounts : (w.accounts.map (·.email)).Nodup) (hgroups : (w.groups.map (·.email)).Nodup)
    (hfinds : s.directory.FindsAll w) : w.Apart := by
  obtain ⟨es, hbrings, hsame⟩ := exists_of_build hbuild
  have hloaded : (ofEntries es).FindsAll w := hsame.symm.findsAll hfinds
  have hplain : ∀ name ∈ w.domains ++ w.cos, w.Plain name := fun name hname =>
    plain_of_findsAll hbrings hloaded hown hname
  exact ⟨hfinds.different hcos haccounts hgroups, fun name hname domain hdomain =>
    offDomains_of_findsAll hbrings hloaded hplain hname hdomain, hplain⟩

end World

end DirectoryRights
