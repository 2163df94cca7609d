import DirectoryRights.Matching
import DirectoryRights.Proofs.Loading
import DirectoryRights.Proofs.Suffixes

/-!
# The domain of an address

When a world is built, an entry with an address comes into the domain whose name stands after the
first at sign of the address. The entry itself takes its domain part from behind the last at sign.
So the two are the same domain exactly for addresses with one at sign. A grant to the domain by its
id reaches the entry in any case, and a grant to the domain by its name reaches it only then.
-/

set_option autoImplicit false

namespace DirectoryRights

namespace Sample

/-- The world of Ann, with her domain declared in other letters. -/
def village : World := ofNames ["Home.com"] [] ["ann@home.com"] []

/-- The entry of Ann's account in this world. -/
def villager : Entry :=
  .ofAddress "ann@home.com" (.account { isGlobal := false, isDelegated := false })
    (Uuid.ofName "Home.com")

/-- An address with an at sign in quotes. -/
def quoted : String := "\x22bob@ann\x22@home.com"

end Sample

namespace Text

variable {sep : Char} {text first : String}

/-- What stands after the last occurrence of a character is what stands after the first, in lower
case or as it is, exactly if the character occurs once. -/
theorem exists_afterLast? (h : afterFirst? sep text = some first) :
    ∃ last, afterLast? sep text = some last ∧
      (lower first = lower last ↔ text.toList.count sep = 1) ∧
      (sameFolded last first = true ↔ text.toList.count sep = 1) := by
  obtain ⟨⟨before, after⟩, hcut, rfl⟩ := Option.map_eq_some_iff.mp h
  obtain ⟨htext, hbefore⟩ := cutFirst?_eq_some.mp hcut
  have hcount : text.toList.count sep = after.count sep + 1 := by
    rw [htext, List.count_append, List.count_eq_zero_of_not_mem hbefore, List.count_cons_self,
      Nat.zero_add]
  unfold afterLast?
  by_cases hafter : sep ∈ after
  · -- There is another occurrence, so that less stands after the last one.
    obtain ⟨⟨front, last⟩, hlast⟩ := Option.ne_none_iff_exists'.mp
      (mt cutLast?_eq_none.mp (not_not_intro hafter))
    obtain ⟨hsplit, hfree⟩ := cutLast?_eq_some.mp hlast
    have hwhole : cutLast? sep text.toList = some (before ++ sep :: front, last) := by
      rw [cutLast?_eq_some, htext, hsplit]
      exact ⟨by simp, hfree⟩
    have hmany : text.toList.count sep ≠ 1 := by
      have hpositive : 0 < after.count sep := List.count_pos_iff.mpr hafter
      omega
    refine ⟨String.ofList last, by rw [hwhole]; rfl, iff_of_false ?_ hmany, iff_of_false ?_ hmany⟩
    · exact Ancestry.lower_ne_of_after ⟨front, hsplit⟩
    · intro hsame
      have hlength := congrArg List.length (beq_iff_eq.mp hsame)
      simp only [String.toList_ofList, List.length_map, hsplit, List.length_append,
        List.length_cons] at hlength
      omega
  · have hwhole : cutLast? sep text.toList = some (before, after) :=
      cutLast?_eq_some.mpr ⟨htext, hafter⟩
    have hone : text.toList.count sep = 1 := by
      rw [hcount, List.count_eq_zero_of_not_mem hafter]
    refine ⟨String.ofList after, by rw [hwhole]; rfl, iff_of_true rfl hone, iff_of_true ?_ hone⟩
    exact beq_self_eq_true _

end Text

/-- Accounts and groups are no domains. -/
theorem Entry.isDomain_of_kind {e : Entry} (h : e.isAccount = true ∨ e.isGroup = true) :
    e.isDomain = false := by
  by_contra hdomain
  have hkind : e.kind = .domain := kind_of_isDomain (Bool.not_eq_false _ ▸ hdomain)
  rcases h with haccount | hgroup
  · rw [isAccount, hkind] at haccount
    cases haccount
  · rw [isGroup, targetType, hkind] at hgroup
    cases hgroup

namespace World

open Directory

section Brings

variable {w : World} {es : List Entry} (hbrings : Brings w.declarations es)

include hbrings

/-- The names of the entries that come in are the names of the world. -/
theorem perm_names : (es.map (·.name)).Perm w.names := by
  have hnames : w.names = (es.filter (·.isDomain) ++ es.filter (!·.isDomain)).map (·.name) := by
    rw [List.map_append, hbrings.domains, hbrings.own, w.filterMap_domainName?,
      w.filterMap_ownName?]
    rfl
  rw [hnames]
  exact (List.filter_append_perm _ es).symm.map _

/-- Where different names have different ids, entries that come in one after the other differ in
their ids. -/
theorem ids_differ (hids : (w.names.map Uuid.ofName).Nodup) :
    es.Pairwise fun older newer => older.id ≠ newer.id := by
  have hderived : es.map (·.id) = (es.map (·.name)).map Uuid.ofName := by
    rw [List.map_map]
    exact List.map_congr_left hbrings.ids
  have hnodup : (es.map (·.id)).Nodup := by
    rw [hderived]
    exact ((perm_names hbrings).map Uuid.ofName).nodup_iff.mpr hids
  exact List.pairwise_map.mp hnodup

variable (hids : es.Pairwise fun older newer => older.id ≠ newer.id)

include hids

/-- An account or a group came in by its address, after the domain of this address. -/
theorem exists_home {e : Entry} (he : e ∈ es) (hkind : e.isAccount = true ∨ e.isGroup = true) :
    ∃ domainName, Text.afterFirst? '@' e.name = some domainName ∧
      ∃ home ∈ es, home.HasName (Text.lower domainName) ∧ e.domainId = some home.id ∧
        e.pseudo = none := by
  have hown := Entry.isDomain_of_kind hkind
  have hunique : ∀ f ∈ es, f.name = e.name → f = e := by
    intro f hf hname
    have hfound := entry?_ofEntries_of_mem hids hf
    rw [hbrings.ids f hf, hname, ← hbrings.ids e he, entry?_ofEntries_of_mem hids he] at hfound
    exact (Option.some.inj hfound).symm
  have hname := mem_ownNames hbrings he hown
  rw [← w.filterMap_ownName?] at hname
  obtain ⟨declaration, hdeclared, hdeclares⟩ := List.mem_filterMap.mp hname
  have hmet := hbrings.met declaration hdeclared
  cases declaration with
  | domain name => cases hdeclares
  | cos name =>
    cases hdeclares
    rw [← hunique _ hmet rfl] at hkind
    rcases hkind with haccount | hgroup
    · cases haccount
    · cases hgroup
  | address email kind notDomain =>
    cases hdeclares
    obtain ⟨domainName, hafter, home, hhome, hnamed, hmem⟩ := hmet
    refine ⟨domainName, hafter, home, hhome, hnamed, ?_⟩
    rw [← hunique _ hmem rfl]
    exact ⟨rfl, rfl⟩

end Brings

variable {w : World} {c : Catalog} {maxLifetime now : Int} {s : Store}

/-- In a world that is built, no two names of which have one id, every account and every group is
owned by a domain of the name that stands after the first at sign of its address, so that grants to
this domain by its id are grants to it. The domain part of its own name names the same domain, and
grants to the domain by its name are grants to it, exactly if its address has one at sign. -/
theorem home_of_build (hbuild : w.build c maxLifetime now = .ok s)
    (hnames : (w.names.map Uuid.ofName).Nodup) {e : Entry}
    (hfound : s.directory.entry? e.id = some e)
    (hkind : e.isAccount = true ∨ e.isGroup = true) :
    ∃ home domainName part, s.directory.homeDomain? e = some home ∧ home.isDomain = true ∧
      Text.afterFirst? '@' e.name = some domainName ∧
      Text.lower home.name = Text.lower domainName ∧ e.homeName? = some part ∧
      (Text.lower home.name = Text.lower part ↔ e.name.toList.count '@' = 1) ∧
      ∀ asAdmin g,
        (g.granteeType = .domain → g.grantee = home.id.text →
          Matching.isGrantee s.directory.view (.entry e) asAdmin g = .ok true) ∧
        (g.granteeType = .externalDomain → g.grantee = domainName →
          Matching.isGrantee s.directory.view (.entry e) asAdmin g =
            .ok (e.name.toList.count '@' = 1)) := by
  obtain ⟨es, hbrings, hsame⟩ := exists_of_build hbuild
  have hids := ids_differ hbrings hnames
  rw [hsame.entry?_eq] at hfound
  have hmem : e ∈ es := by
    refine (List.mem_cons.mp (mem_of_entry?_ofEntries hfound).1).resolve_left ?_
    rintro rfl
    rcases hkind with haccount | hgroup
    · cases haccount
    · cases hgroup
  obtain ⟨domainName, hfirst, home, hhome, hnamed, hdomainId, hpseudo⟩ :=
    exists_home hbrings hids hmem hkind
  obtain ⟨part, hlast, hlower, hfolded⟩ := Text.exists_afterLast? hfirst
  have howner : s.directory.homeDomain? e = some home := by
    have hreal : e.isPseudo = false := congrArg Option.isSome hpseudo
    rw [homeDomain?_of_real _ (syntheticDomain?_of_real hreal), hdomainId, hsame.entry?_eq]
    exact entry?_ofEntries_of_mem hids hhome
  have hpart : e.homeName? = some part := by
    unfold Entry.homeName?
    rw [Entry.isDomain_of_kind hkind, if_neg Bool.false_ne_true, hlast]
  refine ⟨home, domainName, part, howner, hnamed.1, hfirst, hnamed.2, hpart, ?_, ?_⟩
  · rw [hnamed.2]
    exact hlower
  · intro asAdmin g
    unfold Matching.isGrantee Matching.isIdentifiedGrantee
    rw [if_neg nofun]
    constructor
    · intro htype hgrantee
      have hid : (Principal.entry e).homeId? = some home.id := hdomainId
      rw [htype, hgrantee]
      simp only [hid, Option.any_some, decide_true]
    · intro htype hgrantee
      have hname : (Principal.entry e).homeName? = some part := hpart
      rw [htype, hgrantee]
      simp only [hname, Option.any_some]
      exact congrArg Except.ok (Bool.eq_iff_iff.mpr (hfolded.trans decide_eq_true_iff.symm))

/-- Ann's account is owned by the domain that is declared in other letters. -/
theorem home_of_build_sample :
    ∃ s home part, Sample.village.build Sample.control.catalog 0 0 = .ok s ∧
      s.directory.homeDomain? Sample.villager = some home ∧
      Sample.villager.homeName? = some part ∧ Text.lower home.name = Text.lower part := by
  have hstored : (Sample.village.build Sample.control.catalog 0 0).map
      (·.directory.entry? Sample.villager.id) = .ok (some Sample.villager) := by
    decide +kernel
  obtain ⟨s, hbuild, hfound⟩ := exists_of_map_eq_ok hstored
  obtain ⟨home, -, part, hhome, -, -, -, hpart, hsame, -⟩ :=
    home_of_build hbuild (by decide +kernel) hfound (.inl rfl)
  exact ⟨s, home, part, hbuild, hhome, hpart, hsame.mpr (by decide +kernel)⟩

/-- Bob's address has an at sign within its quoted first part. What owns his account has the name of
all that stands after this sign, and by his own name he lives in another domain. -/
theorem quoted_misplaced :
    ((Sample.ofNames [] [] [Sample.quoted] []).names.map Uuid.ofName).Nodup ∧
      ((Sample.ofNames [] [] [Sample.quoted] []).build Sample.control.catalog 0 0).map
          (fun s => (s.directory.named? Sample.quoted).map fun e =>
            ((s.directory.homeDomain? e).map (·.name), e.homeName?)) =
        .ok (some (some "ann\x22@home.com", some "home.com")) ∧
      Text.lower "ann\x22@home.com" ≠ Text.lower "home.com" := by
  refine ⟨?_, ?_, ?_⟩
  · decide +kernel
  · decide +kernel
  · decide +kernel

end World

end DirectoryRights
