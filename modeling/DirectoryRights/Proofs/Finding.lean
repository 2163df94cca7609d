import DirectoryRights.Proofs.Declarations
import DirectoryRights.Proofs.Writes

/-!
# Finding what is declared

A name is looked up as the name of the global grant entry, as an id, as the name of a domain and as
the name from which an id is derived, in this order. A declaration is found if its name leads to an
entry of what it declares; then no other declaration has taken its place. Only the entries and the
index of domains matter for it: putting members into groups and making grants changes nothing.
-/

set_option autoImplicit false

namespace DirectoryRights

/-- A kind of another target type than domains is not the kind of domains. -/
theorem EntryKind.ne_domain {kind : EntryKind} (h : kind.targetType ≠ .domain) :
    kind ≠ .domain := by
  rintro rfl
  exact h rfl

/-- No account is declared as a class of service. -/
theorem DeclaredAccount.kind_ne_cos (a : DeclaredAccount) : a.kind ≠ .cos := by
  unfold kind
  split <;> exact EntryKind.noConfusion

/-- No group is declared as a class of service. -/
theorem DeclaredGroup.kind_ne_cos (g : DeclaredGroup) : g.kind ≠ .cos := by
  unfold kind
  split <;> exact EntryKind.noConfusion

/-- No account is declared as a group. -/
theorem DeclaredAccount.kind_ne_kind (a : DeclaredAccount) (g : DeclaredGroup) :
    a.kind ≠ g.kind := by
  unfold kind DeclaredGroup.kind
  split <;> split <;> exact EntryKind.noConfusion

namespace Directory

/-- An address is found as an entry of a kind that lives in the domain of the address. -/
def FindsAddress (d : Directory) (email : String) (kind : EntryKind) : Prop :=
  ∃ e domainName home, d.named email = .ok e ∧ e.name = email ∧ e.kind = kind ∧
    Text.afterFirst? '@' email = some domainName ∧ d.domainNamed? domainName = some home ∧
    home.kind = .domain ∧ Text.lower home.name = Text.lower domainName ∧
    e.domainId = some home.id

/-- Every declaration of a world is found under its name, as what it declares. -/
structure FindsAll (d : Directory) (w : World) : Prop where
  domains : ∀ name ∈ w.domains, ∃ e, d.named name = .ok e ∧ e.kind = .domain ∧
    Text.lower e.name = Text.lower name
  cos : ∀ name ∈ w.cos, ∃ e, d.named name = .ok e ∧ e.kind = .cos ∧ e.name = name
  accounts : ∀ a ∈ w.accounts, d.FindsAddress a.email a.kind
  groups : ∀ g ∈ w.groups, d.FindsAddress g.email g.kind

/-- No declaration takes the place of another: what is found under two names is one entry only if
they are spellings of one domain. -/
def KeepsApart (d : Directory) (w : World) : Prop :=
  ∀ name ∈ w.domains ++ w.ownNames, ∀ other ∈ w.domains ++ w.ownNames,
    d.named name = d.named other → name = other ∨
      name ∈ w.domains ∧ other ∈ w.domains ∧ Text.lower name = Text.lower other

/-- The two directories have the same entries and the same index of domains. -/
structure SameNames (d e : Directory) : Prop where
  entries : e.entries = d.entries
  domainIds : e.domainIds = d.domainIds

variable {d e f : Directory}

/-- Directories in which names lead to the same entries can be compared step by step. -/
theorem SameNames.trans (h : SameNames d e) (h' : SameNames e f) : SameNames d f :=
  ⟨h'.entries.trans h.entries, h'.domainIds.trans h.domainIds⟩

/-- Which of the two directories comes first does not matter. -/
theorem SameNames.symm (h : SameNames d e) : SameNames e d :=
  ⟨h.entries.symm, h.domainIds.symm⟩

/-- Where directories differ in attributes alone, names lead to the same entries. -/
theorem SameEntries.sameNames (h : SameEntries d e) : SameNames d e := by
  unfold SameEntries at h
  rw [h]
  exact ⟨rfl, rfl⟩

/-- A membership changes nothing about names. -/
theorem sameNames_enroll (d : Directory) (group member : EntryId) :
    SameNames d (d.enroll group member) := by
  unfold enroll
  simp only
  split <;> exact ⟨rfl, rfl⟩

/-- The members of a group change nothing about names. -/
theorem sameNames_addMembers {group : DeclaredGroup} (h : d.addMembers group = .ok e) :
    SameNames d e := by
  obtain ⟨entry, -, hrun⟩ := exists_of_bind_eq_ok h
  refine foldlM_induction (fun _ => SameNames d) ⟨rfl, rfl⟩ ?_ hrun
  intro _ before name after hsame hstep
  obtain ⟨member, -, hafter⟩ := exists_of_bind_eq_ok hstep
  cases hafter
  exact hsame.trans (sameNames_enroll before entry.id member.id)

/-- Each address of the world is found, as an account or a group. -/
theorem FindsAll.address {w : World} (h : d.FindsAll w) {email : String}
    (hemail : email ∈ w.addresses) :
    ∃ kind, kind ≠ .domain ∧ kind ≠ .cos ∧ d.FindsAddress email kind := by
  rcases List.mem_append.mp hemail with haccount | hgroup
  · obtain ⟨a, ha, rfl⟩ := List.mem_map.mp haccount
    exact ⟨a.kind, EntryKind.ne_domain a.notDomain, a.kind_ne_cos, h.accounts a ha⟩
  · obtain ⟨g, hg, rfl⟩ := List.mem_map.mp hgroup
    exact ⟨g.kind, EntryKind.ne_domain g.notDomain, g.kind_ne_cos, h.groups g hg⟩

/-- Each name of the world but those of domains is found as the name of an entry that is no
domain. -/
theorem FindsAll.own {w : World} (h : d.FindsAll w) {name : String} (hname : name ∈ w.ownNames) :
    ∃ e, d.named name = .ok e ∧ e.name = name ∧ e.kind ≠ .domain := by
  rcases List.mem_append.mp hname with hcos | haddress
  · obtain ⟨e, he, hkind, hsame⟩ := h.cos name hcos
    exact ⟨e, he, hsame, fun hdomain => EntryKind.noConfusion (hkind.symm.trans hdomain)⟩
  · obtain ⟨kind, hdomain, -, e, -, -, he, hsame, rfl, -⟩ := h.address haddress
    exact ⟨e, he, hsame, hdomain⟩

/-- What a domain or a class of service is found as is not the global grant entry. -/
theorem FindsAll.plain {w : World} (h : d.FindsAll w) {name : String}
    (hname : name ∈ w.domains ++ w.cos) :
    ∃ e, d.named name = .ok e ∧ e ≠ globalGrant ∧ Text.lower e.name = Text.lower name := by
  rcases List.mem_append.mp hname with hdomain | hcos
  · obtain ⟨e, he, hkind, hspelled⟩ := h.domains name hdomain
    refine ⟨e, he, ?_, hspelled⟩
    rintro rfl
    cases hkind
  · obtain ⟨e, he, hkind, rfl⟩ := h.cos name hcos
    refine ⟨e, he, ?_, rfl⟩
    rintro rfl
    cases hkind

/-- What is found under an address is of the kind that was declared. -/
theorem FindsAddress.kind_eq {email : String} {kind : EntryKind} {e : Entry}
    (h : d.FindsAddress email kind) (he : d.named email = .ok e) : e.kind = kind := by
  obtain ⟨found, -, -, hfound, -, rfl, -⟩ := h
  exact congrArg (·.kind) (Except.ok.inj (he.symm.trans hfound))

/-- Names that differ within each list differ across the lists if they are all found, because they
are found as entries of different kinds. -/
theorem FindsAll.different {w : World} (h : d.FindsAll w) (hcos : w.cos.Nodup)
    (haccounts : (w.accounts.map (·.email)).Nodup) (hgroups : (w.groups.map (·.email)).Nodup) :
    w.ownNames.Nodup := by
  have haddresses : w.addresses.Nodup := by
    refine List.nodup_append.mpr ⟨haccounts, hgroups, ?_⟩
    rintro _ haccount _ hgroup rfl
    obtain ⟨a, ha, hemail⟩ := List.mem_map.mp haccount
    obtain ⟨g, hg, rfl⟩ := List.mem_map.mp hgroup
    obtain ⟨e, -, -, he, -, hkind, -⟩ := h.groups g hg
    refine a.kind_ne_kind g ((FindsAddress.kind_eq ?_ he).symm.trans hkind)
    rw [← hemail]
    exact h.accounts a ha
  refine List.nodup_append.mpr ⟨hcos, haddresses, ?_⟩
  rintro name hname _ haddress rfl
  obtain ⟨e, he, hkind, -⟩ := h.cos name hname
  obtain ⟨kind, -, hother, hfound⟩ := h.address haddress
  exact hother ((hfound.kind_eq he).symm.trans hkind)

/-- Where every declaration is found as what it declares, none takes the place of another. -/
theorem FindsAll.keepsApart {w : World} (h : d.FindsAll w) : d.KeepsApart w := by
  intro name hname other hother hsame
  rcases List.mem_append.mp hname with hdomain | hown
  · obtain ⟨e, he, hkind, hspelled⟩ := h.domains name hdomain
    rcases List.mem_append.mp hother with hdomain' | hown'
    · obtain ⟨e', he', -, hspelled'⟩ := h.domains other hdomain'
      obtain rfl : e = e' := Except.ok.inj (he.symm.trans (hsame.trans he'))
      exact .inr ⟨hdomain, hdomain', hspelled.symm.trans hspelled'⟩
    · obtain ⟨e', he', -, hkind'⟩ := h.own hown'
      obtain rfl : e = e' := Except.ok.inj (he.symm.trans (hsame.trans he'))
      exact absurd hkind hkind'
  · obtain ⟨e, he, hnamed, hkind⟩ := h.own hown
    rcases List.mem_append.mp hother with hdomain' | hown'
    · obtain ⟨e', he', hkind', -⟩ := h.domains other hdomain'
      obtain rfl : e = e' := Except.ok.inj (he.symm.trans (hsame.trans he'))
      exact absurd hkind' hkind
    · obtain ⟨e', he', hnamed', -⟩ := h.own hown'
      obtain rfl : e = e' := Except.ok.inj (he.symm.trans (hsame.trans he'))
      exact .inl (hnamed.symm.trans hnamed')

/-- The two directories find the same by ids. -/
theorem SameNames.entry?_eq (h : SameNames d e) : e.entry? = d.entry? := by
  funext id
  unfold entry?
  rw [h.entries]

/-- The two directories find the same domains by names. -/
theorem SameNames.domainNamed?_eq (h : SameNames d e) : e.domainNamed? = d.domainNamed? := by
  funext name
  unfold domainNamed?
  rw [h.domainIds, h.entry?_eq]

/-- A name stands for the same entry in the two directories. -/
theorem SameNames.named?_eq (h : SameNames d e) : e.named? = d.named? := by
  funext name
  unfold named?
  rw [h.domainNamed?_eq, h.entry?_eq]

/-- Names lead to the same entries in both directories. -/
theorem SameNames.findsAll (h : SameNames d e) {w : World} (hfinds : d.FindsAll w) :
    e.FindsAll w := by
  have hdomain := h.domainNamed?_eq
  have hnamed : e.named = d.named := by
    funext name
    unfold named
    rw [h.named?_eq]
  have haddress : e.FindsAddress = d.FindsAddress := by
    funext email kind
    unfold FindsAddress
    rw [hnamed, hdomain]
  refine ⟨?_, ?_, ?_, ?_⟩
  · rw [hnamed]
    exact hfinds.domains
  · rw [hnamed]
    exact hfinds.cos
  · rw [haddress]
    exact hfinds.accounts
  · rw [haddress]
    exact hfinds.groups

/-- An entry is found by a name exactly if the name stands for it. -/
theorem named_eq_ok {name : String} {found : Entry} :
    d.named name = .ok found ↔ d.named? name = some found := by
  unfold named
  cases d.named? name <;> simp

/-- A name is read as that of the global grant entry first. -/
theorem named_of_sameFolded {name : String} (hfold : Text.sameFolded name globalGrantName = true) :
    d.named name = .ok globalGrant := by
  rw [named_eq_ok, named?, if_pos hfold]

/-- Then it is read as an id. -/
theorem named_of_parse {name : String} {id : EntryId} {found : Entry}
    (hfold : Text.sameFolded name globalGrantName = false) (hparse : Uuid.parse? name = some id)
    (hentry : d.entry? id = some found) : d.named name = .ok found := by
  rw [named_eq_ok, named?, hfold, hparse, Option.bind_some, hentry]
  rfl

/-- A name that is not read as anything else is that of a domain, or a name from which an id is
derived. -/
theorem named_iff {name : String} {found : Entry}
    (hfold : Text.sameFolded name globalGrantName = false)
    (htext : ∀ id, Uuid.parse? name = some id → d.entry? id = none) :
    d.named name = .ok found ↔
      (d.domainNamed? name <|> d.entry? (Uuid.ofName name)) = some found := by
  have hid : (Uuid.parse? name).bind d.entry? = none := by
    cases hparse : Uuid.parse? name with
    | none => rfl
    | some id => exact htext id hparse
  rw [named_eq_ok, named?, hfold, hid]
  rfl

end Directory

/-- A change of grants changes nothing about names. -/
theorem Store.Changed.sameNames {c : Catalog} {target : Entry}
    {change : GrantSet → GrantSet × List Grant} {changed : List Grant} {s t : Store}
    (h : Changed c target change changed s t) : Directory.SameNames s.directory t.directory := by
  obtain ⟨set, -, -, ⟨-, rfl⟩ | ⟨-, hwritten⟩⟩ := h
  · exact ⟨rfl, rfl⟩
  · exact hwritten.entries.sameNames

/-- Making a grant changes nothing about names. -/
theorem DeclaredGrant.sameNames_make {g : DeclaredGrant} {c : Catalog} {maxLifetime now : Int}
    {s t : Store} (h : g.make c maxLifetime now s = .ok t) :
    Directory.SameNames s.directory t.directory := by
  obtain ⟨target, -, hread⟩ := exists_of_bind_eq_ok h
  obtain ⟨grant, -, hmade⟩ := exists_of_bind_eq_ok hread
  cases hexpiry : g.expiry with
  | none =>
    rw [hexpiry] at hmade
    obtain ⟨⟨changed, after⟩, hgranted, rfl⟩ := exists_of_map_eq_ok (eq_ok_of_mapError hmade)
    exact (Store.changed_of_grant hgranted).sameNames
  | some expiry =>
    rw [hexpiry] at hmade
    obtain ⟨⟨⟨changed, ending⟩, after⟩, hgranted, rfl⟩ :=
      exists_of_map_eq_ok (eq_ok_of_mapError hmade)
    exact (Store.changed_of_grantUntil hgranted).sameNames

end DirectoryRights
