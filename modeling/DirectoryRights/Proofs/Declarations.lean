import DirectoryRights.World.Build
import DirectoryRights.Proofs.Renaming

/-!
# The entries that declarations bring in

A world declares its entries one after the other. A class of service, an account or a group brings
in an entry of its name each time; a domain comes in when it is first asked for, be it declared or
be it the end of an address, and keeps the name it was asked for by. All of them come in under the
ids that are derived from their names.
-/

set_option autoImplicit false

namespace DirectoryRights

namespace Text

/-- The names, with one more if it is no spelling of one of them. -/
def addSpelling (names : List String) (name : String) : List String :=
  if ∃ first ∈ names, lower first = lower name then names else names ++ [name]

/-- Each name as it is first spelled, whatever the case of its letters. -/
def firstSpelled (names : List String) : List String :=
  names.foldl addSpelling []

/-- A name that comes last is added to the spellings of all before. -/
theorem firstSpelled_concat (names : List String) (name : String) :
    firstSpelled (names ++ [name]) = addSpelling (firstSpelled names) name := by
  unfold firstSpelled
  rw [List.foldl_append]
  rfl

/-- Each spelling is one of the names. -/
theorem mem_of_mem_firstSpelled {names : List String} {name : String}
    (h : name ∈ firstSpelled names) : name ∈ names := by
  induction names using List.reverseRecOn with
  | nil => exact h
  | append_singleton names last ih =>
    rw [firstSpelled_concat, addSpelling] at h
    split at h
    · exact List.mem_append_left _ (ih h)
    · rcases List.mem_append.mp h with hold | hlast
      · exact List.mem_append_left _ (ih hold)
      · exact List.mem_append_right _ hlast

/-- No two of the spellings differ in case alone. -/
theorem pairwise_firstSpelled (names : List String) :
    (firstSpelled names).Pairwise fun first later => lower first ≠ lower later := by
  induction names using List.reverseRecOn with
  | nil => exact List.Pairwise.nil
  | append_singleton names last ih =>
    rw [firstSpelled_concat, addSpelling]
    split
    · exact ih
    · rename_i hnew
      refine List.pairwise_append.mpr ⟨ih, List.pairwise_singleton _ _, fun first hfirst => ?_⟩
      exact List.forall_mem_singleton.mpr fun hsame => hnew ⟨first, hfirst, hsame⟩

end Text

/-- What declares an entry of a world. -/
inductive Declaration where
  /-- A domain, by its name. -/
  | domain (name : String)
  /-- A class of service, by its name. -/
  | cos (name : String)
  /-- An account or a group, by its address. -/
  | address (email : String) (kind : EntryKind) (notDomain : kind.targetType ≠ .domain)

namespace Declaration

/-- The name of the domain that has to be there. -/
def domainName? : Declaration → Option String
  | domain name => some name
  | cos _ => none
  | address email _ _ => Text.afterFirst? '@' email

/-- The name of the entry that comes in each time. -/
def ownName? : Declaration → Option String
  | domain _ => none
  | cos name => some name
  | address email _ _ => some email

end Declaration

namespace Entry

/-- The entry of a domain, with the id that is derived from its name. -/
def ofDomain (name : String) : Entry :=
  .ofIdentity { id := Uuid.ofName name, name, kind := .domain }

/-- The entry of a class of service, with the id that is derived from its name. -/
def ofCos (name : String) : Entry :=
  .ofIdentity { id := Uuid.ofName name, name, kind := .cos }

/-- The entry of an address in the domain of an id. -/
def ofAddress (email : String) (kind : EntryKind) (home : EntryId) : Entry where
  id := Uuid.ofName email
  name := email
  kind := kind
  domainId := some home
  pseudo := none

end Entry

/-- What a declaration asks for has come in. -/
def Met (es : List Entry) : Declaration → Prop
  | .domain name => ∃ home ∈ es, home.HasName (Text.lower name)
  | .cos name => .ofCos name ∈ es
  | .address email kind _ => ∃ domainName, Text.afterFirst? '@' email = some domainName ∧
      ∃ home ∈ es, home.HasName (Text.lower domainName) ∧ .ofAddress email kind home.id ∈ es

/-- The entries that come in when something is declared. -/
structure Brings (ds : List Declaration) (es : List Entry) : Prop where
  /-- Domains come in as they are first asked for. -/
  domains : (es.filter (·.isDomain)).map (·.name) =
    Text.firstSpelled (ds.filterMap Declaration.domainName?)
  /-- The others come in as they are declared. -/
  own : (es.filter (!·.isDomain)).map (·.name) = ds.filterMap Declaration.ownName?
  /-- The ids are derived from the names. -/
  ids : ∀ e ∈ es, e.id = Uuid.ofName e.name
  /-- Everything that is declared is there. -/
  met : ∀ declaration ∈ ds, Met es declaration

namespace Directory

/-- The directory with what a declaration brings in. -/
def declare (d : Directory) : Declaration → Except WorldFault Directory
  | .domain name => .ok (d.withDomain name).1
  | .cos name => .ok (d.addCos name)
  | .address email kind _ => d.addAddress email kind

/-- The directory into which some entries came. -/
def ofEntries (es : List Entry) : Directory :=
  filled (es.map .entry)

/-- The entry that comes in last is added to the directory of all before. -/
theorem ofEntries_concat (es : List Entry) (e : Entry) :
    ofEntries (es ++ [e]) = (ofEntries es).add e := by
  unfold ofEntries
  rw [List.map_append]
  exact filled_concat _ _

/-- What comes into the empty directory comes after the global grant entry. -/
theorem entries_map_entry (es : List Entry) :
    Arrival.entries (es.map .entry) = globalGrant :: es := by
  unfold Arrival.entries
  rw [List.filterMap_map]
  exact congrArg _ List.filterMap_some

variable {es : List Entry}

/-- What is found by an id has come in under it. -/
theorem mem_of_entry?_ofEntries {id : EntryId} {e : Entry}
    (h : entry? (ofEntries es) id = some e) : e ∈ globalGrant :: es ∧ e.id = id := by
  have hlast := entry?_filled_iff.mp h
  rw [entries_map_entry] at hlast
  exact hlast.mem

/-- Under the id of each entry that came in some entry is found. -/
theorem exists_entry?_ofEntries {e : Entry} (h : e ∈ globalGrant :: es) :
    ∃ found, entry? (ofEntries es) e.id = some found := by
  obtain ⟨last, -, hlast⟩ := exists_lastOf (p := (·.id = e.id)) h rfl
  rw [← entries_map_entry] at hlast
  exact ⟨last, entry?_filled_iff.mpr hlast⟩

/-- Where every id comes in once, it leads to the entry that came in under it. -/
theorem entry?_ofEntries_of_mem (hids : es.Pairwise fun older newer => older.id ≠ newer.id)
    {e : Entry} (he : e ∈ es) : entry? (ofEntries es) e.id = some e := by
  have hlast : LastOf (·.id = e.id) es e :=
    lastOf_of_unique (hids.imp fun hdiffer hsame hother => hdiffer (hsame.trans hother.symm)) he rfl
  unfold ofEntries
  rw [entry?_filled_iff, entries_map_entry]
  exact hlast.append_left [globalGrant]

end Directory

variable {ds : List Declaration} {es : List Entry}

/-- What has come in stays there when more comes in. -/
theorem Met.append {declaration : Declaration} (h : Met es declaration) (new : List Entry) :
    Met (es ++ new) declaration := by
  have hmem : ∀ {e}, e ∈ es → e ∈ es ++ new := List.mem_append_left new
  cases declaration with
  | domain name =>
    obtain ⟨home, hhome, hname⟩ := h
    exact ⟨home, hmem hhome, hname⟩
  | cos name => exact hmem h
  | address email kind notDomain =>
    obtain ⟨domainName, haddress, home, hhome, hname, hentry⟩ := h
    exact ⟨domainName, haddress, home, hmem hhome, hname, hmem hentry⟩

namespace Brings

open Directory

/-- There is one domain of a name. -/
theorem once (h : Brings ds es) : es.Pairwise fun older newer => older.isDomain = true →
    newer.isDomain = true → Text.lower older.name ≠ Text.lower newer.name := by
  have hfirst := Text.pairwise_firstSpelled (ds.filterMap Declaration.domainName?)
  rw [← h.domains, List.pairwise_map] at hfirst
  exact List.pairwise_filter.mp hfirst

/-- The names that ask for domains, as first spelled, are the names of the domains that came in. -/
theorem mem_firstSpelled (h : Brings ds es) (name : String) :
    name ∈ Text.firstSpelled (ds.filterMap Declaration.domainName?) ↔
      ∃ home ∈ es, home.isDomain = true ∧ home.name = name := by
  rw [← h.domains, List.mem_map]
  simp only [List.mem_filter, and_assoc]

/-- The index leads from a name to the one domain of this name. -/
theorem index (h : Brings ds es) {key : String} {id : EntryId} :
    (ofEntries es).domainIds.get? key = some id ↔ ∃ home ∈ es, home.HasName key ∧ home.id = id := by
  unfold ofEntries
  rw [domainIds_filled_iff, entries_map_entry]
  constructor
  · rintro ⟨home, hlast, hid⟩
    obtain ⟨hmem, hname⟩ := hlast.mem
    rcases List.mem_cons.mp hmem with rfl | hmem
    · cases hname.1
    · exact ⟨home, hmem, hname, hid⟩
  · rintro ⟨home, hmem, hname, hid⟩
    refine ⟨home, LastOf.append_left ?_ [globalGrant], hid⟩
    refine lastOf_of_unique (h.once.imp ?_) hmem hname
    rintro older newer hdiffer ⟨holder, rfl⟩ ⟨hnewer, hsame⟩
    exact hdiffer holder hnewer hsame.symm

/-- The domains of a directory are found by their names. -/
theorem domainNamed?_eq_none (h : Brings ds es) {name : String}
    (hnone : ∀ home ∈ es, ¬ home.HasName (Text.lower name)) :
    (ofEntries es).domainNamed? name = none := by
  unfold domainNamed?
  cases hid : (ofEntries es).domainIds.get? (Text.lower name) with
  | none => rfl
  | some id =>
    obtain ⟨home, hmem, hname, -⟩ := h.index.mp hid
    exact absurd hname (hnone home hmem)

/-- A domain that came in is found by its name, whatever the case of its letters, as what its id
leads to. -/
theorem domainNamed?_eq (h : Brings ds es) {name : String} {home : Entry} (hmem : home ∈ es)
    (hname : home.HasName (Text.lower name)) :
    (ofEntries es).domainNamed? name = entry? (ofEntries es) home.id := by
  unfold domainNamed?
  rw [h.index.mpr ⟨home, hmem, hname, rfl⟩]
  rfl

/-- A name that asks for its domain brings it in, if there is none of the name. -/
theorem withDomain (h : Brings ds es) (name : String) :
    ∃ es', ((ofEntries es).withDomain name).1 = ofEntries es' ∧
      Brings (ds ++ [.domain name]) es' ∧ ∃ home ∈ es', home.HasName (Text.lower name) ∧
        home.id = ((ofEntries es).withDomain name).2.id := by
  have hdomains : (ds ++ [Declaration.domain name]).filterMap Declaration.domainName? =
      ds.filterMap Declaration.domainName? ++ [name] := List.filterMap_append
  have hown : ds.filterMap Declaration.ownName? =
      (ds ++ [Declaration.domain name]).filterMap Declaration.ownName? := by
    rw [List.filterMap_append]
    exact (List.append_nil _).symm
  have hasked : (∃ first ∈ Text.firstSpelled (ds.filterMap Declaration.domainName?),
      Text.lower first = Text.lower name) ↔ ∃ home ∈ es, home.HasName (Text.lower name) := by
    simp only [h.mem_firstSpelled]
    constructor
    · rintro ⟨-, ⟨home, hmem, hdomain, rfl⟩, hspelled⟩
      exact ⟨home, hmem, hdomain, hspelled⟩
    · rintro ⟨home, hmem, hdomain, hspelled⟩
      exact ⟨home.name, ⟨home, hmem, hdomain, rfl⟩, hspelled⟩
  unfold Directory.withDomain
  by_cases hthere : ∃ home ∈ es, home.HasName (Text.lower name)
  · have hsame : Text.firstSpelled ((ds ++ [Declaration.domain name]).filterMap
        Declaration.domainName?) = Text.firstSpelled (ds.filterMap Declaration.domainName?) := by
      rw [hdomains, Text.firstSpelled_concat]
      exact if_pos (hasked.mpr hthere)
    obtain ⟨home, hmem, hname⟩ := hthere
    obtain ⟨found, hfound⟩ := exists_entry?_ofEntries (List.mem_cons_of_mem globalGrant hmem)
    rw [h.domainNamed?_eq hmem hname, hfound]
    refine ⟨es, rfl, ⟨h.domains.trans hsame.symm, h.own.trans hown, h.ids, ?_⟩, home, hmem, hname,
      (id_of_found hfound).symm⟩
    exact List.forall_mem_append.mpr ⟨h.met, List.forall_mem_singleton.mpr ⟨home, hmem, hname⟩⟩
  · have hmem : Entry.ofDomain name ∈ es ++ [.ofDomain name] :=
      List.mem_append_right _ List.mem_cons_self
    have hname : (Entry.ofDomain name).HasName (Text.lower name) := ⟨rfl, rfl⟩
    have hadded : Text.firstSpelled ((ds ++ [Declaration.domain name]).filterMap
        Declaration.domainName?) =
          Text.firstSpelled (ds.filterMap Declaration.domainName?) ++ [name] := by
      rw [hdomains, Text.firstSpelled_concat]
      exact if_neg fun hfirst => hthere (hasked.mp hfirst)
    rw [h.domainNamed?_eq_none fun home hmem hname => hthere ⟨home, hmem, hname⟩]
    refine ⟨es ++ [.ofDomain name], (ofEntries_concat es _).symm, ⟨?_, ?_, ?_, ?_⟩,
      .ofDomain name, hmem, hname, rfl⟩
    · rw [List.filter_append, List.map_append, h.domains, hadded]
      rfl
    · rw [List.filter_append, List.map_append, h.own, hown]
      exact List.append_nil _
    · exact List.forall_mem_append.mpr ⟨h.ids, List.forall_mem_singleton.mpr rfl⟩
    · exact List.forall_mem_append.mpr ⟨fun declaration hdeclaration =>
        (h.met declaration hdeclaration).append _,
        List.forall_mem_singleton.mpr ⟨.ofDomain name, hmem, hname⟩⟩

/-- An entry that is no domain comes in at the end. -/
theorem push (h : Brings ds es) {ds' : List Declaration} {e : Entry} (hkind : e.isDomain = false)
    (hid : e.id = Uuid.ofName e.name)
    (hdomains : ds'.filterMap Declaration.domainName? = ds.filterMap Declaration.domainName?)
    (hown : ds'.filterMap Declaration.ownName? = ds.filterMap Declaration.ownName? ++ [e.name])
    (hmet : ∀ declaration ∈ ds', Met (es ++ [e]) declaration) : Brings ds' (es ++ [e]) := by
  have hdomain : [e].filter (·.isDomain) = [] := by
    rw [List.filter_cons_of_neg (by rw [hkind]; exact Bool.false_ne_true)]
    rfl
  have hother : [e].filter (!·.isDomain) = [e] := by
    rw [List.filter_cons_of_pos (by rw [hkind]; rfl)]
    rfl
  refine ⟨?_, ?_, ?_, hmet⟩
  · rw [List.filter_append, List.map_append, h.domains, hdomains, hdomain]
    exact List.append_nil _
  · rw [List.filter_append, List.map_append, h.own, hown, hother]
    rfl
  · exact List.forall_mem_append.mpr ⟨h.ids, List.forall_mem_singleton.mpr hid⟩

/-- A declaration brings in what it asks for. -/
theorem declare (h : Brings ds es) {declaration : Declaration} {d : Directory}
    (hd : (ofEntries es).declare declaration = .ok d) :
    ∃ es', d = ofEntries es' ∧ Brings (ds ++ [declaration]) es' := by
  cases declaration with
  | domain name =>
    obtain ⟨es', hes', hbrings, -⟩ := h.withDomain name
    cases hd
    exact ⟨es', hes', hbrings⟩
  | cos name =>
    cases hd
    refine ⟨es ++ [Entry.ofCos name], (ofEntries_concat es _).symm, h.push rfl rfl ?_ ?_ ?_⟩
    · rw [List.filterMap_append]
      exact List.append_nil _
    · exact List.filterMap_append
    · refine List.forall_mem_append.mpr ⟨fun declaration hdeclaration =>
        (h.met declaration hdeclaration).append _, List.forall_mem_singleton.mpr ?_⟩
      exact List.mem_append_right _ List.mem_cons_self
  | address email kind notDomain =>
    change (ofEntries es).addAddress email kind = .ok d at hd
    unfold addAddress at hd
    cases haddress : Text.afterFirst? '@' email with
    | none =>
      rw [haddress] at hd
      cases hd
    | some domainName =>
      rw [haddress] at hd
      cases hd
      -- First the domain of the address comes in, then the entry of the address.
      obtain ⟨es', hes', hbrings, home, hmem, hname, hid⟩ := h.withDomain domainName
      refine ⟨es' ++ [.ofAddress email kind home.id], ?_, ?_⟩
      · rw [ofEntries_concat, ← hes', hid]
        rfl
      · refine hbrings.push (decide_eq_false notDomain) rfl ?_ ?_ ?_
        · simp [Declaration.domainName?, haddress]
        · simp [Declaration.ownName?, Entry.ofAddress]
        · refine List.forall_mem_append.mpr ⟨fun declaration hdeclaration =>
            (hbrings.met declaration (List.mem_append_left _ hdeclaration)).append _,
            List.forall_mem_singleton.mpr ?_⟩
          exact ⟨domainName, haddress, home, List.mem_append_left _ hmem, hname,
            List.mem_append_right _ List.mem_cons_self⟩

/-- A run of declarations brings in what they ask for. -/
theorem exists_of_declared {d : Directory} (h : ds.foldlM Directory.declare .empty = .ok d) :
    ∃ es, d = ofEntries es ∧ Brings ds es := by
  refine foldlM_induction (fun ds d => ∃ es, d = ofEntries es ∧ Brings ds es) ?_ ?_ h
  · have hempty : ∀ {α : Type} {p : α → Prop}, ∀ a ∈ ([] : List α), p a :=
      fun a ha => absurd ha List.not_mem_nil
    exact ⟨[], rfl, rfl, rfl, hempty, hempty⟩
  · rintro taken d declaration next ⟨es, rfl, hbrings⟩ hnext
    exact hbrings.declare hnext

end Brings

/-- No account is declared as a domain. -/
theorem DeclaredAccount.notDomain (a : DeclaredAccount) : a.kind.targetType ≠ .domain := by
  unfold DeclaredAccount.kind
  split <;> exact nofun

/-- No group is declared as a domain. -/
theorem DeclaredGroup.notDomain (g : DeclaredGroup) : g.kind.targetType ≠ .domain := by
  unfold DeclaredGroup.kind
  split <;> exact nofun

namespace World

/-- The declarations of a world in the order in which they are followed. -/
def declarations (w : World) : List Declaration :=
  w.domains.map .domain ++ w.cos.map .cos ++
    w.accounts.map (fun a => .address a.email a.kind a.notDomain) ++
    w.groups.map fun g => .address g.email g.kind g.notDomain

/-- The entries of a world come in declaration by declaration. -/
theorem entries_eq (w : World) : w.entries = w.declarations.foldlM Directory.declare .empty := by
  have hdomains : (w.domains.map Declaration.domain).foldlM Directory.declare .empty =
      .ok (w.domains.foldl (fun d name => (d.withDomain name).1) .empty) := by
    rw [List.foldlM_map]
    exact List.foldlM_pure
  have hcos : ∀ d, (w.cos.map Declaration.cos).foldlM Directory.declare d =
      .ok (w.cos.foldl Directory.addCos d) := by
    intro d
    rw [List.foldlM_map]
    exact List.foldlM_pure
  unfold declarations
  rw [List.foldlM_append, List.foldlM_append, List.foldlM_append, hdomains]
  show _ = (((w.cos.map Declaration.cos).foldlM Directory.declare _).bind _).bind _
  rw [hcos]
  simp only [List.foldlM_map]
  rfl

/-- The entries of a world are those that its declarations bring in. -/
theorem exists_of_entries {w : World} {d : Directory} (h : w.entries = .ok d) :
    ∃ es, d = Directory.ofEntries es ∧ Brings w.declarations es :=
  Brings.exists_of_declared (w.entries_eq.symm.trans h)

/-- The addresses of the accounts and of the groups. -/
def addresses (w : World) : List String :=
  w.accounts.map (·.email) ++ w.groups.map (·.email)

/-- The names of the entries that are no domains. -/
def ownNames (w : World) : List String :=
  w.cos ++ w.addresses

/-- The names of the domains that are declared, and then of those in addresses. -/
def askedDomains (w : World) : List String :=
  w.domains ++ w.addresses.filterMap (Text.afterFirst? '@')

/-- The names of the domains as they are first spelled. -/
def domainNames (w : World) : List String :=
  Text.firstSpelled w.askedDomains

/-- The names that the declarations of a world have of their own are those of its classes, accounts
and groups. -/
theorem filterMap_ownName? (w : World) :
    w.declarations.filterMap Declaration.ownName? = w.ownNames := by
  simp [declarations, ownNames, addresses, List.filterMap_map, Declaration.ownName?,
    Function.comp_def]

/-- The names of domains that the declarations of a world ask for are those that the world asks
for. -/
theorem filterMap_domainName? (w : World) :
    w.declarations.filterMap Declaration.domainName? = w.askedDomains := by
  simp [declarations, askedDomains, addresses, List.filterMap_map, Declaration.domainName?,
    Function.comp_def]

end World

end DirectoryRights
