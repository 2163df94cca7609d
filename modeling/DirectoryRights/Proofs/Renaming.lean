import DirectoryRights.Proofs.Repetition

/-!
# Domains that come in again

A name leads to the id of the domain that came in last under it, and the id to the entry that came
in last under the id. Nothing is taken out of the index when an entry comes in again. So what is
found by a name is an entry of the directory, but it is a domain of this name only as long as the
last domain of the name was not replaced: one that comes in again under another name, or as an entry
of another kind, is still found by the name it gave up. Where no name was given up so, the domains
above a domain are domains of the names that stand after the dots of its own name.
-/

set_option autoImplicit false

namespace DirectoryRights

namespace Sample

/-- The first domain under another name. -/
def moved : Entry := domain 3 "moved.org"

/-- A domain below the old name of the first domain. -/
def below : Entry := domain 9 "sub.home.com"

/-- The first domain comes in again under another name. -/
def renamed : List Arrival :=
  [.entry home, .entry below, .entry moved]

/-- The first domain comes in again under its own name in other letters. -/
def respelled : List Arrival :=
  [.entry home, .entry below, .entry (domain 3 "HOME.com")]

end Sample

/-- The entries of a directory in the order of their arrival. The global grant entry is there from
the start. -/
def Arrival.entries (arrivals : List Arrival) : List Entry :=
  Directory.globalGrant :: arrivals.filterMap fun
    | entry e => some e
    | membership _ _ => none

/-- The entry has a property that none after it has. -/
def LastOf (p : Entry → Prop) (es : List Entry) (e : Entry) : Prop :=
  ∃ before after, es = before ++ e :: after ∧ p e ∧ ∀ later ∈ after, ¬ p later

/-- The entry is a domain of a name in lower case. -/
def Entry.HasName (key : String) (e : Entry) : Prop :=
  e.isDomain = true ∧ Text.lower e.name = key

instance (key : String) (e : Entry) : Decidable (e.HasName key) :=
  inferInstanceAs (Decidable (_ ∧ _))

/-- The last domain of a name was not replaced. -/
def Kept (arrivals : List Arrival) (name : String) : Prop :=
  ∀ before named after, Arrival.entries arrivals = before ++ named :: after →
    named.HasName (Text.lower name) →
    (∀ later ∈ after, ¬ later.HasName (Text.lower name)) → ∀ later ∈ after, later.id ≠ named.id

/-- An entry that comes in again in the place of a domain is a domain of the same name. -/
def KeepsNames (arrivals : List Arrival) : Prop :=
  (Arrival.entries arrivals).Pairwise fun older newer =>
    older.isDomain = true → newer.id = older.id → newer.HasName (Text.lower older.name)

instance (arrivals : List Arrival) : Decidable (KeepsNames arrivals) :=
  inferInstanceAs (Decidable (List.Pairwise _ _))

section LastOf

variable {p : Entry → Prop} {es : List Entry} {e : Entry}

/-- Of one entry alone this one is the last with a property, if it has it. -/
theorem lastOf_singleton {x : Entry} : LastOf p [x] e ↔ p x ∧ e = x := by
  constructor
  · rintro ⟨_ | ⟨_, before⟩, after, hes, he, -⟩
    · obtain ⟨rfl, -⟩ := List.cons.inj hes
      exact ⟨he, rfl⟩
    · exact absurd (List.cons.inj hes).2.symm (List.append_ne_nil_of_right_ne_nil before nofun)
  · rintro ⟨hx, rfl⟩
    exact ⟨[], [], rfl, hx, fun _ => nofun⟩

/-- The last entry with a property is the newest one if it has the property, and otherwise the one
that was the last before. -/
theorem lastOf_concat {x : Entry} :
    LastOf p (es ++ [x]) e ↔ p x ∧ e = x ∨ ¬ p x ∧ LastOf p es e := by
  constructor
  · rintro ⟨before, after, hes, he, hlast⟩
    rcases List.eq_nil_or_concat after with rfl | ⟨after, newest, rfl⟩
    · obtain ⟨-, hx⟩ := List.append_inj' hes rfl
      cases hx
      exact .inl ⟨he, rfl⟩
    · rw [List.concat_eq_append, ← List.cons_append, ← List.append_assoc] at hes
      rw [List.concat_eq_append] at hlast
      obtain ⟨rfl, hx⟩ := List.append_inj' hes rfl
      cases hx
      refine .inr ⟨hlast x (List.mem_append_right _ List.mem_cons_self), before, after, rfl, he, ?_⟩
      exact fun later hlater => hlast later (List.mem_append_left _ hlater)
  · rintro (⟨hx, rfl⟩ | ⟨hx, before, after, rfl, he, hlast⟩)
    · exact ⟨es, [], rfl, hx, fun _ => nofun⟩
    · refine ⟨before, after ++ [x], List.append_assoc _ _ _, he, fun later hlater => ?_⟩
      rcases List.mem_append.mp hlater with hold | hnew
      · exact hlast later hold
      · exact List.mem_singleton.mp hnew ▸ hx

/-- If some entry has a property, there is a last one. -/
theorem exists_lastOf {x : Entry} (hmem : x ∈ es) (hx : p x) : ∃ e, e ∈ es ∧ LastOf p es e := by
  classical
  induction es using List.reverseRecOn with
  | nil => cases hmem
  | append_singleton es newest ih =>
    by_cases hnewest : p newest
    · exact ⟨newest, List.mem_append_right _ List.mem_cons_self,
        lastOf_concat.mpr (.inl ⟨hnewest, rfl⟩)⟩
    · rcases List.mem_append.mp hmem with hold | hnew
      · obtain ⟨e, he, hlast⟩ := ih hold
        exact ⟨e, List.mem_append_left _ he, lastOf_concat.mpr (.inr ⟨hnewest, hlast⟩)⟩
      · exact absurd (List.mem_singleton.mp hnew ▸ hx) hnewest

/-- The last entry with a property is one of the entries, and it has the property. -/
theorem LastOf.mem (h : LastOf p es e) : e ∈ es ∧ p e := by
  obtain ⟨before, after, rfl, he, -⟩ := h
  exact ⟨List.mem_append_right _ List.mem_cons_self, he⟩

/-- If no two entries have a property, every entry with the property is the last one. -/
theorem lastOf_of_unique (hunique : es.Pairwise fun older newer => p older → ¬ p newer)
    (hmem : e ∈ es) (he : p e) : LastOf p es e := by
  obtain ⟨before, after, rfl⟩ := List.append_of_mem hmem
  refine ⟨before, after, rfl, he, fun later hlater => ?_⟩
  exact (List.pairwise_cons.mp (List.pairwise_append.mp hunique).2.1).1 later hlater he

/-- What stands before makes no difference to the last entry. -/
theorem LastOf.append_left (h : LastOf p es e) (front : List Entry) : LastOf p (front ++ es) e := by
  obtain ⟨before, after, rfl, he, hlast⟩ := h
  exact ⟨front ++ before, after, (List.append_assoc _ _ _).symm, he, hlast⟩

end LastOf

/-- Where no domain comes in again under another name, the last domain of each name was not
replaced. -/
theorem kept_of_keepsNames {arrivals : List Arrival} (h : KeepsNames arrivals) (name : String) :
    Kept arrivals name := by
  intro before named after hes hnamed hlast later hlater hid
  unfold KeepsNames at h
  rw [hes, List.pairwise_append, List.pairwise_cons] at h
  have hsame := h.2.1.1 later hlater hnamed.1 hid
  exact hlast later hlater ⟨hsame.1, hsame.2.trans hnamed.2⟩

namespace Directory

variable {arrivals : List Arrival}

/-- An entry that comes in last is the last of the entries; a membership adds none. -/
theorem entries_concat (arrivals : List Arrival) (a : Arrival) :
    Arrival.entries (arrivals ++ [a]) =
      match a with
      | .entry e => Arrival.entries arrivals ++ [e]
      | .membership _ _ => Arrival.entries arrivals := by
  unfold Arrival.entries
  rw [List.filterMap_append]
  cases a with
  | entry e => rfl
  | membership group member => exact congrArg _ (List.append_nil _)

/-- An id leads to the entry that came in last under it. -/
theorem entry?_filled_iff {id : EntryId} {e : Entry} :
    entry? (filled arrivals) id = some e ↔ LastOf (·.id = id) (Arrival.entries arrivals) e := by
  induction arrivals using List.reverseRecOn with
  | nil =>
    have hstart : LastOf (·.id = id) (Arrival.entries []) e ↔
        globalGrant.id = id ∧ e = globalGrant :=
      lastOf_singleton
    rw [hstart]
    show List.find? (·.id = id) [globalGrant] = some e ↔ _
    by_cases hid : globalGrant.id = id
    · simp [hid, eq_comm]
    · simp [hid]
  | append_singleton arrivals a ih =>
    rw [filled_concat, entries_concat]
    cases a with
    | entry newest =>
      unfold receive
      rw [entry?_add, lastOf_concat, ← ih]
      by_cases hid : id = newest.id
      · simp [hid, eq_comm]
      · simp [hid, Ne.symm hid]
    | membership group member =>
      unfold receive
      rw [entry?_enroll]
      exact ih

/-- The index leads from a name to the id of the domain that came in last under it. -/
theorem domainIds_filled_iff {key : String} {id : EntryId} :
    (filled arrivals).domainIds.get? key = some id ↔
      ∃ named, LastOf (Entry.HasName key) (Arrival.entries arrivals) named ∧ named.id = id := by
  induction arrivals using List.reverseRecOn with
  | nil =>
    refine iff_of_false nofun ?_
    rintro ⟨named, hnamed, -⟩
    exact Bool.false_ne_true (lastOf_singleton.mp hnamed).1.1
  | append_singleton arrivals a ih =>
    rw [filled_concat, entries_concat]
    cases a with
    | entry newest =>
      unfold receive
      rw [get?_domainIds_add]
      simp only [lastOf_concat]
      show (if newest.HasName key then _ else _) = _ ↔ _
      by_cases hname : newest.HasName key
      · simp [hname]
      · simp [hname, ih]
    | membership group member =>
      unfold receive
      rw [domainIds_enroll]
      exact ih

/-- What is found by a name is the entry that came in last under the id of the domain that came in
last under the name. -/
theorem domainNamed?_filled_iff {name : String} {e : Entry} :
    (filled arrivals).domainNamed? name = some e ↔
      ∃ named, LastOf (Entry.HasName (Text.lower name)) (Arrival.entries arrivals) named ∧
        LastOf (·.id = named.id) (Arrival.entries arrivals) e := by
  unfold domainNamed?
  rw [Option.bind_eq_some_iff]
  constructor
  · rintro ⟨id, hid, hentry⟩
    obtain ⟨named, hnamed, rfl⟩ := domainIds_filled_iff.mp hid
    exact ⟨named, hnamed, entry?_filled_iff.mp hentry⟩
  · rintro ⟨named, hnamed, hlast⟩
    exact ⟨named.id, domainIds_filled_iff.mpr ⟨named, hnamed, rfl⟩, entry?_filled_iff.mpr hlast⟩

/-- A domain that is found by its name is found by its id. -/
theorem entry?_of_domainNamed? {d : Directory} {name : String} {e : Entry}
    (h : d.domainNamed? name = some e) : d.entry? e.id = some e := by
  obtain ⟨id, -, hentry⟩ := Option.bind_eq_some_iff.mp h
  rw [id_of_found hentry]
  exact hentry

/-- What is found by a name is a domain of this name exactly if the last domain of the name was not
replaced. -/
theorem hasName_iff_kept (arrivals : List Arrival) (name : String) :
    (∀ e, (filled arrivals).domainNamed? name = some e → e.HasName (Text.lower name)) ↔
      Kept arrivals name := by
  constructor
  · intro hfound before named after hes hnamed hlast later hlater hid
    -- The last entry under the id of the domain came in after it, and it is no domain of the name.
    obtain ⟨newest, hnewest, hlastId⟩ := exists_lastOf (p := (·.id = named.id)) hlater hid
    refine hlast newest hnewest (hfound newest (domainNamed?_filled_iff.mpr ⟨named, ?_, ?_⟩))
    · exact ⟨before, after, hes, hnamed, hlast⟩
    · rw [hes, List.append_cons]
      exact hlastId.append_left _
  · intro hkept e he
    obtain ⟨named, ⟨before, after, hes, hnamed, hlast⟩, hlastId⟩ := domainNamed?_filled_iff.mp he
    have hstill : LastOf (·.id = named.id) (Arrival.entries arrivals) named :=
      ⟨before, after, hes, rfl, hkept before named after hes hnamed hlast⟩
    have hsame := (entry?_filled_iff.mpr hstill).symm.trans (entry?_filled_iff.mpr hlastId)
    exact Option.some.inj hsame ▸ hnamed

/-- The domains in the chain of ancestors are among those whose grants the target inherits. -/
theorem mem_domains_of_chain {d : Directory} {target e : Entry} {expandGroups : Bool}
    (h : .ok (.domain e) ∈ Ancestry.chain d.view target expandGroups) :
    e ∈ Ancestry.domains d.view target := by
  rw [chain_view] at h
  obtain ⟨_, hstep, ⟨⟩⟩ := List.mem_map.mp h
  rcases List.mem_cons.mp hstep with htarget | habove
  · cases htarget
  · unfold above at habove
    rcases List.mem_append.mp habove with hinner | hlast
    · rcases List.mem_append.mp hinner with hgroup | hdomain
      · obtain ⟨_, -, ⟨⟩⟩ := List.mem_map.mp hgroup
      · obtain ⟨_, hmem, ⟨⟩⟩ := List.mem_map.mp hdomain
        exact hmem
    · split at hlast
      · cases hlast
      · cases List.mem_singleton.mp hlast

/-- A name leads to the entry that came in last under the id of the domain that came in last under
the name, and this is the entry that the directory has under its id. It is a domain of the name
exactly if the last domain of the name was not replaced. If this is so for all names that stand
after the dots of the name of a domain, the domains in its chain of ancestors are entries of the
directory, and domains of such names. -/
theorem found_by_name (arrivals : List Arrival) :
    (∀ name e, (filled arrivals).domainNamed? name = some e ↔
      ∃ named, LastOf (Entry.HasName (Text.lower name)) (Arrival.entries arrivals) named ∧
        LastOf (·.id = named.id) (Arrival.entries arrivals) e) ∧
      (∀ name, (∀ e, (filled arrivals).domainNamed? name = some e →
        entry? (filled arrivals) e.id = some e ∧ e.isDomain = true ∧
          Text.lower e.name = Text.lower name) ↔ Kept arrivals name) ∧
      ∀ target expandGroups, target.isDomain = true →
        (∀ front suffix, target.name = front ++ "." ++ suffix → Kept arrivals suffix) →
        ∀ e, .ok (.domain e) ∈ Ancestry.chain (filled arrivals).view target expandGroups →
          entry? (filled arrivals) e.id = some e ∧ e.isDomain = true ∧
            ∃ front suffix, target.name = front ++ "." ++ suffix ∧
              Text.lower e.name = Text.lower suffix := by
  refine ⟨fun name e => domainNamed?_filled_iff, fun name => ?_, ?_⟩
  · rw [← hasName_iff_kept]
    constructor
    · exact fun h e he => (h e he).2
    · exact fun h e he => ⟨entry?_of_domainNamed? he, h e he⟩
  · intro target expandGroups hdomain hkept e he
    have hmem := mem_domains_of_chain he
    rw [domains_eq, if_pos hdomain] at hmem
    obtain ⟨suffix, hsuffix, hfound⟩ := List.mem_filterMap.mp hmem
    obtain ⟨front, hname⟩ := ((Ancestry.dotSuffixes_parentNames _).mem_iff suffix).mp hsuffix
    have hnamed := (hasName_iff_kept arrivals suffix).mpr (hkept front suffix hname) e hfound
    exact ⟨entry?_of_domainNamed? hfound, hnamed.1, front, suffix, hname, hnamed.2⟩

/-- A domain that came in again in other letters is above the domains below it, under its own
name. -/
theorem found_by_name_sample :
    KeepsNames Sample.respelled ∧
      ∀ e, .ok (.domain e) ∈
          Ancestry.chain (filled Sample.respelled).view Sample.below true →
        entry? (filled Sample.respelled) e.id = some e ∧ e.isDomain = true ∧
          ∃ front suffix, "sub.home.com" = front ++ "." ++ suffix ∧
            Text.lower e.name = Text.lower suffix := by
  have hkeeps : KeepsNames Sample.respelled := by decide +kernel
  refine ⟨hkeeps, (found_by_name Sample.respelled).2.2 Sample.below true (by decide) ?_⟩
  exact fun _ suffix _ => kept_of_keepsNames hkeeps suffix

/-- A domain that comes in again under another name is still found by its old name, and it is above
the domains below the old name. -/
theorem renamed_found :
    (filled Sample.renamed).domainNamed? "home.com" = some Sample.moved ∧
      Text.lower Sample.moved.name ≠ Text.lower "home.com" ∧
      .ok (.domain Sample.moved) ∈
        Ancestry.chain (filled Sample.renamed).view Sample.below true ∧
      ∀ suffix ∈ Ancestry.parentNames Sample.below.name,
        Text.lower Sample.moved.name ≠ Text.lower suffix := by
  refine ⟨?_, ?_, ?_, ?_⟩
  · decide +kernel
  · decide +kernel
  · decide +kernel
  · decide +kernel

end Directory

end DirectoryRights
