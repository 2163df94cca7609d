import DirectoryRights.Proofs.Alike
import DirectoryRights.Proofs.Leaves
import DirectoryRights.Proofs.Reordering

/-!
# Bundles taken apart

A grant of a bundle says what the grants of its presets would say: each grant of a bundle can be
replaced by one grant for every preset in the bundle, at any depth, with the same grantee, modifier
and secret. The attribute rights in the bundle are left out, and grants that say the same are one
grant afterwards. No check notices the replacement, whether it is made of all grants of bundles or
of some, as long as it makes no two different grants of one slot, and as long as no bundle has the
name of the right that opens domains.
-/

set_option autoImplicit false

namespace DirectoryRights

namespace Table

variable {α β : Type} [DecidableEq α]

/-- The table of the values that a function has for some keys. -/
def ofKeys (keys : List α) (f : α → Option β) : Table α β :=
  ⟨keys.filterMap fun key => (f key).map fun value => (key, value)⟩

/-- In the table that a function makes of some keys, each of these leads to its value. -/
theorem get?_ofKeys (keys : List α) (f : α → Option β) (key : α) :
    (ofKeys keys f).get? key = if key ∈ keys then f key else none := by
  unfold ofKeys get?
  induction keys with
  | nil => rfl
  | cons first rest ih =>
    rw [List.filterMap_cons]
    cases hvalue : f first with
    | none =>
      simp only [Option.map_none, ih, List.mem_cons]
      by_cases hkey : key = first
      · simp [hkey, hvalue]
      · simp [hkey]
    | some value =>
      simp only [Option.map_some, List.find?_cons]
      by_cases hkey : first = key
      · simp [hkey, ← hvalue]
      · have hother : ¬ key = first := fun h => hkey h.symm
        simpa [hkey, hother] using ih

end Table

namespace Right

/-- The presets that a right amounts to. -/
def presets (right : Right) : List SingleRight :=
  right.leaves.filter SingleRight.isPreset

/-- The presets that a right amounts to are those among its leaves. -/
theorem mem_presets {right : Right} {s : SingleRight} :
    s ∈ right.presets ↔ s ∈ right.leaves ∧ s.isPreset = true :=
  List.mem_filter

/-- Where the right is a bundle, it is in question exactly if one of the presets in it is. -/
def AskedByPresets (inQuestion : Right → Bool) (right : Right) : Prop :=
  right.isCombo = true → inQuestion right = right.presets.any fun s => inQuestion (.ofSingle s)

/-- A bundle meets a right exactly if one of the presets in it does. -/
theorem askedByPresets_meets (needed right : Right) : right.AskedByPresets (·.meets needed) := by
  intro _
  show (right.leaves.any fun s => s.isPreset && s.name = needed.name) = _
  unfold presets
  rw [List.any_filter]
  congr 1
  funext s
  show _ = (s.isPreset && (s.isPreset && s.name = needed.name || false))
  rw [Bool.or_false, ← Bool.and_assoc, Bool.and_self]

end Right

namespace Grant

/-- What is left of a grant when the bundles in the chosen slots are taken apart: one grant for each
preset in such a bundle, and any other grant itself. -/
def unbundled (chosen : Slot → Bool) (g : Grant) : List Grant :=
  if chosen g.slot ∧ g.right.isCombo then
    g.right.presets.map fun s => { g with right := .ofSingle s }
  else [g]

/-- No two different grants of one slot are left when the bundles in the chosen slots are taken
apart. -/
def Separable (chosen : Slot → Bool) (gs : List Grant) : Prop :=
  ∀ g ∈ gs.flatMap (unbundled chosen), ∀ h ∈ gs.flatMap (unbundled chosen),
    g.slot = h.slot → g.same h = true

instance (chosen : Slot → Bool) (gs : List Grant) : Decidable (Separable chosen gs) :=
  inferInstanceAs (Decidable (∀ g ∈ _, ∀ h ∈ _, _ → _))

variable {r : Right} {inQuestion : Right → Bool} {chosen : Slot → Bool}

/-- Grants that say the same cannot be told apart if the right is put aside. -/
theorem about_of_same {g h : Grant} (hsame : g.same h = true) : g.about r = h.about r := by
  obtain ⟨hslot, hmodifier, hsecret⟩ := same_iff.mp hsame
  have hgrantee : g.grantee = h.grantee := congrArg Slot.grantee hslot
  have htype : g.granteeType = h.granteeType := congrArg Slot.granteeType hslot
  unfold about
  rw [hgrantee, htype, hmodifier, hsecret]

/-- A grant is found where one of the grants it amounts to is. -/
theorem alike_unbundled {g : Grant} (h : g.right.AskedByPresets inQuestion) :
    Alike r inQuestion [g] (g.unbundled chosen) := by
  unfold unbundled
  by_cases hcombo : chosen g.slot = true ∧ g.right.isCombo = true
  · rw [if_pos hcombo]
    -- The grants of the presets differ in their right alone, so that the first one that is found
    -- tells no more than that there is one.
    intro test
    have hpresets : ∀ p : SingleRight → Bool, ((g.right.presets.find? p).map fun _ => g.about r) =
        if g.right.presets.any p then some (g.about r) else none := by
      intro p
      cases hfound : g.right.presets.find? p with
      | none =>
        have hnone : g.right.presets.any p = false :=
          List.any_eq_false.mpr (List.find?_eq_none.mp hfound)
        rw [hnone]
        rfl
      | some s =>
        have hsome : g.right.presets.any p = true := List.any_eq_true.mpr
          ⟨s, List.mem_of_find?_eq_some hfound, List.find?_some hfound⟩
        rw [hsome]
        rfl
    have hany : (g.right.presets.any fun s => test (g.about r) && inQuestion (.ofSingle s)) =
        (test (g.about r) && inQuestion g.right) := by
      rw [h hcombo.2]
      cases test (g.about r) <;> simp
    rw [List.find?_map, Option.map_map]
    show _ = (g.right.presets.find? fun s => test (g.about r) && inQuestion (.ofSingle s)).map
      fun _ => g.about r
    rw [hpresets, hany, List.find?_singleton]
    split <;> rfl
  · rw [if_neg hcombo]
    exact .refl [g]

/-- Where a grant was found does not matter when it is taken apart. -/
theorem unbundled_unplaced (g : Grant) :
    g.unplaced.unbundled chosen = (g.unbundled chosen).map unplaced := by
  have hright : g.unplaced.right = g.right := rfl
  have hslot : g.unplaced.slot = g.slot := rfl
  unfold unbundled
  rw [hright, hslot]
  by_cases hcombo : chosen g.slot = true ∧ g.right.isCombo = true
  · rw [if_pos hcombo, if_pos hcombo, List.map_map]
    rfl
  · rw [if_neg hcombo, if_neg hcombo]
    rfl

/-- The same for several grants. -/
theorem flatMap_unbundled_unplaced (gs : List Grant) :
    (gs.map unplaced).flatMap (unbundled chosen) =
      (gs.flatMap (unbundled chosen)).map unplaced := by
  rw [List.flatMap_map, List.map_flatMap]
  congr 1
  funext g
  exact g.unbundled_unplaced

/-- Whether grants can be taken apart does not depend on where they were found. -/
theorem separable_unplaced {gs : List Grant} :
    Separable chosen (gs.map unplaced) ↔ Separable chosen gs := by
  unfold Separable
  rw [flatMap_unbundled_unplaced]
  simp only [List.forall_mem_map]
  exact Iff.rfl

end Grant

namespace GrantSet

variable {r : Right} {inQuestion : Right → Bool}

/-- A new grant changes what is found in a set as if it stood at the end, where the set has no
different grant of its slot. -/
theorem alike_insert {before : List Grant} {s : GrantSet} {g : Grant}
    (h : Grant.Alike r inQuestion before s.grants)
    (htwins : ∀ other ∈ s.grants, other.slot = g.slot →
      other.same g = true ∧ inQuestion other.right = inQuestion g.right) :
    Grant.Alike r inQuestion (before ++ [g]) (s.insert g).grants := by
  by_cases hheld : s.holds g = true
  · have hsame : s.insert g = s := by
      unfold insert
      rw [if_pos hheld]
    obtain ⟨other, hother, hg⟩ := List.any_eq_true.mp hheld
    have hslot : other.slot = g.slot := (Grant.same_iff.mp hg).1
    rw [hsame]
    exact h.absorb hother (Grant.about_of_same hg) (htwins other hother hslot).2
  · have hnew : ∀ other ∈ s.grants, other.slot ≠ g.slot := by
      intro other hother hslot
      exact hheld (List.any_eq_true.mpr ⟨other, hother, (htwins other hother hslot).1⟩)
    rw [insert_of_new hnew]
    exact h.append (.refl [g])

/-- A set that is made of grants of which no two of a slot differ is like these grants. -/
theorem alike_ofList {gs : List Grant} (htwins : ∀ g ∈ gs, ∀ h ∈ gs, g.slot = h.slot →
      g.same h = true ∧ inQuestion g.right = inQuestion h.right) :
    Grant.Alike r inQuestion gs (ofList gs).grants := by
  have hfold : ∀ (rest before : List Grant) (s : GrantSet), (∀ g ∈ rest, g ∈ gs) →
      (∀ g ∈ s.grants, g ∈ gs) → Grant.Alike r inQuestion before s.grants →
      Grant.Alike r inQuestion (before ++ rest) (rest.foldl insert s).grants := by
    -- The grants that were put into the set are like it, which carries over to the next one.
    intro rest
    induction rest with
    | nil =>
      intro before s _ _ h
      rw [List.append_nil]
      exact h
    | cons g rest ih =>
      intro before s hrest hs h
      have hg : g ∈ gs := hrest g List.mem_cons_self
      have hinsert := alike_insert h fun other hother => htwins other (hs other hother) g hg
      have hmem : ∀ other ∈ (s.insert g).grants, other ∈ gs := by
        intro other hother
        rcases mem_insert hother with hold | rfl
        · exact hs other hold
        · exact hg
      rw [List.append_cons, List.foldl_cons]
      exact ih (before ++ [g]) (s.insert g)
        (fun other hother => hrest other (List.mem_cons_of_mem _ hother)) hmem hinsert
  exact hfold gs [] empty (fun _ hg => hg) (fun _ hg => absurd hg List.not_mem_nil) (.refl [])

/-- The set with the bundles in the chosen slots taken apart. -/
def unbundled (chosen : Slot → Bool) (s : GrantSet) : GrantSet :=
  ofList (s.grants.flatMap (Grant.unbundled chosen))

/-- Where the grants of a set were found does not matter when it is taken apart. -/
theorem unbundled_unplaced (chosen : Slot → Bool) (s : GrantSet) :
    s.unplaced.unbundled chosen = (s.unbundled chosen).unplaced := by
  unfold unbundled
  rw [ofList_unplaced, ← Grant.flatMap_unbundled_unplaced]
  rfl

end GrantSet

namespace Catalog

variable {c : Catalog} {chosen : Slot → Bool}

/-- No bundle of the catalog has the name of the right that opens domains. -/
def NoBundleOpens (c : Catalog) : Prop :=
  ∀ right ∈ c.rights, right.isCombo = true → right.isCrossDomainAdmin = false

instance (c : Catalog) : Decidable c.NoBundleOpens :=
  inferInstanceAs (Decidable (∀ right ∈ c.rights, _ → _))

/-- The catalog has the rights of all grants that are left when bundles are taken apart. -/
theorem Leafed.knows_unbundled (hc : c.Leafed) {gs : List Grant} (h : c.Knows gs) :
    c.Knows (gs.flatMap (Grant.unbundled chosen)) := by
  intro part hpart
  obtain ⟨g, hg, hpart⟩ := List.mem_flatMap.mp hpart
  unfold Grant.unbundled at hpart
  by_cases hcombo : chosen g.slot = true ∧ g.right.isCombo = true
  · rw [if_pos hcombo] at hpart
    obtain ⟨s, hs, rfl⟩ := List.mem_map.mp hpart
    obtain ⟨hleaf, hpreset⟩ := Right.mem_presets.mp hs
    have hmem := mem_of_lookup_of_isCombo (h g hg) hcombo.2
    have hget := hc.preset g.right hmem s hleaf hpreset
    show c.lookup s.name = .ok (.ofSingle s)
    unfold lookup
    rw [hget]
  · rw [if_neg hcombo, List.mem_singleton] at hpart
    rw [hpart]
    exact h g hg

/-- No bundle opens domains, and neither does a preset in one. -/
theorem Leafed.askedByPresets_border (hc : c.Leafed) (hborder : c.NoBundleOpens) {name : String}
    {right : Right} (h : c.lookup name = .ok right) :
    right.AskedByPresets Right.isCrossDomainAdmin := by
  intro hcombo
  have hmem := mem_of_lookup_of_isCombo h hcombo
  rw [hborder right hmem hcombo, eq_comm, List.any_eq_false]
  intro s hs hopens
  obtain ⟨hleaf, hpreset⟩ := Right.mem_presets.mp hs
  exact hc.border right hmem hcombo s hleaf hpreset (of_decide_eq_true hopens)

/-- A set whose bundles can be taken apart is like the set with its bundles taken apart. -/
theorem Leafed.alike_unbundled (hc : c.Leafed) {inQuestion : Right → Bool} {s : GrantSet}
    (hknown : c.Knows s.grants) (hclear : Grant.Separable chosen s.grants)
    (hasked : ∀ g ∈ s.grants, g.right.AskedByPresets inQuestion) (r : Right) :
    Grant.Alike r inQuestion s.all (s.unbundled chosen).all := by
  have hparts : Grant.Alike r inQuestion s.grants (s.grants.flatMap (Grant.unbundled chosen)) :=
    .flatMap fun g hg => Grant.alike_unbundled (hasked g hg)
  have hmerged : Grant.Alike r inQuestion (s.grants.flatMap (Grant.unbundled chosen))
      (s.unbundled chosen).grants := by
    apply GrantSet.alike_ofList
    intro g hg h hh hslot
    refine ⟨hclear g hg h hh hslot, ?_⟩
    -- One slot means one name, and a name stands for one right of the catalog.
    have hname : g.right.name = h.right.name := congrArg Slot.right hslot
    have hfound := hc.knows_unbundled hknown g hg
    rw [hname, hc.knows_unbundled hknown h hh] at hfound
    rw [Except.ok.inj hfound]
  exact (hparts.trans hmerged).ranked

end Catalog

namespace GrantAnswer

/-- The answer with the bundles in the chosen slots taken apart. -/
def unbundled (chosen : Slot → Bool) (a : GrantAnswer) : GrantAnswer :=
  a.map fun set => set.bind fun set => Store.present (set.unbundled chosen)

/-- The grants of an answer in the order of the search, wherever they were found. -/
def listed (a : GrantAnswer) : Except Error (List Grant) :=
  a.map fun set => (set.elim [] GrantSet.all).map Grant.unplaced

/-- The grants of an answer without its places are the grants without theirs. -/
theorem grants_unplaced (a : GrantAnswer) : a.unplaced.grants = a.grants.map Grant.unplaced := by
  rcases a with e | _ | set <;> rfl

/-- The list of an answer is the same without the places. -/
theorem listed_unplaced (a : GrantAnswer) : a.unplaced.listed = a.listed := by
  rcases a with e | set | set
  · rfl
  · rfl
  · show Except.ok (set.unplaced.all.map Grant.unplaced) = Except.ok (set.all.map Grant.unplaced)
    rw [GrantSet.all_unplaced, List.map_map]
    rfl

end GrantAnswer

section Unbundled

variable (chosen : Slot → Bool)

/-- An empty set that is taken apart is none, and so it can be taken for none before. -/
theorem GrantSet.bind_unbundled_present (s : GrantSet) :
    ((Store.present s).bind fun set => Store.present (set.unbundled chosen)) =
      Store.present (s.unbundled chosen) := by
  unfold Store.present
  cases hempty : s.isEmpty with
  | false => rfl
  | true =>
    have hnone : (s.unbundled chosen).isEmpty = true := by
      have hnil : s.grants = [] := List.isEmpty_iff.mp hempty
      unfold GrantSet.unbundled
      rw [hnil]
      rfl
    simp [hnone]

/-- What is read of an entry may be taken apart before or after empty sets are told from others. -/
theorem GrantAnswer.unbundled_map_present (x : Except Error GrantSet) :
    GrantAnswer.unbundled chosen (x.map Store.present) =
      (x.map (GrantSet.unbundled chosen)).map Store.present := by
  cases x with
  | error e => rfl
  | ok set => exact congrArg Except.ok (set.bind_unbundled_present chosen)

/-- The grants of no set are none, before and after it is taken apart. -/
theorem GrantSet.elim_unbundled (set : Option GrantSet) :
    (set.bind fun set => Store.present (set.unbundled chosen)).elim [] all =
      set.elim [] fun set => (set.unbundled chosen).all := by
  cases set with
  | none => rfl
  | some set => exact elim_present (set.unbundled chosen)

end Unbundled

/-- The list of what is read of an entry is that of its set. -/
theorem GrantAnswer.listed_map_present (x : Except Error GrantSet) :
    GrantAnswer.listed (x.map Store.present) = x.map fun set => set.unplaced.all := by
  cases x with
  | error e => rfl
  | ok set =>
    show Except.ok (((Store.present set).elim [] GrantSet.all).map Grant.unplaced) = _
    rw [GrantSet.elim_present, ← GrantSet.all_unplaced]
    rfl

namespace Catalog

variable {c : Catalog} {chosen : Slot → Bool}

/-- What is read of an entry is like what is left of it when bundles are taken apart, if they can
be. -/
theorem Leafed.alike_answer (hc : c.Leafed) (hborder : c.NoBundleOpens) {a a' : GrantAnswer}
    (hknown : c.Knows a.grants) (hclear : Grant.Separable chosen a.grants)
    (h : a'.listed = (a.unbundled chosen).listed) (r : Right) : GrantAnswer.Alike r a a' := by
  cases a with
  | error e =>
    cases a' with
    | error e' =>
      cases h
      exact .error e
    | ok set' => cases h
  | ok set =>
    obtain ⟨set', rfl, hlists⟩ := exists_of_map_eq_ok h
    have hlisted : (set'.elim [] GrantSet.all).map Grant.unplaced =
        (set.elim [] fun set => (set.unbundled chosen).all).map Grant.unplaced := by
      rw [← GrantSet.elim_unbundled]
      exact hlists
    have halike : ∀ {inQuestion : Right → Bool},
        (∀ g ∈ GrantAnswer.grants (.ok set), g.right.AskedByPresets inQuestion) →
        Grant.Alike r inQuestion (set.elim [] GrantSet.all) (set'.elim [] GrantSet.all) := by
      intro inQuestion hasked
      cases set with
      | none => exact .of_unplaced hlisted
      | some set =>
        exact (hc.alike_unbundled hknown hclear hasked r).trans (.of_unplaced hlisted)
    apply GrantAnswer.Alike.ok
    · exact halike fun g _ => Right.askedByPresets_meets r g.right
    · exact halike fun g hg => hc.askedByPresets_border hborder (hknown g hg)

end Catalog

namespace Store

variable {c : Catalog} {d : Directory} {chosen : EntryId → Slot → Bool}

/-- The catalog has the rights of all grants that can be read. -/
theorem knows_fresh (e : Entry) : c.Knows (fresh c (.ofDirectory d) e).grants := by
  intro g hg
  rw [fresh_eq] at hg
  cases hparse : GrantSet.parse c e (d.valuesOf e.id grantAttribute) with
  | error cause =>
    rw [hparse] at hg
    cases hg
  | ok set =>
    rw [hparse] at hg
    have hmem : g ∈ set.grants := by
      rw [← Grant.mem_ranked]
      show g ∈ set.all
      rw [← GrantSet.elim_present]
      exact GrantAnswer.mem_grants.mp hg
    exact (GrantSet.writable_of_stored hparse hmem).2

/-- The store over a directory that remembers every set that can be read with the bundles in the
chosen slots taken apart. -/
def unbundling (c : Catalog) (chosen : EntryId → Slot → Bool) (d : Directory) : Store where
  directory := d
  outages := []
  memo := .ofKeys (d.attributes.rows.map fun row => row.1.1) fun id =>
    ((d.valuesOf id grantAttribute).mapM (Grant.parse c)).toOption.map fun gs =>
      (GrantSet.ofList gs).unbundled (chosen id)

/-- An entry without attributes has no values. -/
theorem valuesOf_of_not_mem {id : EntryId} {attr : String}
    (h : id ∉ d.attributes.rows.map fun row => row.1.1) : d.valuesOf id attr = [] := by
  have hnone : d.attributes.rows.find? (·.1 = (id, attr)) = none := by
    rw [List.find?_eq_none]
    intro row hrow hkey
    apply h
    rw [List.mem_map]
    exact ⟨row, hrow, congrArg Prod.fst (of_decide_eq_true hkey)⟩
  unfold Directory.valuesOf Table.get?
  rw [hnone]
  rfl

/-- The store answers with the sets whose bundles are taken apart. -/
theorem listed_unbundling (e : Entry) :
    (recalled c (unbundling c chosen d) e).listed =
      ((fresh c (.ofDirectory d) e).unbundled (chosen e.id)).listed := by
  have hmemo : (unbundling c chosen d).memo.get? e.id = _ := Table.get?_ofKeys _ _ e.id
  have hforgotten : (unbundling c chosen d).memo.get? e.id = none →
      recalled c (unbundling c chosen d) e = fresh c (.ofDirectory d) e := fun hnone =>
    (recalled_of_forgotten hnone).trans (congrFun (fresh_ofDirectory rfl).symm e)
  rw [fresh_eq, GrantAnswer.unbundled_map_present, GrantAnswer.listed_map_present]
  by_cases hrow : e.id ∈ d.attributes.rows.map fun row => row.1.1
  · rw [if_pos hrow] at hmemo
    unfold GrantSet.parse
    cases hgs : (d.valuesOf e.id grantAttribute).mapM (Grant.parse c) with
    | error cause =>
      -- The memo has no set for lines that cannot be read, and they are read as before.
      rw [hgs] at hmemo
      rw [hforgotten hmemo, fresh_eq]
      unfold GrantSet.parse
      rw [hgs]
      rfl
    | ok gs =>
      rw [hgs] at hmemo
      have hanswer : recalled c (unbundling c chosen d) e =
          Except.map present (.ok ((GrantSet.ofList gs).unbundled (chosen e.id))) := by
        unfold recalled
        rw [grantsOf_of_remembered c hmemo]
        rfl
      rw [hanswer, GrantAnswer.listed_map_present]
      show Except.ok (GrantSet.unbundled _ _).unplaced.all =
        Except.ok (GrantSet.unbundled _ (GrantSet.ofList (gs.map (Grant.foundOn e)))).unplaced.all
      rw [← GrantSet.unbundled_unplaced, ← GrantSet.unbundled_unplaced, GrantSet.ofList_unplaced,
        GrantSet.ofList_unplaced, List.map_map]
      rfl
  · rw [if_neg hrow] at hmemo
    rw [hforgotten hmemo, fresh_eq, GrantAnswer.listed_map_present, valuesOf_of_not_mem hrow]
    rfl

end Store

/-- Directories that differ in attributes alone have the groups of an entry in the same order. -/
theorem Directory.SameEntries.regrouped {d d' : Directory} (h : d.SameEntries d') :
    d.Regrouped d' := by
  unfold Directory.SameEntries at h
  constructor
  · rw [h]
  · intro id
    rw [h]
    exact .refl _

namespace Sample

/-- A bundle of the right to see accounts alone. -/
def look : Right :=
  .combo { name := "look", description := none, default := none, slot := none } [listAccount]

/-- A bundle with this bundle in it. -/
def care : Right :=
  .combo { name := "care", description := none, default := none, slot := none } [look, addMember]

/-- Access control over these bundles and the rights in them. -/
def caring : AccessControl where
  catalog := ⟨[listAccount, addMember, look, care]⟩
  rules := .ofList []
  maxLifetime := 0

/-- The catalog comes from the definitions. -/
theorem caring_catalog_built :
    Catalog.ofDefinitions [.preset "listAccount" .account false,
      .preset "addDistributionListMember" .distributionList false, .combo "look" ["listAccount"],
      .combo "care" ["look", "addDistributionListMember"]] = .ok caring.catalog := rfl

/-- The directory in which the list "staff" gives the admin the bundle. -/
def cared : Directory :=
  arranged [staff.id] ["55555555-5555-5555-5555-555555555555 usr care"]

/-- The bundle is granted once and can be taken apart. -/
theorem separable_cared (e : Entry) :
    Grant.Separable (fun _ => true)
      (Store.fresh caring.catalog (.ofDirectory cared) e).grants := by
  by_cases h : e.id = staff.id
  · have hstaff : Grant.Separable (fun _ => true)
        (Store.fresh caring.catalog (.ofDirectory cared) staff).unplaced.grants := by
      decide +kernel
    rw [← Grant.separable_unplaced, ← GrantAnswer.grants_unplaced, Store.fresh_unplaced_of_id h]
    exact hstaff
  · have hnone : cared.valuesOf e.id Store.grantAttribute = [] := by
      unfold cared
      rw [valuesOf_arranged, if_neg h]
    rw [Store.fresh_eq, hnone]
    intro g hg
    cases hg

end Sample

namespace AccessControl

variable {k : AccessControl}

/-- A check ends in the same way when the grants of entries are answered with their bundles taken
apart. -/
theorem decided_unbundled (hleafed : k.catalog.Leafed) (hborder : k.catalog.NoBundleOpens)
    {d : Directory} {chosen : EntryId → Slot → Bool} {source : Entry → GrantAnswer}
    (hclear : ∀ e, Grant.Separable (chosen e.id)
      (Store.fresh k.catalog (.ofDirectory d) e).grants)
    (h : ∀ e, (source e).listed =
      ((Store.fresh k.catalog (.ofDirectory d) e).unbundled (chosen e.id)).listed) (r : Request) :
    decided d source r = decided d (Store.fresh k.catalog (.ofDirectory d)) r := by
  unfold decided answered
  cases r.settled with
  | error e => rfl
  | ok verdict =>
    cases verdict with
    | some decision => rfl
    | none =>
      refine (Inquiry.answer_of_alike rfl fun e => ?_).symm
      exact hleafed.alike_answer hborder (Store.knows_fresh e) (hclear e) (h e) r.right

/-- A check decides in the same way before and after bundles that are granted are taken apart, be it
all of them or some, and also if the grants are put in another order afterwards. There is a store
with these bundles taken apart, whether or not lines can be written for its grants. -/
theorem decision_of_unbundled {definitions : List Definition} {d : Directory} {r : Request}
    {chosen : EntryId → Slot → Bool}
    (hcatalog : Catalog.ofDefinitions definitions = .ok k.catalog)
    (hborder : k.catalog.NoBundleOpens)
    (hclear : ∀ e, Grant.Separable (chosen e.id)
      (Store.fresh k.catalog (.ofDirectory d) e).grants) :
    (∃ s : Store, s.outages = [] ∧ d.SameEntries s.directory ∧
      ∀ e, (Store.recalled k.catalog s e).listed =
        ((Store.fresh k.catalog (.ofDirectory d) e).unbundled (chosen e.id)).listed) ∧
    ∀ s : Store, s.outages = [] → d.SameEntries s.directory →
      ((∀ e, (Store.recalled k.catalog s e).listed =
          ((Store.fresh k.catalog (.ofDirectory d) e).unbundled (chosen e.id)).listed) →
        (k.evaluate r { store := s, cache := none }).1.map Evaluation.decision =
          (k.uncached d r).map Evaluation.decision) ∧
      ((∀ e, GrantAnswer.Rearranged
          ((Store.fresh k.catalog (.ofDirectory d) e).unbundled (chosen e.id)).unplaced
          (Store.recalled k.catalog s e).unplaced) →
        ∀ before after, k.uncached d r = .ok before →
          (k.evaluate r { store := s, cache := none }).1 = .ok after →
          after.decision = before.decision) := by
  have hleafed := Catalog.leafed_of_ofDefinitions hcatalog
  constructor
  · exact ⟨Store.unbundling k.catalog chosen d, rfl, rfl, Store.listed_unbundling⟩
  · intro s hs hentries
    constructor
    · intro hlisted
      have hview := hentries.view
      rw [k.decision_of_store hs, k.decision_uncached,
        ← decided_unbundled hleafed hborder hclear hlisted r]
      unfold decided answered
      rw [hview]
    · intro hanswers before after hbefore hafter
      have hfirst := k.decision_uncached d r
      have hsecond := k.decision_of_store hs r
      rw [hbefore, ← decided_unbundled hleafed hborder hclear fun e =>
        GrantAnswer.listed_unplaced _] at hfirst
      rw [hafter, ← decided_unplaced] at hsecond
      exact (decided_of_rearranged hentries.regrouped hanswers hfirst.symm hsecond.symm).symm

/-- The admin may see Alice's account through a bundle in a bundle, and also if the list gives the
admin the two rights in it one by one. -/
theorem decision_of_unbundled_sample :
    (((Store.fresh Sample.caring.catalog (.ofDirectory Sample.cared) Sample.staff).unbundled
        fun _ => true).listed.map fun gs => gs.map (·.right.name)) =
      .ok ["listAccount", "addDistributionListMember"] ∧
    ∃ s : Store, (∀ e, (Store.recalled Sample.caring.catalog s e).listed =
        ((Store.fresh Sample.caring.catalog (.ofDirectory Sample.cared) e).unbundled
          fun _ => true).listed) ∧
      (Sample.caring.evaluate (Sample.listing Sample.alice)
        { store := s, cache := none }).1.map Evaluation.decision = .ok .allow := by
  have hallow : (Sample.caring.uncached Sample.cared (Sample.listing Sample.alice)).map
      Evaluation.decision = .ok .allow := by
    decide +kernel
  have hborder : Sample.caring.catalog.NoBundleOpens := by
    decide +kernel
  obtain ⟨⟨s, hs, hentries, hlisted⟩, hsame⟩ := @decision_of_unbundled Sample.caring _ Sample.cared
    (Sample.listing Sample.alice) (fun _ _ => true) Sample.caring_catalog_built hborder
    Sample.separable_cared
  refine ⟨by decide +kernel, s, hlisted, ?_⟩
  rw [(hsame s hs hentries).1 hlisted, hallow]

end AccessControl

end DirectoryRights
