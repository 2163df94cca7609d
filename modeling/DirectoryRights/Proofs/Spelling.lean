import Mathlib.Algebra.GroupWithZero.Nat
import Mathlib.Data.List.Basic
import DirectoryRights.Proofs.Cutting
import DirectoryRights.Proofs.Uncached
import DirectoryRights.Proofs.Sample

/-!
# Ids and their spellings

An identifier is read from several spellings, and from its canonical text among them; so no two
identifiers have one canonical text. A grant keeps the spelling in which its grantee was written,
and matching compares it with canonical texts. A grant to an entry of the directory therefore
matches exactly if it is written canonically and the grant to this id matches. In any other spelling
it is accepted and stored, and matches nobody: a denial so written does not deny.
-/

set_option autoImplicit false

namespace DirectoryRights

/-- Splitting takes away nothing but the separators. -/
theorem Text.mem_flatten_splitOn {sep c : Char} (hc : c ≠ sep) {cs : List Char} (h : c ∈ cs) :
    c ∈ (splitOn sep cs).flatten := by
  induction cs with
  | nil => cases h
  | cons first rest ih =>
    rw [splitOn]
    by_cases hfirst : first = sep
    · have hrest : c ∈ rest := by
        rcases List.mem_cons.mp h with rfl | hrest
        · exact absurd hfirst hc
        · exact hrest
      rw [if_pos hfirst, List.flatten_cons, List.nil_append]
      exact ih hrest
    · rw [if_neg hfirst]
      rcases List.mem_cons.mp h with rfl | hrest
      · cases splitOn sep rest <;> simp
      · have hmem := ih hrest
        cases hparts : splitOn sep rest with
        | nil =>
          rw [hparts] at hmem
          cases hmem
        | cons part parts =>
          rw [hparts] at hmem
          simpa using .inr (by simpa using hmem)

namespace Uuid

/-- A digit is read back from its character. -/
theorem hexValue?_hexChar (d : Fin 16) : hexValue? (hexChar d) = some d := by
  revert d
  decide

/-- The character of a digit is no hyphen. -/
theorem hexChar_ne_hyphen (d : Fin 16) : hexChar d ≠ '-' := by
  revert d
  decide

/-- There is no hyphen among the characters of digits. -/
theorem hyphen_not_mem_hexChars (ds : List (Fin 16)) : '-' ∉ ds.map hexChar := by
  intro hmem
  obtain ⟨d, -, hd⟩ := List.mem_map.mp hmem
  exact hexChar_ne_hyphen d hd

/-- Digits are read back from their characters. -/
theorem mapM_hexValue?_hexChars (ds : List (Fin 16)) :
    (ds.map hexChar).mapM hexValue? = some ds := by
  induction ds with
  | nil => rfl
  | cons d rest ih => simp [hexValue?_hexChar, ih]

/-- The groups between the hyphens have the given sizes and are the text cut into pieces. -/
theorem splitOn_hyphenate {sizes : List Nat} {cs : List Char} (hne : sizes ≠ [])
    (hcs : '-' ∉ cs) (hlength : cs.length = sizes.sum) :
    (Text.splitOn '-' (hyphenate sizes cs)).map List.length = sizes ∧
      (Text.splitOn '-' (hyphenate sizes cs)).flatten = cs := by
  fun_induction hyphenate sizes cs with
  | case1 cs => exact absurd rfl hne
  | case2 size cs =>
    rw [Text.splitOn_of_not_mem hcs]
    simpa using hlength
  | case3 size sizes cs hsizes ih =>
    have hfront : '-' ∉ cs.take size := fun hmem => hcs (List.mem_of_mem_take hmem)
    have hback : '-' ∉ cs.drop size := fun hmem => hcs (List.mem_of_mem_drop hmem)
    rw [List.sum_cons] at hlength
    have htake : (cs.take size).length = size := by
      rw [List.length_take]
      omega
    have hdrop : (cs.drop size).length = sizes.sum := by
      rw [List.length_drop]
      omega
    obtain ⟨hlengths, hflat⟩ := ih hsizes hback hdrop
    rw [Text.splitOn_append hfront, List.map_cons, List.flatten_cons, htake, hlengths, hflat]
    exact ⟨rfl, List.take_append_drop size cs⟩

/-- There is one hyphen between each two pieces of a text that is cut into pieces of given sizes. -/
theorem length_hyphenate {sizes : List Nat} {cs : List Char} (hne : sizes ≠ [])
    (hlength : cs.length = sizes.sum) :
    (hyphenate sizes cs).length + 1 = cs.length + sizes.length := by
  fun_induction hyphenate sizes cs with
  | case1 cs => exact absurd rfl hne
  | case2 size cs => simp
  | case3 size sizes cs hsizes ih =>
    rw [List.sum_cons] at hlength
    have hdrop : (cs.drop size).length = sizes.sum := by
      rw [List.length_drop]
      omega
    have hrest := ih hsizes hdrop
    rw [List.length_append, List.length_cons, List.length_cons, List.length_take]
    rw [List.length_drop] at hrest
    omega

/-- An identifier is read from its canonical text. -/
theorem parse?_text (u : Uuid) : parse? u.text = some u := by
  have hlength : (u.digits.map hexChar).length = groupSizes.sum := by
    rw [List.length_map, u.length_digits]
    rfl
  have hne : groupSizes ≠ [] := List.cons_ne_nil _ _
  obtain ⟨hsizes, hflat⟩ := splitOn_hyphenate hne (hyphen_not_mem_hexChars u.digits) hlength
  have hplain : (hyphenate groupSizes (u.digits.map hexChar)).length ≠ 32 := by
    have hcount := length_hyphenate hne hlength
    rw [hlength] at hcount
    have hsum : groupSizes.sum = 32 := rfl
    have hgroups : groupSizes.length = 5 := rfl
    omega
  have hdigits : ofDigits? u.digits = some u := dif_pos u.length_digits
  have hread : ofHyphenated? (hyphenate groupSizes (u.digits.map hexChar)) = some u := by
    unfold ofHyphenated? ofPlain?
    simp only [hsizes, hflat, if_true, mapM_hexValue?_hexChars, Option.bind_some, hdigits]
  unfold parse? text parseList?
  rw [String.toList_ofList, if_neg hplain, hread]

/-- Different ids have different canonical texts. -/
theorem text_injective {u v : Uuid} (h : u.text = v.text) : u = v := by
  have hread := u.parse?_text
  rw [h, v.parse?_text] at hread
  exact (Option.some.inj hread).symm

/-- A text that stands for one identifier is the canonical text of no other. -/
theorem text_eq_iff {u v : Uuid} {s : String} (h : parse? s = some u) :
    v.text = s ↔ s = u.text ∧ v = u := by
  constructor
  · intro hs
    rw [← hs, v.parse?_text] at h
    obtain rfl := Option.some.inj h
    exact ⟨hs.symm, rfl⟩
  · rintro ⟨hs, rfl⟩
    exact hs.symm

/-! ## Characters of a spelling -/

/-- The character stands in no spelling of an identifier. -/
def Foreign (c : Char) : Prop :=
  hexValue? c = none ∧ c ∉ ['-', '\x7b', '\x7d'] ∧ c.toLower ∉ "urn:uuid:".toList

instance (c : Char) : Decidable (Foreign c) :=
  inferInstanceAs (Decidable (_ ∧ _))

section Foreign

variable {foreign : Char} (hforeign : Foreign foreign)

include hforeign

/-- A foreign character is in no spelling without hyphens. -/
theorem foreign_not_mem_of_ofPlain? {cs : List Char} {u : Uuid} (h : ofPlain? cs = some u) :
    foreign ∉ cs := by
  obtain ⟨ds, hds, -⟩ := Option.bind_eq_some_iff.mp h
  clear h
  induction cs generalizing ds with
  | nil => exact List.not_mem_nil
  | cons c rest ih =>
    rw [List.mapM_cons] at hds
    obtain ⟨d, hd, hrest⟩ := Option.bind_eq_some_iff.mp hds
    obtain ⟨others, hothers, -⟩ := Option.bind_eq_some_iff.mp hrest
    intro hmem
    rcases List.mem_cons.mp hmem with rfl | hmem
    · rw [hforeign.1] at hd
      cases hd
    · exact ih others hothers hmem

/-- A foreign character is in no spelling with hyphens. -/
theorem foreign_not_mem_of_ofHyphenated? {cs : List Char} {u : Uuid}
    (h : ofHyphenated? cs = some u) : foreign ∉ cs := by
  have hhyphen : foreign ≠ '-' := fun heq => hforeign.2.1 (heq ▸ List.mem_cons_self)
  unfold ofHyphenated? at h
  simp only at h
  split at h
  · intro hmem
    exact foreign_not_mem_of_ofPlain? hforeign h (Text.mem_flatten_splitOn hhyphen hmem)
  · cases h

omit hforeign in
/-- A spelling in braces is what is inside, with the braces around it. -/
theorem eq_of_unbrace? {cs inner : List Char} (h : unbrace? cs = some inner) :
    cs = '\x7b' :: (inner ++ ['\x7d']) := by
  unfold unbrace? at h
  split at h
  · rename_i rest
    split at h
    · rename_i hlast
      cases h
      rw [List.dropLast_append_getLast? _ hlast]
    · cases h
  · cases h

/-- A foreign character that is not behind the scheme of a spelling is not in the spelling. -/
theorem foreign_not_mem_of_afterScheme? {cs rest : List Char} (h : afterScheme? cs = some rest)
    (hrest : foreign ∉ rest) : foreign ∉ cs := by
  unfold afterScheme? at h
  split at h
  · rename_i hscheme
    cases h
    have hfront : foreign ∉ cs.take 9 := by
      intro hmem
      have hlower : foreign.toLower ∈ (cs.take 9).map Char.toLower := List.mem_map_of_mem hmem
      rw [hscheme] at hlower
      exact hforeign.2.2 hlower
    rw [← List.take_append_drop 9 cs, List.mem_append, not_or]
    exact ⟨hfront, hrest⟩
  · cases h

/-- What stands in no spelling of an identifier is in no text that is read as one. -/
theorem foreign_not_mem_of_parse? {s : String} {u : Uuid} (h : parse? s = some u) :
    foreign ∉ s.toList := by
  unfold parse? parseList? at h
  split at h
  · exact foreign_not_mem_of_ofPlain? hforeign h
  · cases hhyphens : ofHyphenated? s.toList with
    | some found => exact foreign_not_mem_of_ofHyphenated? hforeign hhyphens
    | none =>
      simp only [hhyphens] at h
      cases hbraces : unbrace? s.toList with
      | some inner =>
        simp only [hbraces] at h
        have hinner := foreign_not_mem_of_ofHyphenated? hforeign h
        have hbrace := hforeign.2.1
        simp only [List.mem_cons, List.not_mem_nil, or_false, not_or] at hbrace
        rw [eq_of_unbrace? hbraces]
        simp [hinner, hbrace.2]
      | none =>
        simp only [hbraces] at h
        obtain ⟨rest, hscheme, hrest⟩ := Option.bind_eq_some_iff.mp h
        exact foreign_not_mem_of_afterScheme? hforeign hscheme
          (foreign_not_mem_of_ofHyphenated? hforeign hrest)

end Foreign

end Uuid

namespace Membership

/-- A group is found by the canonical text of its id and by no other spelling. -/
theorem containsText_of_spelling (m : Membership) {id : EntryId} {s : String}
    (h : Uuid.parse? s = some id) :
    m.containsText s = (decide (s = id.text) && m.contains id) := by
  have hgroup : ∀ group : Affiliation,
      decide (group.id.text = s) = (decide (s = id.text) && decide (group.id = id)) := by
    intro group
    rw [Bool.eq_iff_iff, Bool.and_eq_true]
    simp only [decide_eq_true_eq]
    exact Uuid.text_eq_iff h
  unfold containsText contains
  induction m.groups with
  | nil => simp
  | cons group rest ih =>
    rw [List.any_cons, List.any_cons, ih, hgroup, Bool.and_or_distrib_left]

end Membership

namespace Matching

/-- Whether an id means an entry to the grants of a type in a tier: it is the id of the entry, of
its domain or of one of its groups. -/
def means (v : View) (e : Entry) (asAdmin : Bool) (tier : Tier) (granteeType : GranteeType)
    (id : EntryId) : Bool :=
  if tier.viaGroups ∨ granteeType = .group then (groupsOf v (.entry e) asAdmin).contains id
  else if granteeType = .domain then e.domainId = some id
  else e.id = id

variable {v : View} {e : Entry} {asAdmin : Bool} {tier : Tier} {g : Grant} {id : EntryId}

/-- A grant to an entry of the directory matches if it is written canonically and means the
principal. -/
theorem inTier_entry (htype : g.granteeType ∈ [.user, .group, .domain])
    (hspelling : Uuid.parse? g.grantee = some id) :
    inTier v (.entry e) asAdmin tier g =
      .ok (decide (g.grantee = id.text) && means v e asAdmin tier g.granteeType id) := by
  have hgroups := (groupsOf v (.entry e) asAdmin).containsText_of_spelling hspelling
  have hid : ∀ other : EntryId, decide (other.text = g.grantee) =
      (decide (g.grantee = id.text) && decide (other = id)) := by
    intro other
    rw [Bool.eq_iff_iff, Bool.and_eq_true]
    simp only [decide_eq_true_eq]
    exact Uuid.text_eq_iff hspelling
  have hexternal : g.granteeType ≠ .externalGroup := by
    intro hexternal
    simp [hexternal] at htype
  unfold inTier means
  cases hvia : tier.viaGroups with
  | true =>
    simp only [inGroup, if_true, if_neg hexternal, true_or, ← hgroups]
    cases (groupsOf v (.entry e) asAdmin).containsText g.grantee <;> rfl
  | false =>
    rw [if_neg Bool.false_ne_true]
    unfold isGrantee isIdentifiedGrantee
    rw [if_neg (by nofun)]
    simp only [List.mem_cons, List.not_mem_nil, or_false] at htype
    rcases htype with huser | hgroup | hdomain
    · rw [huser]
      simp [Principal.id?, Principal.entry?, hid]
    · rw [hgroup]
      simp [hgroups]
    · rw [hdomain]
      cases hhome : e.domainId with
      | none => simp [Principal.homeId?, Principal.entry?, hhome]
      | some home => simp [Principal.homeId?, Principal.entry?, hhome, hid]

end Matching

namespace Store

/-- What is wrong with a grant to an entry of the directory does not depend on how the id is
spelled. -/
theorem objection?_of_spelling {g : Grant} {id : EntryId} (target : Entry)
    (htype : g.granteeType ∈ [.user, .group, .domain])
    (hspelling : Uuid.parse? g.grantee = some id) :
    objection? target { g with grantee := id.text } = objection? target g := by
  have hspace : ∀ {s : String}, Uuid.parse? s = some id → Text.mentions ' ' s = false := by
    intro s hs
    unfold Text.mentions
    rw [← Bool.not_eq_true, List.contains_iff_mem]
    exact Uuid.foreign_not_mem_of_parse? (by decide) hs
  have hcarries : g.granteeType.carriesSecret = false := by
    simp only [List.mem_cons, List.not_mem_nil, or_false] at htype
    rcases htype with h | h | h <;> rw [h] <;> rfl
  have hexternal : g.granteeType ≠ .externalGroup := by
    intro hexternal
    simp [hexternal] at htype
  have hgrantee : Grant.granteeObjection? { g with grantee := id.text } =
      g.granteeObjection? := by
    unfold Grant.granteeObjection?
    simp [hcarries, hexternal, hspace hspelling, hspace id.parse?_text]
  unfold objection? Grant.objection?
  rw [hgrantee]
  rfl

end Store

namespace Matching

/-- The store takes a grant to an entry of the directory in every spelling of the id alike. Written
canonically it matches the principals whom the id means, and in any other spelling nobody. -/
theorem match_of_spelling (v : View) (e : Entry) (asAdmin : Bool) (tier : Tier) {g : Grant}
    {id : EntryId} (htype : g.granteeType ∈ [.user, .group, .domain])
    (hspelling : Uuid.parse? g.grantee = some id) :
    (∀ target, Store.objection? target { g with grantee := id.text } =
        Store.objection? target g) ∧
      inTier v (.entry e) asAdmin tier { g with grantee := id.text } =
        .ok (means v e asAdmin tier g.granteeType id) ∧
      inTier v (.entry e) asAdmin tier g =
        .ok (decide (g.grantee = id.text) && means v e asAdmin tier g.granteeType id) := by
  refine ⟨fun target => Store.objection?_of_spelling target htype hspelling, ?_, ?_⟩
  · have hcanonical : inTier v (.entry e) asAdmin tier { g with grantee := id.text } =
        .ok (decide (id.text = id.text) && means v e asAdmin tier g.granteeType id) :=
      inTier_entry htype id.parse?_text
    rw [hcanonical, decide_eq_true rfl, Bool.true_and]
  · exact inTier_entry htype hspelling

end Matching

namespace Sample

/-- An account whose id has letters in it. -/
def carol : Entry := account 12 "carol@example.com"

/-- The directory of Ann and Carol. -/
def spelled : Directory := (Directory.empty.add ann).add carol

/-- The id of Carol in capital letters. -/
def capitals : String := "CCCCCCCC-CCCC-CCCC-CCCC-CCCCCCCCCCCC"

/-- The grantee may not send in somebody's name. -/
def denialOf (grantee : String) : Grant :=
  .make grantee .user sendAs (some .deny) none

/-- Everyone may send in somebody's name, but not the grantee. -/
def allBut (grantee : String) : List Grant :=
  [denialOf grantee, .make "" .everyone sendAs none none]

/-- Carol asks whether she may send in Ann's name. -/
def carolRequest : Request :=
  .ofRight (.entry carol) ann sendAs

end Sample

namespace Matching

/-- A denial for Carol with her id in capital letters does not match her. -/
theorem match_of_spelling_sample :
    Sample.capitals ≠ Sample.carol.id.text ∧
      Uuid.parse? Sample.capitals = some Sample.carol.id ∧
      inTier Sample.spelled.view (.entry Sample.carol) false ⟨[.individual], false⟩
        (Sample.denialOf Sample.capitals) = .ok false := by
  have hspelling : Uuid.parse? (Sample.denialOf Sample.capitals).grantee =
      some Sample.carol.id := by
    decide +kernel
  have hdifferent : (Sample.denialOf Sample.capitals).grantee ≠ Sample.carol.id.text := by
    decide +kernel
  obtain ⟨-, -, hmatch⟩ := match_of_spelling Sample.spelled.view Sample.carol false
    ⟨[.individual], false⟩ List.mem_cons_self hspelling
  rw [hmatch, decide_eq_false hdifferent, Bool.false_and]
  exact ⟨hdifferent, hspelling, rfl⟩

/-- A denial in capital letters is accepted and does not deny. -/
theorem denial_misspelled :
    Catalog.ofDefinitions [Sample.definition] = .ok Sample.control.catalog ∧
    Uuid.parse? Sample.capitals = some Sample.carol.id ∧
    (Sample.control.grant Sample.ann (Sample.allBut Sample.capitals)
      (.start Sample.spelled none)).1.map List.length = .ok 2 ∧
    (Sample.control.evaluate Sample.carolRequest (Sample.control.grant Sample.ann
      (Sample.allBut Sample.capitals) (.start Sample.spelled none)).2).1 =
        .ok (.bare .allow) ∧
    (Sample.control.evaluate Sample.carolRequest (Sample.control.grant Sample.ann
      (Sample.allBut Sample.carol.id.text) (.start Sample.spelled none)).2).1 =
        .ok (.bare .deny) := by
  refine ⟨Sample.catalog_built, ?_, ?_, ?_, ?_⟩
  · decide +kernel
  · decide +kernel
  · decide +kernel
  · decide +kernel

end Matching

end DirectoryRights
