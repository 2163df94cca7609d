import DirectoryRights.Proofs.Catalogs
import DirectoryRights.Proofs.Line
import DirectoryRights.Proofs.Sample

/-!
# Which grants survive their line

Whether a line is read back as the grant it was written for is a matter of the texts in the grant:
of the name of its right, of its grantee and of its secret. The conditions on them are spelled out
here for each kind of grantee. They are exact for every catalog that is made by definitions, because
such a catalog has no right without a name.
-/

set_option autoImplicit false

namespace DirectoryRights

namespace Catalog

/-- No right without a name is accepted. -/
theorem name_ne_empty_of_accept {c : Catalog} {d : Definition} {right : Right}
    (h : c.accept d = .ok right) : right.name ≠ "" := by
  rw [name_of_accept h]
  exact (objection?_eq_none (accept_eq_ok h).1).1

/-- Every right of a catalog made by definitions has a name. -/
theorem name_ne_empty_of_mem {ds : List Definition} {c : Catalog} (hc : ofDefinitions ds = .ok c) :
    ∀ right ∈ c.rights, right.name ≠ "" := by
  apply ofDefinitions_induction (P := fun c => ∀ right ∈ c.rights, right.name ≠ "") _ _ hc
  · intro right hright
    cases hright
  · intro c d right hbefore haccept other hother
    rcases List.mem_append.mp hother with hold | hnew
    · exact hbefore other hold
    · rw [List.mem_singleton.mp hnew]
      exact name_ne_empty_of_accept haccept

/-- Every right that is found has a name: what is not in the catalog has a dot in it. -/
theorem name_ne_empty_of_lookup {ds : List Definition} {c : Catalog}
    (hc : ofDefinitions ds = .ok c) {name : String} {right : Right}
    (h : c.lookup name = .ok right) : right.name ≠ "" := by
  rcases lookup_eq_ok h with hget | ⟨hdot, hspelled⟩
  · exact name_ne_empty_of_mem hc right (List.mem_of_find?_eq_some hget)
  · rw [Right.name_of_ofName hspelled]
    rintro rfl
    revert hdot
    decide

end Catalog

namespace Grant

/-- The name of the right is one field, and without a modifier it does not begin like one. -/
def LegibleRight (g : Grant) : Prop :=
  ' ' ∉ g.right.name.toList ∧
    (g.modifier = none → ∀ mark ∈ ['-', '+', '*', '^'], g.right.name.toList.head? ≠ some mark)

/-- The grantee and the secret can be told apart, and an id is one. -/
def LegibleGrantee (g : Grant) : Prop :=
  match g.granteeType with
  | .guest | .key =>
    ':' ∉ g.grantee.toList ∧
      (g.secret = none ∨ ∃ secret, g.secret = some secret ∧ secret ≠ "" ∧ ':' ∉ secret.toList) ∧
      ¬ (g.grantee = "" ∧ g.secret = none)
  | .user | .group | .domain | .authUser | .everyone =>
    g.secret = none ∧ g.grantee ≠ "" ∧ ∃ id, Uuid.parse? g.grantee = some id
  | .externalGroup | .externalDomain | .email => g.secret = none ∧ g.grantee ≠ ""

/-- A first character that marks no modifier is none of the four marks. -/
theorem ofChar?_eq_none {c : Char} :
    Modifier.ofChar? c = none ↔ c ∉ ['-', '+', '*', '^'] := by
  unfold Modifier.ofChar?
  rw [List.find?_eq_none]
  simp [Modifier.all, Modifier.char, eq_comm]

/-- The name of a right begins with no mark of a modifier exactly if its first character is none of
the four marks. -/
theorem unmarked_iff {g : Grant} (hname : g.right.name ≠ "") :
    (∃ c rest, g.right.name.toList = c :: rest ∧ Modifier.ofChar? c = none) ↔
      ∀ mark ∈ ['-', '+', '*', '^'], g.right.name.toList.head? ≠ some mark := by
  have hchars : g.right.name.toList ≠ [] := fun hnil => hname (toList_eq_nil.mp hnil)
  obtain ⟨first, rest, hcons⟩ := List.exists_cons_of_ne_nil hchars
  rw [hcons, List.head?_cons]
  constructor
  · rintro ⟨c, others, heq, hc⟩ mark hmark hfirst
    obtain ⟨rfl, -⟩ := List.cons.inj heq
    rw [Option.some.inj hfirst] at hc
    exact ofChar?_eq_none.mp hc hmark
  · intro hmarks
    refine ⟨first, rest, rfl, ofChar?_eq_none.mpr ?_⟩
    intro hmem
    exact hmarks first hmem rfl

/-- What is kept of the grantee and the secret, type by type. -/
theorem keepsGrantee_iff (g : Grant) : g.KeepsGrantee ↔ g.LegibleGrantee := by
  have hsecret : (∀ secret, g.secret = some secret → secret ≠ "" ∧ ':' ∉ secret.toList) ↔
      (g.secret = none ∨ ∃ secret, g.secret = some secret ∧ secret ≠ "" ∧ ':' ∉ secret.toList) := by
    cases g.secret <;> simp
  have hid : Uuid.parseList? g.grantee.toList ≠ none ↔ ∃ id, Uuid.parse? g.grantee = some id :=
    Option.ne_none_iff_exists'
  unfold KeepsGrantee LegibleGrantee
  rw [hsecret, hid]
  cases g.granteeType <;>
    simp [GranteeType.carriesSecret, GranteeType.has, GranteeType.capabilities,
      GranteeType.isNamedById]

/-- The line of a grant can be read back exactly if its right and its grantee are legible. -/
theorem writable_iff {g : Grant} (hname : g.right.name ≠ "") :
    g.Writable ↔ g.LegibleRight ∧ g.LegibleGrantee := by
  constructor
  · rintro ⟨hfield, hunmarked, hgrantee⟩
    exact ⟨⟨hfield, fun h => (unmarked_iff hname).mp (hunmarked h)⟩, g.keepsGrantee_iff.mp hgrantee⟩
  · rintro ⟨⟨hfield, hunmarked⟩, hgrantee⟩
    exact ⟨hfield, fun h => (unmarked_iff hname).mpr (hunmarked h), g.keepsGrantee_iff.mpr hgrantee⟩

/-- What can be written is a matter of what a grant says. -/
theorem Writable.of_same {g h : Grant} (hh : h.Writable) (hsame : h.same g = true) :
    g.Writable := by
  obtain ⟨hslot, hmodifier, hsecret⟩ := same_iff.mp hsame
  obtain ⟨hgrantee, htype, hname⟩ := Slot.mk.inj hslot
  obtain ⟨hfield, hunmarked, hkeeps⟩ := hh
  unfold KeepsGrantee at hkeeps
  rw [hname] at hfield hunmarked
  rw [hmodifier] at hunmarked
  rw [hgrantee, htype, hsecret] at hkeeps
  exact ⟨hfield, hunmarked, hkeeps⟩

/-- A line is read back as a grant that says the same exactly if the texts of the grant are
legible. -/
theorem parse_line_same_iff {ds : List Definition} {c : Catalog}
    (hc : Catalog.ofDefinitions ds = .ok c) {g : Grant}
    (hright : ∃ name, c.lookup name = .ok g.right) :
    (∃ h, parse c g.line = .ok h ∧ h.same g = true) ↔ g.LegibleRight ∧ g.LegibleGrantee := by
  obtain ⟨name, hlookup⟩ := hright
  have hown : c.lookup g.right.name = .ok g.right := by
    rw [Catalog.name_of_lookup hlookup]
    exact hlookup
  rw [← writable_iff (Catalog.name_ne_empty_of_lookup hc hlookup)]
  constructor
  · rintro ⟨h, hparse, hsame⟩
    exact (writable_of_parse hparse).of_same hsame
  · intro hwritable
    exact ⟨g.unplaced, (parse_line_iff hown).mpr hwritable, same_iff.mpr ⟨rfl, rfl, rfl⟩⟩

/-- A denial for a guest with blanks in the name and in the password comes back as it is. -/
theorem parse_line_same_iff_sample :
    ∃ h, parse Sample.control.catalog
        (make "guest of ann" .guest Sample.sendAs (some .deny) (some "open sesame")).line = .ok h ∧
      h.same (make "guest of ann" .guest Sample.sendAs (some .deny) (some "open sesame")) = true
      := by
  have hright : ∃ name, Sample.control.catalog.lookup name =
      .ok (make "guest of ann" .guest Sample.sendAs (some .deny) (some "open sesame")).right :=
    ⟨"sendAs", rfl⟩
  apply (parse_line_same_iff Sample.catalog_built hright).mpr
  refine ⟨⟨by decide +kernel, nofun⟩, by decide +kernel, ?_, nofun⟩
  exact .inr ⟨"open sesame", rfl, by decide +kernel, by decide +kernel⟩

end Grant

end DirectoryRights
