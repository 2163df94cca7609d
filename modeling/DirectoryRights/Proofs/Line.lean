import DirectoryRights.Proofs.Acceptance
import DirectoryRights.Proofs.Cutting
import DirectoryRights.Proofs.Origins

/-!
# Lines that can be read back

A line is read back as the grant it was written for exactly if the three fields can be told apart
and each of them says what it was to say. The right must not have a space in its name, and without a
modifier its name must not begin like one. A grantee with a secret must not have a colon in it, nor
may the secret, which is either absent or not empty; a grantee without a secret must not be empty,
and it must be an identifier where its type asks for one. What is read from any line is always such
a grant, so a grant that is none never comes back.
-/

set_option autoImplicit false

namespace DirectoryRights

/-- A right that is spelled out by its name has this name. -/
theorem Right.name_of_ofName {name : String} {right : Right}
    (h : Right.ofName name = .ok right) : right.name = name := by
  obtain ⟨access, t, attr, rfl⟩ := Right.attrs_of_ofName h
  rfl

/-- A right is found under its own name only. -/
theorem Catalog.name_of_lookup {c : Catalog} {name : String} {right : Right}
    (h : c.lookup name = .ok right) : right.name = name := by
  rcases lookup_eq_ok h with hget | ⟨-, hspelled⟩
  · simpa [get?] using List.find?_some hget
  · exact Right.name_of_ofName hspelled

namespace Grant

/-- The grantee and the secret of a grant can be read from the grantee field of its line. -/
def KeepsGrantee (g : Grant) : Prop :=
  if g.granteeType.carriesSecret then
    ':' ∉ g.grantee.toList ∧ (∀ secret, g.secret = some secret → secret ≠ "" ∧ ':' ∉ secret.toList)
      ∧ ¬ (g.grantee = "" ∧ g.secret = none)
  else
    g.secret = none ∧ g.grantee ≠ ""
      ∧ (g.granteeType.isNamedById = true → Uuid.parseList? g.grantee.toList ≠ none)

/-- The line of a grant can be read back. -/
structure Writable (g : Grant) : Prop where
  /-- The name of the right is one field. -/
  oneField : ' ' ∉ g.right.name.toList
  /-- The name of the right is not taken for a modifier and the rest of the name. -/
  unmarked : g.modifier = none →
    ∃ c rest, g.right.name.toList = c :: rest ∧ Modifier.ofChar? c = none
  /-- The grantee and the secret can be told apart. -/
  grantee : g.KeepsGrantee

/-! ## The field of the right -/

/-- A modifier is read back from its mark. -/
theorem ofChar?_char (m : Modifier) : Modifier.ofChar? m.char = some m := by
  cases m <;> decide

/-- A right whose name has no blanks is written without blanks. -/
theorem space_not_mem_rightField {g : Grant} (h : ' ' ∉ g.right.name.toList) :
    ' ' ∉ g.rightField := by
  unfold rightField
  rw [List.mem_append, not_or]
  refine ⟨?_, h⟩
  cases g.modifier with
  | none => exact List.not_mem_nil
  | some m => cases m <;> decide

/-- The modifier and the name of the right are read back from their field. -/
theorem readRight_rightField {g : Grant} (h : g.Writable) :
    readRight g.rightField = (g.modifier, g.right.name.toList) := by
  unfold rightField
  cases hmodifier : g.modifier with
  | none =>
    obtain ⟨c, rest, hname, hc⟩ := h.unmarked hmodifier
    rw [hname]
    simp only [Option.map_none, Option.toList_none, List.nil_append, readRight, hc]
  | some m =>
    simp only [Option.map_some, Option.toList_some, List.cons_append, List.nil_append, readRight,
      ofChar?_char]

/-- The field of the right has at least one character. -/
theorem rightField_ne_nil {g : Grant} (h : g.Writable) : g.rightField ≠ [] := by
  unfold rightField
  cases hmodifier : g.modifier with
  | none =>
    obtain ⟨c, rest, hname, -⟩ := h.unmarked hmodifier
    rw [hname]
    exact List.cons_ne_nil _ _
  | some m => exact List.cons_ne_nil _ _

/-! ## The field of the grantee -/

/-- What is written with one colon is cut there, and empty parts at the end are dropped. -/
theorem secretParts_of_colon {name secret : List Char} (hname : ':' ∉ name)
    (hsecret : ':' ∉ secret) :
    secretParts (name ++ ':' :: secret) = ([secret, name].dropWhile (· = [])).reverse := by
  unfold secretParts
  rw [Text.splitOn_append hname, Text.splitOn_of_not_mem hsecret]
  rfl

/-- A text without characters is the empty one. -/
theorem toList_eq_nil {s : String} : s.toList = [] ↔ s = "" := by
  rw [← String.toList_inj, String.toList_empty]

/-- The grantee and the secret are read back from their field. -/
theorem readGrantee_granteeField {g : Grant} (h : g.KeepsGrantee) (line : String) :
    readGrantee g.granteeType g.granteeField line = .ok (g.grantee, g.secret) := by
  unfold KeepsGrantee at h
  unfold readGrantee granteeField
  by_cases hcarries : g.granteeType.carriesSecret = true
  · rw [if_pos hcarries] at h ⊢
    rw [if_pos hcarries]
    obtain ⟨hname, hsecret, hboth⟩ := h
    cases hcase : g.secret with
    | none =>
      have hgrantee : g.grantee.toList ≠ [] := fun hnil =>
        hboth ⟨toList_eq_nil.mp hnil, hcase⟩
      rw [Option.getD_none, secretParts_of_colon hname (by simp)]
      simp [hgrantee, String.ofList_toList]
    | some secret =>
      obtain ⟨hne, hcolon⟩ := hsecret secret hcase
      have hsecret : secret.toList ≠ [] := fun hnil => hne (toList_eq_nil.mp hnil)
      rw [Option.getD_some, secretParts_of_colon hname hcolon]
      simp [hsecret, String.ofList_toList]
  · rw [if_neg hcarries] at h ⊢
    rw [if_neg hcarries]
    obtain ⟨hsecret, -, hid⟩ := h
    rw [if_neg fun hbad => hid hbad.1 hbad.2, hsecret, String.ofList_toList]

/-- The field of the grantee has at least one character. -/
theorem granteeField_ne_nil {g : Grant} (h : g.KeepsGrantee) : g.granteeField ≠ [] := by
  unfold KeepsGrantee at h
  unfold granteeField
  by_cases hcarries : g.granteeType.carriesSecret = true
  · rw [if_pos hcarries]
    exact List.append_ne_nil_of_right_ne_nil _ (List.cons_ne_nil _ _)
  · rw [if_neg hcarries] at h ⊢
    exact fun hnil => h.2.1 (toList_eq_nil.mp hnil)

/-- The parts of a grantee field have no colon in them, and the last one is not empty. -/
theorem secretParts_spec (field : List Char) :
    (∀ part ∈ secretParts field, ':' ∉ part) ∧ (secretParts field).getLast? ≠ some [] := by
  unfold secretParts
  constructor
  · intro part hpart
    rw [List.mem_reverse] at hpart
    exact Text.not_mem_of_mem_splitOn
      (List.mem_reverse.mp ((List.dropWhile_sublist _).subset hpart))
  · rw [List.getLast?_reverse]
    intro hhead
    have hdrop := List.head?_dropWhile_not (fun part : List Char => decide (part = []))
      (Text.splitOn ':' field).reverse
    rw [hhead] at hdrop
    cases hdrop

/-- What is read from a grantee field can be written back. -/
theorem keepsGrantee_of_readGrantee {granteeType : GranteeType} {field : List Char} {line : String}
    {g : Grant} (hfield : field ≠ []) (htype : g.granteeType = granteeType)
    (h : readGrantee granteeType field line = .ok (g.grantee, g.secret)) : g.KeepsGrantee := by
  unfold readGrantee at h
  unfold KeepsGrantee
  rw [htype]
  by_cases hcarries : granteeType.carriesSecret = true
  · rw [if_pos hcarries] at h ⊢
    obtain ⟨hcolon, hlast⟩ := secretParts_spec field
    -- One part is a name, two parts are a name and a secret, and any other number is refused.
    rcases hparts : secretParts field with _ | ⟨name, _ | ⟨secret, _ | ⟨third, rest⟩⟩⟩
    · rw [hparts] at h
      cases h
    · rw [hparts] at h hcolon hlast
      obtain ⟨hgrantee, hsecret⟩ := Prod.mk.inj (Except.ok.inj h)
      have hname : name ≠ [] := fun hnil => hlast (by rw [hnil]; rfl)
      rw [← hgrantee, ← hsecret, String.toList_ofList]
      refine ⟨hcolon name List.mem_cons_self, nofun, fun hempty => ?_⟩
      exact hname (by rw [← String.toList_ofList (l := name), hempty.1, String.toList_empty])
    · rw [hparts] at h hcolon hlast
      obtain ⟨hgrantee, hsecret⟩ := Prod.mk.inj (Except.ok.inj h)
      have hne : secret ≠ [] := fun hnil => hlast (by rw [hnil]; rfl)
      rw [← hgrantee, ← hsecret, String.toList_ofList]
      refine ⟨hcolon name List.mem_cons_self, fun _ hsome => ?_, fun hempty => nomatch hempty.2⟩
      obtain rfl := Option.some.inj hsome
      rw [String.toList_ofList]
      refine ⟨fun hempty => hne ?_, hcolon secret (by simp)⟩
      rw [← String.toList_ofList (l := secret), hempty, String.toList_empty]
    · rw [hparts] at h
      cases h
  · rw [if_neg hcarries] at h ⊢
    by_cases hid : granteeType.isNamedById = true ∧ Uuid.parseList? field = none
    · rw [if_pos hid] at h
      cases h
    · rw [if_neg hid] at h
      obtain ⟨hgrantee, hsecret⟩ := Prod.mk.inj (Except.ok.inj h)
      rw [← hgrantee, ← hsecret, String.toList_ofList]
      refine ⟨rfl, fun hempty => hfield ?_, fun hnamed hnone => hid ⟨hnamed, hnone⟩⟩
      rw [← String.toList_ofList (l := field), hempty, String.toList_empty]

/-! ## The whole line -/

/-- The line is made of three fields with one blank between each two. -/
theorem toList_line (g : Grant) : g.line.toList =
    g.granteeField ++ ' ' :: (g.granteeType.code.toList ++ ' ' :: g.rightField) := by
  unfold line
  rw [String.toList_ofList]
  simp

/-- The code of a grantee type has no blanks. -/
theorem space_not_mem_code (t : GranteeType) : ' ' ∉ t.code.toList := by
  cases t <;> decide

/-- A grantee type is read back from its code. -/
theorem ofCode?_code (t : GranteeType) : GranteeType.ofCode? t.code = some t := by
  cases t <;> decide

/-- The fields of a line are the pieces between its last two spaces. -/
theorem fields?_eq_some {cs field code right : List Char} :
    fields? cs = some (field, code, right) ↔
      cs = field ++ ' ' :: (code ++ ' ' :: right) ∧ ' ' ∉ code ∧ ' ' ∉ right ∧ field ≠ [] ∧
        right ≠ [] := by
  unfold fields?
  constructor
  · intro h
    obtain ⟨⟨front, last⟩, hlast, hrest⟩ := Option.bind_eq_some_iff.mp h
    obtain ⟨⟨first, middle⟩, hfirst, hfields⟩ := Option.bind_eq_some_iff.mp hrest
    obtain ⟨rfl, hright⟩ := Text.cutLast?_eq_some.mp hlast
    obtain ⟨rfl, hcode⟩ := Text.cutLast?_eq_some.mp hfirst
    by_cases hempty : first = [] ∨ last = []
    · simp only [if_pos hempty] at hfields
      cases hfields
    · simp only [if_neg hempty] at hfields
      cases hfields
      rw [not_or] at hempty
      exact ⟨by simp, hcode, hright, hempty.1, hempty.2⟩
  · rintro ⟨rfl, hcode, hright, hfield, hne⟩
    have hlast : Text.cutLast? ' ' (field ++ ' ' :: (code ++ ' ' :: right)) =
        some (field ++ ' ' :: code, right) :=
      Text.cutLast?_eq_some.mpr ⟨by simp, hright⟩
    have hfirst : Text.cutLast? ' ' (field ++ ' ' :: code) = some (field, code) :=
      Text.cutLast?_eq_some.mpr ⟨rfl, hcode⟩
    have hempty : ¬ (field = [] ∨ right = []) := by
      rw [not_or]
      exact ⟨hfield, hne⟩
    rw [hlast]
    simp only [Option.bind_some, hfirst, if_neg hempty]

/-- The line is cut into the fields it was made of. -/
theorem fields?_line {g : Grant} (h : g.Writable) :
    fields? g.line.toList = some (g.granteeField, g.granteeType.code.toList, g.rightField) := by
  rw [fields?_eq_some]
  exact ⟨g.toList_line, space_not_mem_code _, space_not_mem_rightField h.oneField,
    granteeField_ne_nil h.grantee, rightField_ne_nil h⟩

/-- The line of a grant is read back as the grant if it can be, but for where it was found. -/
theorem parse_line {c : Catalog} {g : Grant} (hright : c.lookup g.right.name = .ok g.right)
    (h : g.Writable) : parse c g.line = .ok g.unplaced := by
  unfold parse
  rw [fields?_line h]
  simp only [String.ofList_toList, ofCode?_code]
  rw [readGrantee_granteeField h.grantee, readRight_rightField h]
  simp only [Except.bind, String.ofList_toList, hright]
  rfl

/-- Every part of a line that is read keeps what it says. -/
structure Read (c : Catalog) (line : String) (g : Grant) (field right : List Char) : Prop where
  /-- The line consists of the three fields. -/
  fields : line.toList = field ++ ' ' :: (g.granteeType.code.toList ++ ' ' :: right)
  /-- The grantee field is not empty. -/
  field_ne_nil : field ≠ []
  /-- The right field is not empty. -/
  right_ne_nil : right ≠ []
  /-- The right field has no space. -/
  oneField : ' ' ∉ right
  /-- The grantee field was read. -/
  grantee : readGrantee g.granteeType field line = .ok (g.grantee, g.secret)
  /-- The right field was read. -/
  right : (readRight right).1 = g.modifier ∧ (readRight right).2 = g.right.name.toList
  /-- The right is in the catalog or spelled out by its name. -/
  found : c.lookup g.right.name = .ok g.right
  /-- The grant was not found on an entry. -/
  origin : g.origin = none

/-- What a line was read from. -/
theorem read_of_parse {c : Catalog} {line : String} {g : Grant} (h : parse c line = .ok g) :
    ∃ field right, Read c line g field right := by
  unfold parse at h
  cases hfields : fields? line.toList with
  | none =>
    rw [hfields] at h
    cases h
  | some fields =>
    obtain ⟨field, code, right⟩ := fields
    obtain ⟨hline, -, hspace, hfield, hright⟩ := fields?_eq_some.mp hfields
    rw [hfields] at h
    simp only at h
    cases htype : GranteeType.ofCode? (String.ofList code) with
    | none =>
      rw [htype] at h
      cases h
    | some granteeType =>
      rw [htype] at h
      simp only at h
      cases hgrantee : readGrantee granteeType field line with
      | error cause =>
        rw [hgrantee] at h
        cases h
      | ok parts =>
        obtain ⟨grantee, secret⟩ := parts
        rw [hgrantee] at h
        simp only [Except.bind] at h
        cases hlookup : c.lookup (String.ofList (readRight right).2) with
        | error cause =>
          rw [hlookup] at h
          cases h
        | ok found =>
          rw [hlookup] at h
          cases h
          have hname := Catalog.name_of_lookup hlookup
          have hcode : granteeType.code.toList = code := by
            have hsame : granteeType.code = String.ofList code := by
              simpa [GranteeType.ofCode?] using List.find?_some htype
            rw [hsame, String.toList_ofList]
          refine ⟨field, right, ?_, hfield, hright, hspace, hgrantee, ⟨rfl, ?_⟩, ?_, rfl⟩
          · rw [hline, hcode]
          · rw [hname, String.toList_ofList]
          · rw [hname, hlookup]

/-- Every grant that is read from a line can be written and read again. -/
theorem writable_of_parse {c : Catalog} {line : String} {g : Grant}
    (h : parse c line = .ok g) : g.Writable := by
  obtain ⟨field, right, hread⟩ := read_of_parse h
  obtain ⟨hmodifier, hname⟩ := hread.right
  have hgrantee := keepsGrantee_of_readGrantee hread.field_ne_nil rfl hread.grantee
  obtain ⟨first, rest, rfl⟩ := List.exists_cons_of_ne_nil hread.right_ne_nil
  unfold readRight at hmodifier hname
  cases hfirst : Modifier.ofChar? first with
  | some m =>
    simp only [hfirst] at hmodifier hname
    refine ⟨?_, ?_, hgrantee⟩
    · rw [← hname]
      exact fun hspace => hread.oneField (List.mem_cons_of_mem _ hspace)
    · rw [← hmodifier]
      nofun
  | none =>
    simp only [hfirst] at hmodifier hname
    refine ⟨?_, ?_, hgrantee⟩
    · rw [← hname]
      exact hread.oneField
    · exact fun _ => ⟨first, rest, hname.symm, hfirst⟩

/-- The line of a grant is read back as the grant exactly if the grant is one that can be. -/
theorem parse_line_iff {c : Catalog} {g : Grant} (hright : c.lookup g.right.name = .ok g.right) :
    parse c g.line = .ok g.unplaced ↔ g.Writable := by
  constructor
  · intro h
    have hwritable := writable_of_parse h
    exact ⟨hwritable.oneField, hwritable.unmarked, hwritable.grantee⟩
  · exact parse_line hright

end Grant

end DirectoryRights
