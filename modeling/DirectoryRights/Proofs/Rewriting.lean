import Mathlib.Data.List.TakeWhile
import DirectoryRights.Proofs.Line
import DirectoryRights.Proofs.Sample

/-!
# Lines that are written again

A stored line that is read and written again stays what it was. Every field is kept as it stands in
the line, so the new line is the old one, character by character, for all grantees without a secret.
A grantee with a secret leaves out the colons at the end of its field, because empty parts there say
nothing; it is written with one colon between the name and the secret, and with one at the end where
there is no secret. The new line is read as the same grant. A line that is refused is refused as
malformed, whatever is wrong with it.
-/

set_option autoImplicit false

namespace DirectoryRights.Grant

/-! ## Refused lines -/

/-- A grantee that cannot be read is an error of reading. -/
theorem kind_of_readGrantee {granteeType : GranteeType} {field : List Char} {line : String}
    {e : Error} (h : readGrantee granteeType field line = .error e) : e.kind = .parse := by
  unfold readGrantee at h
  by_cases hcarries : granteeType.carriesSecret = true
  · rw [if_pos hcarries] at h
    rcases hparts : secretParts field with _ | ⟨name, _ | ⟨secret, _ | ⟨third, rest⟩⟩⟩ <;>
      rw [hparts] at h <;> cases h <;> rfl
  · rw [if_neg hcarries] at h
    by_cases hid : granteeType.isNamedById = true ∧ Uuid.parseList? field = none
    · rw [if_pos hid] at h
      cases h
      rfl
    · rw [if_neg hid] at h
      cases h

/-- A line is refused as malformed, a right that cannot be resolved included. -/
theorem kind_of_parse {c : Catalog} {line : String} {e : Error} (h : parse c line = .error e) :
    e.kind = .parse := by
  unfold parse at h
  cases hfields : fields? line.toList with
  | none =>
    rw [hfields] at h
    cases h
    rfl
  | some fields =>
    obtain ⟨field, code, right⟩ := fields
    rw [hfields] at h
    simp only at h
    cases htype : GranteeType.ofCode? (String.ofList code) with
    | none =>
      rw [htype] at h
      cases h
      rfl
    | some granteeType =>
      rw [htype] at h
      simp only at h
      cases hgrantee : readGrantee granteeType field line with
      | error cause =>
        rw [hgrantee] at h
        cases h
        exact kind_of_readGrantee hgrantee
      | ok parts =>
        rw [hgrantee] at h
        simp only [Except.bind] at h
        cases hlookup : c.lookup (String.ofList (readRight right).2) with
        | error cause =>
          rw [hlookup] at h
          cases h
          rfl
        | ok found =>
          rw [hlookup] at h
          cases h

/-! ## The fields, written again -/

/-- The modifier and the name of the right make up the field from which they were read. -/
theorem append_readRight (field : List Char) :
    ((readRight field).1.map Modifier.char).toList ++ (readRight field).2 = field := by
  cases field with
  | nil => rfl
  | cons c rest =>
    cases hc : Modifier.ofChar? c with
    | none => simp [readRight, hc]
    | some m =>
      have hchar : m.char = c := by simpa [Modifier.ofChar?] using List.find?_some hc
      simp [readRight, hc, hchar]

/-- A grantee without a secret is its whole field. -/
theorem granteeField_of_readGrantee {g : Grant} {field : List Char} {line : String}
    (hcarries : g.granteeType.carriesSecret = false)
    (h : readGrantee g.granteeType field line = .ok (g.grantee, g.secret)) :
    g.granteeField = field := by
  unfold readGrantee at h
  unfold granteeField
  rw [if_neg (Bool.eq_false_iff.mp hcarries)] at h ⊢
  by_cases hid : g.granteeType.isNamedById = true ∧ Uuid.parseList? field = none
  · rw [if_pos hid] at h
    cases h
  · rw [if_neg hid] at h
    obtain ⟨hname, -⟩ := Prod.mk.inj (Except.ok.inj h)
    rw [← hname, String.toList_ofList]

/-- A grantee field consists of its parts, with colons between them and any number of colons at the
end. -/
theorem exists_colons_of_secretParts {field : List Char} (h : secretParts field ≠ []) :
    ∃ n, field = [':'].intercalate (secretParts field) ++ List.replicate n ':' := by
  have hempty : ∀ part ∈ (Text.splitOn ':' field).reverse.takeWhile (· = []), part = [] := by
    intro part hpart
    simpa using List.mem_takeWhile_imp hpart
  refine ⟨((Text.splitOn ':' field).reverse.takeWhile (· = [])).length, ?_⟩
  have hparts : Text.splitOn ':' field = secretParts field ++
      List.replicate ((Text.splitOn ':' field).reverse.takeWhile (· = [])).length [] := by
    conv_lhs => rw [← List.reverse_reverse (Text.splitOn ':' field),
      ← List.takeWhile_append_dropWhile (p := (· = [])) (l := (Text.splitOn ':' field).reverse)]
    rw [List.reverse_append, List.eq_replicate_of_mem hempty, List.reverse_replicate,
      List.length_replicate]
    rfl
  rw [← Text.intercalate_append_replicate h, ← hparts, Text.intercalate_splitOn]

/-- The characters that a grantee with a secret keeps of its field. -/
def keptField (g : Grant) : List Char :=
  g.grantee.toList ++ (g.secret.map fun secret => ':' :: secret.toList).getD []

/-- The field of a grantee with a secret is what was kept of it, with a colon at the end where there
is no secret. -/
theorem granteeField_of_secret {g : Grant} (h : g.granteeType.carriesSecret = true) :
    g.granteeField = g.keptField ++ if g.secret = none then [':'] else [] := by
  unfold granteeField keptField
  rw [if_pos h]
  cases g.secret <;> simp

/-- Nothing but colons at the end is lost of the field of a grantee with a secret. -/
theorem field_of_readGrantee {g : Grant} {field : List Char} {line : String}
    (hcarries : g.granteeType.carriesSecret = true)
    (h : readGrantee g.granteeType field line = .ok (g.grantee, g.secret)) :
    ∃ n, field = g.keptField ++ List.replicate n ':' := by
  unfold readGrantee at h
  rw [if_pos hcarries] at h
  have hcolons : secretParts field ≠ [] →
      ∃ n, field = [':'].intercalate (secretParts field) ++ List.replicate n ':' :=
    exists_colons_of_secretParts
  rcases hparts : secretParts field with _ | ⟨name, _ | ⟨secret, _ | ⟨third, rest⟩⟩⟩
  · rw [hparts] at h
    cases h
  · rw [hparts] at h hcolons
    obtain ⟨hgrantee, hsecret⟩ := Prod.mk.inj (Except.ok.inj h)
    have hkept : g.keptField = name := by
      rw [keptField, ← hgrantee, ← hsecret]
      simp
    rw [hkept]
    simpa using hcolons
  · rw [hparts] at h hcolons
    obtain ⟨hgrantee, hsecret⟩ := Prod.mk.inj (Except.ok.inj h)
    have hkept : g.keptField = [':'].intercalate [name, secret] := by
      rw [keptField, ← hgrantee, ← hsecret]
      simp [List.intercalate_cons_cons]
    rw [hkept]
    exact hcolons (List.cons_ne_nil _ _)
  · rw [hparts] at h
    cases h

/-- What is kept of the field of a grantee with a secret does not end in a colon. -/
theorem getLast?_keptField {g : Grant} (hcarries : g.granteeType.carriesSecret = true)
    (h : g.KeepsGrantee) : g.keptField.getLast? ≠ some ':' := by
  unfold KeepsGrantee at h
  rw [if_pos hcarries] at h
  obtain ⟨hname, hsecret, -⟩ := h
  intro hlast
  unfold keptField at hlast
  cases hcase : g.secret with
  | none =>
    rw [hcase] at hlast
    simp only [Option.map_none, Option.getD_none, List.append_nil] at hlast
    exact hname (List.mem_of_getLast? hlast)
  | some secret =>
    obtain ⟨hne, hcolon⟩ := hsecret secret hcase
    rw [hcase] at hlast
    obtain ⟨c, rest, hcons⟩ :=
      List.exists_cons_of_ne_nil fun hnil => hne (toList_eq_nil.mp hnil)
    rw [hcons] at hcolon
    simp only [Option.map_some, Option.getD_some, hcons, List.getLast?_append_cons,
      List.getLast?_cons_cons] at hlast
    exact hcolon (List.mem_of_getLast? hlast)

/-! ## The line, written again -/

/-- The line of a grant is another line up to the colons after the grantee and the secret: there are
none of them if there is a secret, and one if there is none. -/
structure SameButColons (g : Grant) (line : String) : Prop where
  /-- What is kept has no colon at its end. -/
  bare : g.keptField.getLast? ≠ some ':'
  /-- The two lines differ in nothing else. -/
  lines : ∃ n right, ' ' ∉ right ∧
    line.toList = g.keptField ++ List.replicate n ':' ++
      (' ' :: g.granteeType.code.toList ++ ' ' :: right) ∧
    g.line.toList = g.keptField ++ (if g.secret = none then [':'] else []) ++
      (' ' :: g.granteeType.code.toList ++ ' ' :: right)

/-- The field of the right is written as it was read. -/
theorem rightField_of_read {c : Catalog} {line : String} {g : Grant} {field right : List Char}
    (h : Read c line g field right) : g.rightField = right := by
  unfold rightField
  rw [← h.right.1, ← h.right.2]
  exact append_readRight right

/-- A line is refused as malformed, or it is read as a grant whose own line is read as the same
grant. This line is the first one, but for colons after a grantee with a secret. -/
theorem parse_rewritten (c : Catalog) (line : String) :
    (∀ e, parse c line = .error e → e.kind = .parse) ∧
      ∀ g, parse c line = .ok g →
        parse c g.line = .ok g ∧
          (g.granteeType.carriesSecret = false → g.line = line) ∧
          (g.granteeType.carriesSecret = true → g.SameButColons line) := by
  refine ⟨fun e => kind_of_parse, fun g h => ?_⟩
  have hwritable := writable_of_parse h
  obtain ⟨field, right, hread⟩ := read_of_parse h
  have hright := rightField_of_read hread
  have hagain : parse c g.line = .ok g := by
    rw [parse_line hread.found hwritable, unplaced, ← hread.origin]
  refine ⟨hagain, fun hcarries => ?_, fun hcarries => ?_⟩
  · have hfield := granteeField_of_readGrantee hcarries hread.grantee
    rw [← String.toList_inj, toList_line, hfield, hright, hread.fields]
  · obtain ⟨n, hfield⟩ := field_of_readGrantee hcarries hread.grantee
    refine ⟨getLast?_keptField hcarries hwritable.grantee, n, right, hread.oneField, ?_, ?_⟩
    · rw [hread.fields, hfield]
      simp
    · rw [toList_line, granteeField_of_secret hcarries, hright]
      simp

/-- A guest whose line ends the password in two colons is written without them. -/
theorem parse_rewritten_sample :
    ∃ g, parse Sample.control.catalog "guest of ann:open sesame:: gst -sendAs" = .ok g ∧
      parse Sample.control.catalog g.line = .ok g ∧
      g.SameButColons "guest of ann:open sesame:: gst -sendAs" := by
  obtain ⟨g, h, hguest⟩ := Store.exists_ok_of_any
    (x := parse Sample.control.catalog "guest of ann:open sesame:: gst -sendAs")
    (p := (·.granteeType.carriesSecret)) (by decide +kernel)
  obtain ⟨hagain, -, hcolons⟩ :=
    (parse_rewritten Sample.control.catalog "guest of ann:open sesame:: gst -sendAs").2 g h
  exact ⟨g, h, hagain, hcolons hguest⟩

end DirectoryRights.Grant
