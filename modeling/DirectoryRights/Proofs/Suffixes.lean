import DirectoryRights.Ancestry
import DirectoryRights.Proofs.Cutting

/-!
# The names above a domain

A name of labels with dots between them has one name above it for every dot, and the longest of them
is the nearest. They can be read off the text of the name, as what stands after each of its dots, or
be put together again from the labels that are left when some were taken off the front.
-/

set_option autoImplicit false

namespace DirectoryRights.Ancestry

/-- The names are what stands after the dots of a name, longest first. -/
structure DotSuffixes (name : String) (names : List String) : Prop where
  /-- Whatever stands after a dot is among the names, and nothing else. -/
  mem_iff : ∀ suffix, suffix ∈ names ↔ ∃ front, name = front ++ "." ++ suffix
  /-- Each name is longer than those after it. -/
  longestFirst : names.Pairwise fun longer shorter => shorter.length < longer.length

/-- The suffixes of a text are what stands behind one of its dots. -/
theorem mem_suffixesAfterDots {cs suffix : List Char} :
    suffix ∈ suffixesAfterDots cs ↔ ∃ front, cs = front ++ '.' :: suffix := by
  induction cs with
  | nil => simp [suffixesAfterDots]
  | cons c rest ih =>
    have hcons : (∃ front, c :: rest = front ++ '.' :: suffix) ↔
        c = '.' ∧ rest = suffix ∨ ∃ front, rest = front ++ '.' :: suffix := by
      constructor
      · rintro ⟨_ | ⟨first, front⟩, h⟩
        · exact .inl (List.cons.inj h)
        · exact .inr ⟨front, (List.cons.inj h).2⟩
      · rintro (⟨rfl, rfl⟩ | ⟨front, rfl⟩)
        · exact ⟨[], rfl⟩
        · exact ⟨c :: front, rfl⟩
    rw [suffixesAfterDots, hcons, ← ih]
    by_cases hc : c = '.'
    · rw [if_pos hc, List.mem_cons, eq_comm]
      simp only [hc, true_and]
    · rw [if_neg hc]
      simp only [hc, false_and, false_or]

/-- Of two of these texts the later one stands after a dot of the earlier one. -/
theorem pairwise_suffixesAfterDots (cs : List Char) :
    (suffixesAfterDots cs).Pairwise fun longer shorter =>
      ∃ front, longer = front ++ '.' :: shorter := by
  induction cs with
  | nil => exact .nil
  | cons c rest ih =>
    rw [suffixesAfterDots]
    by_cases hc : c = '.'
    · rw [if_pos hc]
      exact List.pairwise_cons.mpr ⟨fun _ hsuffix => mem_suffixesAfterDots.mp hsuffix, ih⟩
    · rw [if_neg hc]
      exact ih

/-- The names above a domain are what stands after the dots of its name, longest first. -/
theorem dotSuffixes_parentNames (name : String) : DotSuffixes name (parentNames name) where
  mem_iff suffix := by
    unfold parentNames
    rw [List.mem_map]
    constructor
    · rintro ⟨cs, hcs, rfl⟩
      obtain ⟨front, hname⟩ := mem_suffixesAfterDots.mp hcs
      refine ⟨String.ofList front, ?_⟩
      rw [← String.ofList_toList (s := name), hname]
      simp [String.append_assoc]
    · rintro ⟨front, rfl⟩
      refine ⟨suffix.toList, mem_suffixesAfterDots.mpr ⟨front.toList, ?_⟩, ?_⟩
      · simp
      · simp
  longestFirst := by
    unfold parentNames
    rw [List.pairwise_map]
    refine (pairwise_suffixesAfterDots _).imp ?_
    rintro _ shorter ⟨front, rfl⟩
    simp only [String.length_ofList, List.length_append, List.length_cons]
    omega

example : parentNames "mail.example.com" = ["example.com", "com"] := by decide

/-- How many characters a text has in lower case does not depend on what stands before it. -/
theorem length_lowerFrom (passed other cs : List Char) :
    (Text.lowerFrom passed cs).length = (Text.lowerFrom other cs).length := by
  induction cs generalizing passed other with
  | nil => rfl
  | cons c rest ih =>
    rw [Text.lowerFrom, Text.lowerFrom, List.length_append, List.length_append,
      ih (c :: passed) (c :: other)]
    congr 1
    split
    · rfl
    · split <;> rfl

/-- What stands after a character of a text is shorter than the text also in lower case. -/
theorem length_lowerFrom_lt (sep : Char) (passed other front suffix : List Char) :
    (Text.lowerFrom other suffix).length <
      (Text.lowerFrom passed (front ++ sep :: suffix)).length := by
  induction front generalizing passed with
  | nil =>
    rw [List.nil_append, Text.lowerFrom, List.length_append,
      length_lowerFrom (sep :: passed) other]
    refine Nat.lt_add_of_pos_left (List.length_pos_iff.mpr ?_)
    split
    · exact List.cons_ne_nil _ _
    · split <;> exact List.cons_ne_nil _ _
  | cons c front ih =>
    rw [List.cons_append, Text.lowerFrom, List.length_append]
    exact Nat.lt_of_lt_of_le (ih (c :: passed)) (Nat.le_add_left _ _)

/-- No text is a spelling of what stands behind a sign in it. -/
theorem lower_ne_of_after {sep : Char} {cs suffix : List Char}
    (h : ∃ front, cs = front ++ sep :: suffix) :
    Text.lower (String.ofList cs) ≠ Text.lower (String.ofList suffix) := by
  obtain ⟨front, rfl⟩ := h
  intro heq
  have hlength := congrArg String.length heq
  unfold Text.lower at hlength
  rw [String.length_ofList, String.length_ofList, String.toList_ofList,
    String.toList_ofList] at hlength
  exact Nat.ne_of_gt (length_lowerFrom_lt sep [] [] front suffix) hlength

/-- The names above a domain differ from its own name also in lower case. -/
theorem lower_ne_of_mem_parentNames {name above : String} (h : above ∈ parentNames name) :
    Text.lower above ≠ Text.lower name := by
  obtain ⟨suffix, hsuffix, rfl⟩ := List.mem_map.mp h
  have hdiffer := lower_ne_of_after (mem_suffixesAfterDots.mp hsuffix)
  rw [String.ofList_toList] at hdiffer
  exact hdiffer.symm

/-- The names above a domain differ from each other also in lower case. -/
theorem pairwise_lower_parentNames (name : String) :
    (parentNames name).Pairwise fun near far => Text.lower near ≠ Text.lower far := by
  unfold parentNames
  rw [List.pairwise_map]
  exact (pairwise_suffixesAfterDots _).imp lower_ne_of_after

/-- What is left of a name when labels are taken off its front, one more each time. -/
def tailsOfLabels (name : String) : List String :=
  let labels := Text.splitOn '.' name.toList
  (List.range (labels.length - 1)).map fun i =>
    String.ofList (['.'].intercalate (labels.drop (i + 1)))

/-- Taking labels off the front of a name leaves what stands after its dots. -/
theorem joined_labels (cs : List Char) :
    (List.range ((Text.splitOn '.' cs).length - 1)).map
      (fun i => ['.'].intercalate ((Text.splitOn '.' cs).drop (i + 1))) =
        suffixesAfterDots cs := by
  induction cs with
  | nil => rfl
  | cons c rest ih =>
    have hne : Text.splitOn '.' rest ≠ [] := Text.splitOn_ne_nil rest
    obtain ⟨label, labels, hlabels⟩ := List.exists_cons_of_ne_nil hne
    rw [Text.splitOn, suffixesAfterDots]
    by_cases hc : c = '.'
    · have hwhole : ['.'].intercalate (label :: labels) = rest := by
        rw [← hlabels, Text.intercalate_splitOn]
      rw [if_pos hc, if_pos hc, ← ih, hlabels]
      simp only [List.length_cons, Nat.add_sub_cancel]
      rw [List.range_succ_eq_map, List.map_cons, List.map_map, List.drop_succ_cons, List.drop_zero,
        hwhole]
      rfl
    · rw [if_neg hc, if_neg hc, ← ih, hlabels]
      rfl

/-- Taking labels off the front of a name, one by one, leaves the names above it. -/
theorem tailsOfLabels_eq (name : String) : tailsOfLabels name = parentNames name := by
  unfold tailsOfLabels parentNames
  rw [← joined_labels, List.map_map]
  rfl

end DirectoryRights.Ancestry
