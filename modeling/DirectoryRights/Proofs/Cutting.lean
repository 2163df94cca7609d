import DirectoryRights.Text.Split

/-!
# Texts around a character

Cutting at the last occurrence of a character finds the one way to write a text as two pieces around
it such that the second piece is free of it. Splitting at every occurrence gives pieces that are all
free of it, and takes apart what was put together from such pieces. The pieces joined by the
character are the text again, and empty pieces at the end stand for as many characters there.
-/

set_option autoImplicit false

namespace DirectoryRights.Text

variable {sep : Char}

/-- A text cannot be cut at a sign that is not in it. -/
theorem cutFirst?_eq_none {cs : List Char} : cutFirst? sep cs = none ↔ sep ∉ cs := by
  induction cs with
  | nil => simp [cutFirst?]
  | cons c rest ih =>
    rw [cutFirst?, List.mem_cons, not_or, ← ih]
    by_cases hc : c = sep
    · simp [hc]
    · simp [hc, Ne.symm hc]

/-- The same for the cut at the last such sign. -/
theorem cutLast?_eq_none {cs : List Char} : cutLast? sep cs = none ↔ sep ∉ cs := by
  induction cs with
  | nil => simp [cutLast?]
  | cons c rest ih =>
    rw [cutLast?, List.mem_cons, not_or, ← ih]
    cases hrest : cutLast? sep rest with
    | some cut => simp
    | none =>
      by_cases hc : c = sep
      · simp [hc]
      · simp [hc, Ne.symm hc]

/-- The last occurrence of a character splits a text into two pieces around it, the second of which
does not have it. -/
theorem cutLast?_eq_some {cs before after : List Char} :
    cutLast? sep cs = some (before, after) ↔ cs = before ++ sep :: after ∧ sep ∉ after := by
  induction cs generalizing before with
  | nil => simp [cutLast?]
  | cons c rest ih =>
    rw [cutLast?]
    constructor
    · intro h
      cases hrest : cutLast? sep rest with
      | some cut =>
        obtain ⟨front, back⟩ := cut
        rw [hrest] at h
        obtain ⟨rfl, rfl⟩ := Prod.mk.inj (Option.some.inj h)
        obtain ⟨rfl, hback⟩ := ih.mp hrest
        exact ⟨rfl, hback⟩
      | none =>
        rw [hrest] at h
        by_cases hc : c = sep
        · rw [if_pos hc] at h
          obtain ⟨rfl, rfl⟩ := Prod.mk.inj (Option.some.inj h)
          exact ⟨by rw [hc]; rfl, cutLast?_eq_none.mp hrest⟩
        · rw [if_neg hc] at h
          cases h
    · rintro ⟨hcs, hafter⟩
      cases before with
      | nil =>
        obtain ⟨rfl, rfl⟩ := List.cons.inj hcs
        rw [cutLast?_eq_none.mpr hafter, if_pos rfl]
      | cons first front =>
        obtain ⟨rfl, hrest⟩ := List.cons.inj hcs
        rw [ih.mpr ⟨hrest, hafter⟩]

/-- The first occurrence of a character splits a text into two pieces around it, the first of which
does not have it. -/
theorem cutFirst?_eq_some {cs before after : List Char} :
    cutFirst? sep cs = some (before, after) ↔ cs = before ++ sep :: after ∧ sep ∉ before := by
  induction cs generalizing before with
  | nil => simp [cutFirst?]
  | cons c rest ih =>
    rw [cutFirst?]
    by_cases hc : c = sep
    · rw [if_pos hc, hc]
      constructor
      · intro h
        obtain ⟨rfl, rfl⟩ := Prod.mk.inj (Option.some.inj h)
        exact ⟨rfl, List.not_mem_nil⟩
      · rintro ⟨hcs, hbefore⟩
        cases before with
        | nil => rw [(List.cons.inj hcs).2]
        | cons first front => exact absurd ((List.cons.inj hcs).1 ▸ List.mem_cons_self) hbefore
    · rw [if_neg hc, Option.map_eq_some_iff]
      constructor
      · rintro ⟨⟨front, back⟩, hrest, hcut⟩
        obtain ⟨rfl, rfl⟩ := Prod.mk.inj hcut
        obtain ⟨rfl, hfront⟩ := ih.mp hrest
        exact ⟨rfl, List.not_mem_cons_of_ne_of_not_mem (Ne.symm hc) hfront⟩
      · rintro ⟨hcs, hbefore⟩
        cases before with
        | nil => exact absurd (List.cons.inj hcs).1 hc
        | cons first front =>
          obtain ⟨rfl, hrest⟩ := List.cons.inj hcs
          exact ⟨(front, after), ih.mpr ⟨hrest, List.not_mem_of_not_mem_cons hbefore⟩, rfl⟩

/-- A text without the character is a single piece. -/
theorem splitOn_of_not_mem {cs : List Char} (h : sep ∉ cs) : splitOn sep cs = [cs] := by
  induction cs with
  | nil => rfl
  | cons c rest ih =>
    rw [List.mem_cons, not_or] at h
    rw [splitOn, if_neg (Ne.symm h.1), ih h.2]

/-- The piece before the first occurrence of the character comes first. -/
theorem splitOn_append {front : List Char} (h : sep ∉ front) (rest : List Char) :
    splitOn sep (front ++ sep :: rest) = front :: splitOn sep rest := by
  induction front with
  | nil => rw [List.nil_append, splitOn, if_pos rfl]
  | cons c front ih =>
    rw [List.mem_cons, not_or] at h
    rw [List.cons_append, splitOn, if_neg (Ne.symm h.1), ih h.2]

/-- No piece has the character in it. -/
theorem not_mem_of_mem_splitOn {cs part : List Char} (h : part ∈ splitOn sep cs) : sep ∉ part := by
  induction cs generalizing part with
  | nil =>
    rw [splitOn, List.mem_singleton] at h
    rw [h]
    exact List.not_mem_nil
  | cons c rest ih =>
    rw [splitOn] at h
    by_cases hc : c = sep
    · rw [if_pos hc] at h
      rcases List.mem_cons.mp h with rfl | hrest
      · exact List.not_mem_nil
      · exact ih hrest
    · rw [if_neg hc] at h
      cases hparts : splitOn sep rest with
      | nil =>
        rw [hparts, List.mem_singleton] at h
        rw [h, List.mem_singleton]
        exact Ne.symm hc
      | cons first parts =>
        rw [hparts] at h ih
        rcases List.mem_cons.mp h with rfl | hrest
        · rw [List.mem_cons, not_or]
          exact ⟨Ne.symm hc, ih List.mem_cons_self⟩
        · exact ih (List.mem_cons_of_mem _ hrest)

/-- A text has at least one piece. -/
theorem splitOn_ne_nil (cs : List Char) : splitOn sep cs ≠ [] := by
  cases cs with
  | nil => exact List.cons_ne_nil _ _
  | cons c rest =>
    rw [splitOn]
    by_cases hc : c = sep
    · rw [if_pos hc]
      exact List.cons_ne_nil _ _
    · rw [if_neg hc]
      cases splitOn sep rest <;> exact List.cons_ne_nil _ _

/-- The pieces joined again are the text. -/
theorem intercalate_splitOn (cs : List Char) : [sep].intercalate (splitOn sep cs) = cs := by
  induction cs with
  | nil => rfl
  | cons c rest ih =>
    have hne : splitOn sep rest ≠ [] := splitOn_ne_nil rest
    obtain ⟨part, parts, hparts⟩ := List.exists_cons_of_ne_nil hne
    rw [hparts] at ih
    rw [splitOn, hparts]
    by_cases hc : c = sep
    · rw [if_pos hc, List.intercalate_cons_cons, ih, hc]
      rfl
    · rw [if_neg hc, ← ih]
      cases parts with
      | nil => simp
      | cons next parts => simp [List.intercalate_cons_cons]

/-- Empty pieces at the end add the character as many times. -/
theorem intercalate_append_replicate {parts : List (List Char)} (hparts : parts ≠ []) (n : Nat) :
    [sep].intercalate (parts ++ List.replicate n []) =
      [sep].intercalate parts ++ List.replicate n sep := by
  induction n generalizing parts with
  | zero => simp
  | succ n ih =>
    have hone : [sep].intercalate (parts ++ [[]]) = [sep].intercalate parts ++ [sep] := by
      induction parts with
      | nil => exact absurd rfl hparts
      | cons part rest ih =>
        cases rest with
        | nil => simp [List.intercalate_cons_cons]
        | cons next rest =>
          have hrest := ih (List.cons_ne_nil _ _)
          simp only [List.cons_append] at hrest ⊢
          rw [List.intercalate_cons_cons, hrest, List.intercalate_cons_cons]
          simp
    rw [List.replicate_succ, List.append_cons, ih (by simp), hone, List.replicate_succ]
    simp

end DirectoryRights.Text
