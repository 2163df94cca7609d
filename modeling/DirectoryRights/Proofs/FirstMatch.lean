import DirectoryRights.Inquiry

/-!
# The first match of a level

The candidates of a level are asked one after the other. The search ends with a grant exactly where
this grant matches and none before it does, and it ends without one exactly where none matches. In
the order of the search the denials come first, so a grant that is found although it does not deny
shows that no denial of its tier matches.
-/

set_option autoImplicit false

namespace DirectoryRights

namespace Grant

/-- The order of the search has the grants of the list and no others. -/
theorem mem_ranked {g : Grant} {gs : List Grant} : g ∈ ranked gs ↔ g ∈ gs := by
  unfold ranked isForUse
  simp only [List.mem_append, List.mem_filter, Bool.and_eq_true, Bool.not_eq_true']
  constructor
  · rintro ((h | h) | h)
    · exact h.1
    · exact h.1
    · exact h.1
  · intro h
    cases hdeny : g.denies with
    | true => exact .inl (.inl ⟨h, rfl⟩)
    | false =>
      cases hpass : g.isDelegable with
      | true => exact .inl (.inr ⟨h, rfl⟩)
      | false => exact .inr ⟨h, rfl, rfl⟩

/-- Every denial stands before every other grant. -/
def DenialsFirst (gs : List Grant) : Prop :=
  gs.Pairwise fun g h => h.denies = true → g.denies = true

/-- A grant that may be passed on does not deny. -/
theorem not_denies_of_isDelegable {g : Grant} (h : g.isDelegable = true) : g.denies = false := by
  unfold isDelegable at h
  unfold denies
  rw [of_decide_eq_true h]
  rfl

/-- A grant for use does not deny. -/
theorem not_denies_of_isForUse {g : Grant} (h : g.isForUse = true) : g.denies = false := by
  unfold isForUse at h
  rw [Bool.and_eq_true, Bool.not_eq_true', Bool.not_eq_true'] at h
  exact h.2

/-- In the order of the search the denials come first. -/
theorem denialsFirst_ranked (gs : List Grant) : DenialsFirst (ranked gs) := by
  have hpositive : ∀ g ∈ gs.filter isDelegable ++ gs.filter isForUse, g.denies = false := by
    intro g hg
    rcases List.mem_append.mp hg with h | h
    · exact not_denies_of_isDelegable (List.mem_filter.mp h).2
    · exact not_denies_of_isForUse (List.mem_filter.mp h).2
  have hdenials : ∀ g ∈ gs.filter denies, g.denies = true := fun g hg => (List.mem_filter.mp hg).2
  unfold DenialsFirst ranked
  rw [List.append_assoc, List.pairwise_append]
  refine ⟨?_, ?_, fun g hg _ _ _ => hdenials g hg⟩
  · exact List.pairwise_of_forall_mem_list fun g hg _ _ _ => hdenials g hg
  · refine List.pairwise_of_forall_mem_list fun _ _ h hh hdeny => ?_
    rw [hpositive h hh] at hdeny
    cases hdeny

/-- The denials still come first among the grants that pass a test. -/
theorem DenialsFirst.filter {gs : List Grant} (h : DenialsFirst gs) (p : Grant → Bool) :
    DenialsFirst (gs.filter p) :=
  List.Pairwise.filter p h

end Grant

namespace Inquiry

variable (q : Inquiry)

/-- Whether a candidate matches the principal in its tier. -/
def matching (c : Tier × Grant) : Except Error Bool :=
  Matching.inTier q.view q.principal q.isAdminRight c.1 c.2

/-- The search of candidates looks at the first one and goes on with the rest if it does not
match. -/
theorem firstMatch_cons (c : Tier × Grant) (rest : List (Tier × Grant)) :
    q.firstMatch (c :: rest) =
      match q.matching c with
      | .error e => .error e
      | .ok true => .ok (some c.2)
      | .ok false => q.firstMatch rest := by
  rw [firstMatch]
  rfl

/-- The search ends without a match exactly if each candidate was looked at and none matches. -/
theorem firstMatch_eq_none {cs : List (Tier × Grant)} :
    q.firstMatch cs = .ok none ↔ ∀ c ∈ cs, q.matching c = .ok false := by
  induction cs with
  | nil => simp [firstMatch]
  | cons c rest ih =>
    rw [firstMatch_cons, List.forall_mem_cons, ← ih]
    rcases q.matching c with e | _ | _ <;> simp

/-- The search ends with a grant exactly if it matches and all candidates before it do not. -/
theorem firstMatch_eq_some {cs : List (Tier × Grant)} {g : Grant} :
    q.firstMatch cs = .ok (some g) ↔
      ∃ before tier after, cs = before ++ (tier, g) :: after ∧
        (∀ c ∈ before, q.matching c = .ok false) ∧ q.matching (tier, g) = .ok true := by
  induction cs with
  | nil => simp [firstMatch]
  | cons c rest ih =>
    rw [firstMatch_cons]
    constructor
    · intro h
      cases hc : q.matching c with
      | error e =>
        rw [hc] at h
        cases h
      | ok matched =>
        rw [hc] at h
        cases matched with
        | true =>
          obtain rfl : c.2 = g := Option.some.inj (Except.ok.inj h)
          exact ⟨[], c.1, rest, rfl, by simp, hc⟩
        | false =>
          obtain ⟨before, tier, after, rfl, hbefore, hmatch⟩ := ih.mp h
          refine ⟨c :: before, tier, after, rfl, ?_, hmatch⟩
          exact List.forall_mem_cons.mpr ⟨hc, hbefore⟩
    · rintro ⟨before, tier, after, hsplit, hbefore, hmatch⟩
      cases before with
      | nil =>
        obtain ⟨rfl, rfl⟩ := List.cons.inj hsplit
        rw [hmatch]
      | cons first before =>
        obtain ⟨rfl, rfl⟩ := List.cons.inj hsplit
        rw [hbefore c List.mem_cons_self]
        exact ih.mpr ⟨before, tier, after, rfl,
          fun c hc => hbefore c (List.mem_cons_of_mem _ hc), hmatch⟩

/-- The candidates at the end are only asked where none before them matches. -/
theorem firstMatch_append (before after : List (Tier × Grant)) :
    q.firstMatch (before ++ after) =
      match q.firstMatch before with
      | .ok none => q.firstMatch after
      | settled => settled := by
  induction before with
  | nil => rfl
  | cons c rest ih =>
    rw [List.cons_append, firstMatch_cons, firstMatch_cons]
    rcases q.matching c with e | _ | _
    · rfl
    · exact ih
    · rfl

/-- A candidate is a grant of the level about the right, with a tier that is searched and admits
it. -/
theorem mem_candidates {below : Bool} {gs : List Grant} {tier : Tier} {g : Grant} :
    (tier, g) ∈ q.candidates below gs ↔
      tier ∈ Tier.all q.right.isUserRight ∧ g ∈ gs ∧ tier.admits g.granteeType = true ∧
        q.concerns below g = true := by
  unfold candidates
  simp only [List.mem_flatMap, List.mem_map, List.mem_filter, Bool.and_eq_true, Prod.mk.injEq]
  constructor
  · rintro ⟨_, htier, _, ⟨hg, hadmits, hconcerns⟩, rfl, rfl⟩
    exact ⟨htier, hg, hadmits, hconcerns⟩
  · rintro ⟨htier, hg, hadmits, hconcerns⟩
    exact ⟨tier, htier, g, ⟨hg, hadmits, hconcerns⟩, rfl, rfl⟩

end Inquiry

end DirectoryRights
