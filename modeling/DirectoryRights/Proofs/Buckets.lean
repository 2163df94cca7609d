import DirectoryRights.Proofs.Rereading

/-!
# Grants in three lists

A grant set can be kept in three lists, one for the grants that deny, one for those that can be
passed on and one for the rest. A grant is then put into the list of its kind, and grants are taken
out by walking through each list by position, where the grants after one that goes move up into its
place. Such lists are at every moment the kinds of the one list in order of arrival, and every
change reports the same grants in the same order.
-/

set_option autoImplicit false

namespace DirectoryRights

/-- The grants of one entry, each kind in a list of its own. -/
structure Buckets where
  /-- The grants that deny. -/
  denied : List Grant
  /-- The grants that can be passed on. -/
  delegable : List Grant
  /-- The grants for use only. -/
  forUse : List Grant

namespace Buckets

/-- Three empty lists. -/
def empty : Buckets := ⟨[], [], []⟩

/-- All grants, denials first and those for use only last. -/
def all (b : Buckets) : List Grant :=
  b.denied ++ b.delegable ++ b.forUse

/-- Walks through a list from a position on and takes out what passes a test, in the order in which
it is met. The position stays where something was taken out. -/
def sweep (p : Grant → Bool) (i : Nat) (bucket removed : List Grant) : List Grant × List Grant :=
  if h : i < bucket.length then
    if p bucket[i] then sweep p i (bucket.eraseIdx i) (removed ++ [bucket[i]])
    else sweep p (i + 1) bucket removed
  else (bucket, removed)
termination_by bucket.length - i
decreasing_by
  · rw [List.length_eraseIdx_of_lt h]
    omega
  · omega

/-- Takes the grants that pass a test out of all three lists, one list after the other. -/
def removeWhere (p : Grant → Bool) (b : Buckets) : Buckets × List Grant :=
  let (denied, removed) := sweep p 0 b.denied []
  let (delegable, removed) := sweep p 0 b.delegable removed
  let (forUse, removed) := sweep p 0 b.forUse removed
  (⟨denied, delegable, forUse⟩, removed)

/-- Puts a grant at the end of the list of its kind. -/
def push (b : Buckets) (g : Grant) : Buckets :=
  if g.denies then { b with denied := b.denied ++ [g] }
  else if g.isDelegable then { b with delegable := b.delegable ++ [g] }
  else { b with forUse := b.forUse ++ [g] }

/-- Puts a grant in place of the one of its slot, and tells whether anything has changed. -/
def insert (b : Buckets) (g : Grant) : Buckets × Bool :=
  if b.all.any (·.same g) then (b, false)
  else ((b.removeWhere (·.slot = g.slot)).1.push g, true)

/-- The lists of some grants. -/
def ofList (gs : List Grant) : Buckets :=
  gs.foldl (fun b g => (b.insert g).1) empty

/-- The lists of the grants stored on an entry as lines. -/
def parse (c : Catalog) (e : Entry) (lines : List String) : Except Error Buckets :=
  lines.foldlM (fun b line => (Grant.parse c line).map fun g => (b.insert (g.foundOn e)).1) empty

/-- Adds grants one by one and collects those that changed something. -/
def grant (b : Buckets) (gs : List Grant) : Buckets × List Grant :=
  gs.foldl
    (fun (b, granted) g =>
      let (after, changed) := b.insert g
      (after, if changed then granted ++ [g] else granted))
    (b, [])

/-- Takes grants away one by one and collects those that were there. -/
def revoke (b : Buckets) (gs : List Grant) : Buckets × List Grant :=
  gs.foldl
    (fun (b, revoked) g =>
      let (after, removed) := b.removeWhere (·.sameTerms g)
      (after, revoked ++ removed))
    (b, [])

/-! ## Walking through a list -/

/-- The walk from a position on keeps what stands before it, and parts what stands behind it into
what is kept and what is taken out. -/
theorem sweep_append (p : Grant → Bool) (front rest removed : List Grant) :
    sweep p front.length (front ++ rest) removed =
      (front ++ rest.filter (!p ·), removed ++ rest.filter p) := by
  induction rest generalizing front removed with
  | nil =>
    rw [sweep]
    simp
  | cons g rest ih =>
    have hlt : front.length < (front ++ g :: rest).length := by simp
    have hget : (front ++ g :: rest)[front.length] = g := by simp
    rw [sweep, dif_pos hlt, hget]
    by_cases hp : p g = true
    · have herase : (front ++ g :: rest).eraseIdx front.length = front ++ rest := by
        rw [List.eraseIdx_append_of_length_le (Nat.le_refl _), Nat.sub_self]
        rfl
      rw [if_pos hp, herase, ih]
      simp [hp]
    · have hnext := ih (front ++ [g]) removed
      rw [List.length_append, List.length_singleton, List.append_assoc,
        List.singleton_append] at hnext
      rw [if_neg hp, hnext]
      simp [hp]

/-- A whole walk leaves the grants that do not pass the test and finds those that do. -/
theorem sweep_eq (p : Grant → Bool) (bucket removed : List Grant) :
    sweep p 0 bucket removed = (bucket.filter (!p ·), removed ++ bucket.filter p) :=
  sweep_append p [] bucket removed

/-- What is taken out of the three lists is what passes the test, in the order of the search; the
rest stays in place. -/
theorem removeWhere_eq (p : Grant → Bool) (b : Buckets) :
    b.removeWhere p =
      (⟨b.denied.filter (!p ·), b.delegable.filter (!p ·), b.forUse.filter (!p ·)⟩,
        b.all.filter p) := by
  unfold removeWhere all
  simp only [sweep_eq, List.nil_append, List.filter_append]

end Buckets

/-! ## The kinds of a grant set -/

/-- The grants of a set by kind. -/
def GrantSet.buckets (s : GrantSet) : Buckets :=
  ⟨s.denied, s.delegable, s.forUse⟩

namespace GrantSet

/-- The kinds of grants exclude each other, and every grant is of one. -/
theorem buckets_push (gs : List Grant) (g : Grant) :
    (GrantSet.mk (gs ++ [g])).buckets = (GrantSet.mk gs).buckets.push g := by
  unfold buckets Buckets.push denied delegable forUse
  simp only [List.filter_append]
  cases hdenies : g.denies with
  | true =>
    have hdelegable : g.isDelegable = false := by
      rw [← Bool.not_eq_true]
      intro h
      rw [Grant.not_denies_of_isDelegable h] at hdenies
      cases hdenies
    simp [Grant.isForUse, hdenies, hdelegable]
  | false =>
    cases hdelegable : g.isDelegable with
    | true => simp [Grant.isForUse, hdenies, hdelegable]
    | false => simp [Grant.isForUse, hdenies, hdelegable]

/-- Taking grants out of the lists is taking them out of the set. -/
theorem buckets_filter (s : GrantSet) (p : Grant → Bool) :
    (GrantSet.mk (s.grants.filter (!p ·))).buckets = (s.buckets.removeWhere p).1 := by
  rw [Buckets.removeWhere_eq]
  unfold buckets denied delegable forUse
  rw [List.filter_comm, List.filter_comm Grant.isDelegable, List.filter_comm Grant.isForUse]

/-- Whether a set holds a grant can be asked in the order of the search. -/
theorem holds_eq_any_all (s : GrantSet) (g : Grant) : s.holds g = s.all.any (·.same g) := by
  unfold holds all
  rw [Bool.eq_iff_iff, List.any_eq_true, List.any_eq_true]
  simp only [Grant.mem_ranked]

/-- Adding a grant to the lists is adding it to the set, and it is reported where the set did not
hold it. -/
theorem buckets_insert (s : GrantSet) (g : Grant) :
    s.buckets.insert g = ((s.insert g).buckets, !s.holds g) := by
  have hheld : s.buckets.all.any (·.same g) = s.holds g := (s.holds_eq_any_all g).symm
  unfold Buckets.insert GrantSet.insert
  rw [hheld]
  cases s.holds g with
  | true => rfl
  | false =>
    have hrest := s.buckets_filter fun other => decide (other.slot = g.slot)
    simp only [Bool.false_eq_true, if_false, ← hrest, ← buckets_push]
    simp

/-- Adding several grants to the lists, one after the other, is adding them to the set. -/
theorem buckets_foldl_insert (gs : List Grant) (s : GrantSet) :
    gs.foldl (fun b g => (b.insert g).1) s.buckets = (gs.foldl insert s).buckets := by
  induction gs generalizing s with
  | nil => rfl
  | cons g rest ih =>
    rw [List.foldl_cons, List.foldl_cons, buckets_insert]
    exact ih (s.insert g)

/-- The lists made of some grants are those of the set made of them. -/
theorem buckets_ofList (gs : List Grant) : Buckets.ofList gs = (ofList gs).buckets :=
  buckets_foldl_insert gs empty

/-- Lines are read in one go or one after the other. -/
theorem buckets_parse (c : Catalog) (e : Entry) (lines : List String) :
    Buckets.parse c e lines = (parse c e lines).map buckets := by
  have hfold : ∀ s : GrantSet,
      lines.foldlM (fun b line => (Grant.parse c line).map fun g => (b.insert (g.foundOn e)).1)
          s.buckets =
        (lines.mapM (Grant.parse c)).map fun gs =>
          ((gs.map (Grant.foundOn e)).foldl insert s).buckets := by
    induction lines with
    | nil => exact fun s => rfl
    | cons line rest ih =>
      intro s
      rw [List.foldlM_cons, mapM_parse_cons]
      cases Grant.parse c line with
      | error cause => rfl
      | ok g =>
        have hnext : (s.buckets.insert (g.foundOn e)).1 = (s.insert (g.foundOn e)).buckets := by
          rw [buckets_insert]
        have hrest := ih (s.insert (g.foundOn e))
        rw [← hnext] at hrest
        refine Eq.trans hrest ?_
        cases rest.mapM (Grant.parse c) <;> rfl
  unfold Buckets.parse
  rw [show Buckets.empty = empty.buckets from rfl, hfold]
  unfold parse
  cases lines.mapM (Grant.parse c) <;> rfl

/-- The lists and the set grant the same and report the same changes. -/
theorem buckets_grant (s : GrantSet) (gs : List Grant) :
    s.buckets.grant gs = ((s.grant gs).1.buckets, (s.grant gs).2) := by
  have hfold : ∀ (s : GrantSet) (before : List Grant),
      gs.foldl
          (fun (b, granted) g =>
            let (after, changed) := Buckets.insert b g
            (after, if changed then granted ++ [g] else granted))
          (s.buckets, before) =
        ((s.grant gs).1.buckets, before ++ (s.grant gs).2) := by
    induction gs with
    | nil =>
      intro s before
      simp [GrantSet.grant]
    | cons g rest ih =>
      intro s before
      rw [List.foldl_cons]
      simp only [buckets_insert, ih, GrantSet.grant]
      cases s.holds g with
      | true => simp
      | false => simp
  exact hfold s []

/-- The lists and the set revoke the same and report the same changes. -/
theorem buckets_revoke (s : GrantSet) (gs : List Grant) :
    s.buckets.revoke gs = ((s.revoke gs).1.buckets, (s.revoke gs).2) := by
  have hfold : ∀ (s : GrantSet) (before : List Grant),
      gs.foldl
          (fun (b, revoked) g =>
            let (after, removed) := Buckets.removeWhere (·.sameTerms g) b
            (after, revoked ++ removed))
          (s.buckets, before) =
        ((s.revoke gs).1.buckets, before ++ (s.revoke gs).2) := by
    induction gs with
    | nil =>
      intro s before
      simp [GrantSet.revoke]
    | cons g rest ih =>
      intro s before
      have hremoved : (s.buckets.removeWhere (·.sameTerms g)).2 = s.all.filter (·.sameTerms g) := by
        rw [Buckets.removeWhere_eq]
        rfl
      rw [List.foldl_cons]
      simp only [← buckets_filter, hremoved, ih, GrantSet.revoke, List.append_assoc]
  exact hfold s []

end GrantSet

end DirectoryRights
