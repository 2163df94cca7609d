import Mathlib.Logic.Function.Basic
import DirectoryRights.Proofs.Buckets

/-!
# A grant set as a map from slots

A grant set says for each slot which modifier and which secret its grant has, if it has one. Seen
this way a new grant overrides what its slot had, and a revocation deletes a slot whose modifier is
the given one, whatever the secret. What a change reports can be told from the map: the grants that
said something new, and the grants that are gone. Slots that a change does not mention keep their
grants, each in the list of its kind and in their order.
-/

set_option autoImplicit false

namespace DirectoryRights

/-- What a slot has: the modifier and the secret of its grant. -/
abbrev Terms := Option Modifier × Option String

/-- What each slot has, if it has a grant. -/
abbrev SlotMap := Slot → Option Terms

/-- One operation on a grant set. -/
inductive GrantSet.Operation where
  /-- The set is built anew from grants. -/
  | build (gs : List Grant)
  /-- The set is read from the lines stored on an entry; lines that cannot be read leave it. -/
  | parse (c : Catalog) (e : Entry) (lines : List String)
  /-- Grants are added. -/
  | grant (gs : List Grant)
  /-- Grants are taken away. -/
  | revoke (gs : List Grant)

/-- What a grant puts into its slot. -/
def Grant.terms (g : Grant) : Terms :=
  (g.modifier, g.secret)

namespace SlotMap

/-- No slot has a grant. -/
def empty : SlotMap := fun _ => none

/-- A grant overrides what its slot had. -/
def put (m : SlotMap) (g : Grant) : SlotMap :=
  Function.update m g.slot (some g.terms)

/-- A slot is emptied if its modifier is that of the grant. -/
def drop (m : SlotMap) (g : Grant) : SlotMap :=
  if (m g.slot).map Prod.fst = some g.modifier then Function.update m g.slot none else m

/-- The grants whose slot has another modifier or another secret at the moment, or no grant. -/
def news (m : SlotMap) : List Grant → List Grant
  | [] => []
  | g :: rest =>
    if m g.slot = some g.terms then (m.put g).news rest else g :: (m.put g).news rest

/-- The map after an operation. -/
def perform (m : SlotMap) : GrantSet.Operation → SlotMap
  | .build gs => gs.foldl put empty
  | .parse c _ lines =>
    match lines.mapM (Grant.parse c) with
    | .ok gs => gs.foldl put empty
    | .error _ => m
  | .grant gs => gs.foldl put m
  | .revoke gs => gs.foldl drop m

/-- The map after a sequence of operations. -/
def after (ops : List GrantSet.Operation) : SlotMap :=
  ops.foldl perform empty

end SlotMap

namespace Buckets

/-- The three lists after an operation. -/
def perform (b : Buckets) : GrantSet.Operation → Buckets
  | .build gs => ofList gs
  | .parse c e lines =>
    match parse c e lines with
    | .ok read => read
    | .error _ => b
  | .grant gs => (b.grant gs).1
  | .revoke gs => (b.revoke gs).1

/-- The three lists after a sequence of operations. -/
def after (ops : List GrantSet.Operation) : Buckets :=
  ops.foldl perform empty

/-- The grants of the slots that a change does not mention. -/
def besides (b : Buckets) (gs : List Grant) : Buckets :=
  let others := fun g : Grant => decide (g.slot ∉ gs.map Grant.slot)
  ⟨b.denied.filter others, b.delegable.filter others, b.forUse.filter others⟩

/-- The three lists hold one grant for each slot of a map, in the list of its kind. -/
structure Represents (b : Buckets) (m : SlotMap) : Prop where
  /-- No slot occurs twice. -/
  distinct : (b.all.map Grant.slot).Nodup
  /-- The grants are those of the map. -/
  terms : ∀ slot t, m slot = some t ↔ ∃ g ∈ b.all, g.slot = slot ∧ g.terms = t
  /-- The first list holds exactly the denials. -/
  denied : ∀ g ∈ b.all, g ∈ b.denied ↔ g.modifier = some .deny
  /-- The second list holds exactly the grants that can be passed on. -/
  delegable : ∀ g ∈ b.all, g ∈ b.delegable ↔ g.modifier = some .delegate
  /-- The third list holds exactly the others. -/
  forUse : ∀ g ∈ b.all, g ∈ b.forUse ↔ g.modifier ≠ some .deny ∧ g.modifier ≠ some .delegate

end Buckets

namespace GrantSet

/-- The set after an operation. -/
def perform (s : GrantSet) : Operation → GrantSet
  | .build gs => ofList gs
  | .parse c e lines =>
    match parse c e lines with
    | .ok read => read
    | .error _ => s
  | .grant gs => (s.grant gs).1
  | .revoke gs => (s.revoke gs).1

/-- The set after a sequence of operations. -/
def after (ops : List Operation) : GrantSet :=
  ops.foldl perform empty

/-- What a change of a set that stands for a map reports and leaves alone. -/
structure Changes (s : GrantSet) (m : SlotMap) (gs : List Grant) : Prop where
  /-- Adding reports the grants that say something new, in order. -/
  granted : (s.grant gs).2 = m.news gs
  /-- Taking away reports the grants that are gone, each once. -/
  revoked : s.all.Perm ((s.revoke gs).1.all ++ (s.revoke gs).2)
  /-- Adding leaves the other slots as they are. -/
  besidesGranted : (s.grant gs).1.buckets.besides gs = s.buckets.besides gs
  /-- Taking away leaves the other slots as they are. -/
  besidesRevoked : (s.revoke gs).1.buckets.besides gs = s.buckets.besides gs
  /-- The three lists report what the set reports when grants are added. -/
  bucketsGranted : s.buckets.grant gs = ((s.grant gs).1.buckets, (s.grant gs).2)
  /-- The three lists report what the set reports when grants are taken away. -/
  bucketsRevoked : s.buckets.revoke gs = ((s.revoke gs).1.buckets, (s.revoke gs).2)

/-! ## The map of a set -/

/-- The set holds one grant for each slot of a map and no other. -/
structure StandsFor (s : GrantSet) (m : SlotMap) : Prop where
  /-- No slot occurs twice. -/
  distinct : s.Distinct
  /-- The grants are those of the map. -/
  terms : ∀ slot t, m slot = some t ↔ ∃ g ∈ s.grants, g.slot = slot ∧ g.terms = t

variable {s : GrantSet} {m : SlotMap}

/-- The set without grants stands for the map in which no slot has one. -/
theorem standsFor_empty : empty.StandsFor .empty := by
  refine ⟨distinct_empty, fun slot t => ?_⟩
  constructor
  · intro h
    cases h
  · rintro ⟨g, hg, -⟩
    cases hg

/-- Two grants of one slot in the set are the same grant. -/
theorem Distinct.eq_of_slot (h : s.Distinct) {g g' : Grant} (hg : g ∈ s.grants)
    (hg' : g' ∈ s.grants) (hslot : g.slot = g'.slot) : g = g' :=
  List.inj_on_of_nodup_map h hg hg' hslot

/-- A set holds a grant that says the same where the map has its terms. -/
theorem StandsFor.holds_iff (h : s.StandsFor m) (g : Grant) :
    s.holds g = true ↔ m g.slot = some g.terms := by
  rw [h.terms]
  unfold holds Grant.same Grant.sameTerms Grant.terms
  simp [and_assoc]

/-- Adding a grant to the set puts it into the map. -/
theorem StandsFor.insert (h : s.StandsFor m) (g : Grant) : (s.insert g).StandsFor (m.put g) := by
  refine ⟨h.distinct.insert g, fun slot t => ?_⟩
  unfold SlotMap.put GrantSet.insert
  by_cases hheld : s.holds g = true
  · have hsame : Function.update m g.slot (some g.terms) = m := by
      rw [← (h.holds_iff g).mp hheld, Function.update_eq_self]
    rw [hsame, if_pos hheld]
    exact h.terms slot t
  · rw [if_neg hheld]
    by_cases hslot : slot = g.slot
    · subst hslot
      rw [Function.update_self]
      constructor
      · rintro ⟨⟩
        exact ⟨g, List.mem_append_right _ (List.mem_singleton_self g), rfl, rfl⟩
      · rintro ⟨other, hother, hsame, rfl⟩
        rcases List.mem_append.mp hother with hold | hnew
        · exact absurd hsame (of_decide_eq_true (List.mem_filter.mp hold).2)
        · rw [List.mem_singleton.mp hnew]
    · have hrest := h.terms slot t
      rw [Function.update_of_ne hslot, hrest]
      constructor
      · rintro ⟨other, hother, rfl, rfl⟩
        refine ⟨other, List.mem_append_left _ (List.mem_filter.mpr ⟨hother, ?_⟩), rfl, rfl⟩
        exact decide_eq_true hslot
      · rintro ⟨other, hother, rfl, rfl⟩
        rcases List.mem_append.mp hother with hold | hnew
        · exact ⟨other, (List.mem_filter.mp hold).1, rfl, rfl⟩
        · rw [List.mem_singleton.mp hnew] at hslot
          exact absurd rfl hslot

/-- The same for several grants, one after the other. -/
theorem StandsFor.foldl_insert (h : s.StandsFor m) (gs : List Grant) :
    (gs.foldl GrantSet.insert s).StandsFor (gs.foldl SlotMap.put m) := by
  induction gs generalizing s m with
  | nil => exact h
  | cons g rest ih => exact ih (h.insert g)

/-- Taking a grant out of the set empties its slot, where this has the same modifier. -/
theorem StandsFor.drop (h : s.StandsFor m) (g : Grant) :
    (GrantSet.mk (s.grants.filter (!·.sameTerms g))).StandsFor (m.drop g) := by
  have hkept : ∀ other : Grant, (!other.sameTerms g) = true ↔
      ¬ (other.slot = g.slot ∧ other.modifier = g.modifier) := by
    intro other
    simp [Grant.sameTerms, imp_iff_not_or]
  refine ⟨h.distinct.sublist (List.filter_sublist.map _), fun slot t => ?_⟩
  simp only [List.mem_filter, hkept]
  unfold SlotMap.drop
  by_cases hheld : (m g.slot).map Prod.fst = some g.modifier
  · rw [if_pos hheld]
    obtain ⟨t', ht', hmodifier⟩ := Option.map_eq_some_iff.mp hheld
    obtain ⟨stored, hstored, hslot', rfl⟩ := (h.terms g.slot t').mp ht'
    by_cases hslot : slot = g.slot
    · subst hslot
      rw [Function.update_self]
      constructor
      · intro hnone
        cases hnone
      · rintro ⟨other, ⟨hother, hdifferent⟩, hsame, rfl⟩
        -- The only grant of the slot is the one that goes.
        obtain rfl := h.distinct.eq_of_slot hother hstored (hsame.trans hslot'.symm)
        exact absurd ⟨hsame, hmodifier⟩ hdifferent
    · rw [Function.update_of_ne hslot, h.terms]
      constructor
      · rintro ⟨other, hother, rfl, rfl⟩
        exact ⟨other, ⟨hother, fun hsame => hslot hsame.1⟩, rfl, rfl⟩
      · rintro ⟨other, ⟨hother, -⟩, hrest⟩
        exact ⟨other, hother, hrest⟩
  · rw [if_neg hheld, h.terms]
    constructor
    · rintro ⟨other, hother, rfl, rfl⟩
      refine ⟨other, ⟨hother, ?_⟩, rfl, rfl⟩
      rintro ⟨hslot, hmodifier⟩
      apply hheld
      rw [(h.terms g.slot other.terms).mpr ⟨other, hother, hslot, rfl⟩]
      exact congrArg some hmodifier
    · rintro ⟨other, ⟨hother, -⟩, hrest⟩
      exact ⟨other, hother, hrest⟩

/-- Revoking grants empties their slots one after the other. -/
theorem StandsFor.revoke (h : s.StandsFor m) (gs : List Grant) :
    (s.revoke gs).1.StandsFor (gs.foldl SlotMap.drop m) := by
  induction gs generalizing s m with
  | nil => exact h
  | cons g rest ih => exact ih (h.drop g)

/-- Granting puts the grants into their slots one after the other. -/
theorem StandsFor.grant (h : s.StandsFor m) (gs : List Grant) :
    (s.grant gs).1.StandsFor (gs.foldl SlotMap.put m) := by
  rw [grant_fst]
  exact h.foldl_insert gs

/-- Where a grant was found is not in the map. -/
theorem foldl_put_foundOn (e : Entry) (gs : List Grant) (m : SlotMap) :
    (gs.map (Grant.foundOn e)).foldl SlotMap.put m = gs.foldl SlotMap.put m := by
  rw [List.foldl_map]
  rfl

/-- An operation does to the set what it does to the map. -/
theorem StandsFor.perform (h : s.StandsFor m) (op : Operation) :
    (s.perform op).StandsFor (m.perform op) := by
  cases op with
  | build gs => exact standsFor_empty.foldl_insert gs
  | parse c e lines =>
    simp only [GrantSet.perform, SlotMap.perform, GrantSet.parse]
    cases lines.mapM (Grant.parse c) with
    | error cause => exact h
    | ok gs =>
      have hbuilt := standsFor_empty.foldl_insert (gs.map (Grant.foundOn e))
      rw [foldl_put_foundOn] at hbuilt
      exact hbuilt
  | grant gs => exact h.grant gs
  | revoke gs => exact h.revoke gs

/-- After every sequence of operations the set stands for the map. -/
theorem standsFor_after (ops : List Operation) : (after ops).StandsFor (.after ops) := by
  have hrun : ∀ (s : GrantSet) (m : SlotMap), s.StandsFor m →
      (ops.foldl GrantSet.perform s).StandsFor (ops.foldl SlotMap.perform m) := by
    induction ops with
    | nil => exact fun s m h => h
    | cons op rest ih => exact fun s m h => ih _ _ (h.perform op)
  exact hrun _ _ standsFor_empty

/-! ## The lists of a set -/

/-- A set that stands for a map keeps it in its three lists. -/
theorem StandsFor.represents (h : s.StandsFor m) : s.buckets.Represents m := by
  have hmem : ∀ g, g ∈ s.buckets.all ↔ g ∈ s.grants := fun g => Grant.mem_ranked
  refine ⟨?_, ?_, ?_, ?_, ?_⟩
  · exact ((Grant.ranked_perm s.grants).map Grant.slot).nodup_iff.mpr h.distinct
  · intro slot t
    simp only [hmem]
    exact h.terms slot t
  · intro g hg
    simp [buckets, denied, (hmem g).mp hg, Grant.denies]
  · intro g hg
    simp [buckets, delegable, (hmem g).mp hg, Grant.isDelegable]
  · intro g hg
    simp [buckets, forUse, (hmem g).mp hg, Grant.isForUse, Grant.isDelegable, Grant.denies,
      and_comm]

/-- An operation does to the three lists what it does to the set. -/
theorem buckets_perform (s : GrantSet) (op : Operation) :
    s.buckets.perform op = (s.perform op).buckets := by
  cases op with
  | build gs => exact buckets_ofList gs
  | parse c e lines =>
    simp only [Buckets.perform, GrantSet.perform, buckets_parse]
    cases parse c e lines <;> rfl
  | grant gs =>
    show (s.buckets.grant gs).1 = _
    rw [buckets_grant]
    rfl
  | revoke gs =>
    show (s.buckets.revoke gs).1 = _
    rw [buckets_revoke]
    rfl

/-- The three lists go through the same operations as the set. -/
theorem buckets_after (ops : List Operation) : (after ops).buckets = Buckets.after ops := by
  have hrun : ∀ s : GrantSet,
      ops.foldl Buckets.perform s.buckets = (ops.foldl GrantSet.perform s).buckets := by
    induction ops with
    | nil => exact fun s => rfl
    | cons op rest ih =>
      intro s
      rw [List.foldl_cons, List.foldl_cons, buckets_perform]
      exact ih (s.perform op)
  exact (hrun empty).symm

/-! ## What changes report -/

/-- Granting reports those grants that are news to the map. -/
theorem StandsFor.granted (h : s.StandsFor m) (gs : List Grant) :
    (s.grant gs).2 = m.news gs := by
  induction gs generalizing s m with
  | nil => rfl
  | cons g rest ih =>
    have hrest := ih (h.insert g)
    have hheld := h.holds_iff g
    unfold GrantSet.grant SlotMap.news
    simp only [hrest]
    by_cases hsame : m g.slot = some g.terms
    · rw [if_pos hsame, if_pos (hheld.mpr hsame)]
    · rw [if_neg hsame, if_neg fun hholds => hsame (hheld.mp hholds)]

/-- The order of the search has the grants of the set, each once. -/
theorem all_perm (s : GrantSet) : s.all.Perm s.grants :=
  Grant.ranked_perm s.grants

/-- What is reported and what is left make up what was there. -/
theorem revoked_perm (s : GrantSet) (gs : List Grant) :
    s.all.Perm ((s.revoke gs).1.all ++ (s.revoke gs).2) := by
  induction gs generalizing s with
  | nil =>
    show s.all.Perm (s.all ++ [])
    rw [List.append_nil]
  | cons g rest ih =>
    let left : GrantSet := ⟨s.grants.filter (!·.sameTerms g)⟩
    let gone := s.all.filter (·.sameTerms g)
    have hsplit : s.all.Perm (gone ++ left.all) := by
      have hleft : left.all.Perm (s.all.filter (!·.sameTerms g)) :=
        left.all_perm.trans (s.all_perm.symm.filter _)
      exact (List.filter_append_perm (·.sameTerms g) s.all).symm.trans (hleft.symm.append_left gone)
    have hrest : left.all.Perm ((left.revoke rest).1.all ++ (left.revoke rest).2) := ih left
    -- What the first grant takes is reported before what the others take.
    have hmoved := List.perm_append_comm_assoc gone (left.revoke rest).1.all (left.revoke rest).2
    exact hsplit.trans ((hrest.append_left gone).trans hmoved)

/-- A change that keeps the grants of other slots in their order keeps them in each list. -/
theorem besides_congr {s t : GrantSet} {gs : List Grant}
    (h : t.grants.filter (fun g => decide (g.slot ∉ gs.map Grant.slot)) =
      s.grants.filter (fun g => decide (g.slot ∉ gs.map Grant.slot))) :
    t.buckets.besides gs = s.buckets.besides gs := by
  unfold Buckets.besides buckets denied delegable forUse
  simp only [List.filter_comm _ Grant.denies, List.filter_comm _ Grant.isDelegable,
    List.filter_comm _ Grant.isForUse, h]

/-- What was filtered before by a weaker test does not matter. -/
theorem filter_filter_of_imp {p q : Grant → Bool} (hpq : ∀ g, p g = true → q g = true)
    (gs : List Grant) : (gs.filter q).filter p = gs.filter p := by
  rw [List.filter_filter]
  apply List.filter_congr
  intro g _
  cases hp : p g with
  | true => rw [hpq g hp, Bool.true_and]
  | false => rw [Bool.false_and]

/-- A new grant leaves alone what is of other slots. -/
theorem besides_insert (s : GrantSet) {g : Grant} {p : Grant → Bool}
    (hp : ∀ other : Grant, p other = true → other.slot ≠ g.slot) :
    (s.insert g).grants.filter p = s.grants.filter p := by
  unfold GrantSet.insert
  by_cases hheld : s.holds g = true
  · rw [if_pos hheld]
  · have hg : p g = false := by
      rw [← Bool.not_eq_true]
      exact fun h => hp g h rfl
    have hothers := filter_filter_of_imp (fun other h => decide_eq_true (hp other h)) s.grants
    rw [if_neg hheld, List.filter_append, List.filter_singleton, hg, hothers]
    exact List.append_nil _

/-- Granting leaves the grants of other slots in their place. -/
theorem besides_grant (s : GrantSet) (gs : List Grant) {p : Grant → Bool}
    (hp : ∀ other : Grant, p other = true → ∀ g ∈ gs, other.slot ≠ g.slot) :
    (s.grant gs).1.grants.filter p = s.grants.filter p := by
  induction gs generalizing s with
  | nil => rfl
  | cons g rest ih =>
    have hrest := ih (s.insert g) fun other hother h hh =>
      hp other hother h (List.mem_cons_of_mem _ hh)
    exact hrest.trans (s.besides_insert fun other hother => hp other hother g List.mem_cons_self)

/-- Revoking leaves the grants of other slots in their place. -/
theorem besides_revoke (s : GrantSet) (gs : List Grant) {p : Grant → Bool}
    (hp : ∀ other : Grant, p other = true → ∀ g ∈ gs, other.slot ≠ g.slot) :
    (s.revoke gs).1.grants.filter p = s.grants.filter p := by
  induction gs generalizing s with
  | nil => rfl
  | cons g rest ih =>
    have hrest := ih ⟨s.grants.filter (!·.sameTerms g)⟩ fun other hother h hh =>
      hp other hother h (List.mem_cons_of_mem _ hh)
    have hspared : ∀ other : Grant, p other = true → (!other.sameTerms g) = true := by
      intro other hother
      simp [Grant.sameTerms, hp other hother g List.mem_cons_self]
    exact hrest.trans (filter_filter_of_imp hspared s.grants)

/-- After every sequence of operations a grant set keeps, in the three lists of its kinds, the map
that the operations make; and every further change reports and leaves alone what the map says. -/
theorem after_represents (ops : List Operation) :
    (after ops).buckets = Buckets.after ops ∧ (after ops).buckets.Represents (.after ops) ∧
      ∀ gs, (after ops).Changes (.after ops) gs := by
  have hstands := standsFor_after ops
  refine ⟨buckets_after ops, hstands.represents, fun gs => ?_⟩
  have hother : ∀ other : Grant, decide (other.slot ∉ gs.map Grant.slot) = true →
      ∀ g ∈ gs, other.slot ≠ g.slot := by
    intro other hother g hg hslot
    exact of_decide_eq_true hother (List.mem_map.mpr ⟨g, hg, hslot.symm⟩)
  refine ⟨hstands.granted gs, revoked_perm _ gs, ?_, ?_, buckets_grant _ gs, buckets_revoke _ gs⟩
  · exact besides_congr (besides_grant _ gs hother)
  · exact besides_congr (besides_revoke _ gs hother)

end GrantSet

end DirectoryRights
