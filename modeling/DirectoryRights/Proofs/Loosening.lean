import Mathlib.Data.List.Forall2
import DirectoryRights.Proofs.Ruling

/-!
# Looser grants

Grants become looser when denials go and other grants come. A search that allows with some grants
also allows with looser ones, if it ends at all: the grant that allowed is still there, nothing that
denies was put before it, and what else was put before it can only allow earlier. A denial of
another right, or one that does not have the principal as its grantee, may come as well, provided it
carries a secret and so says nothing of domains.

The same holds where grants open a domain to admins of another one. The groups whose positive grants
count then become more, and what they add to the search are positive grants again.
-/

set_option autoImplicit false

namespace DirectoryRights

/-- The second list is the first one without some elements that may go and with some others that may
come. -/
inductive Relaxed {α : Type} (goes comes : α → Prop) : List α → List α → Prop where
  /-- Two lists without elements. -/
  | nil : Relaxed goes comes [] []
  /-- An element stays. -/
  | keep (a : α) {xs ys : List α} (h : Relaxed goes comes xs ys) :
    Relaxed goes comes (a :: xs) (a :: ys)
  /-- An element goes. -/
  | drop {a : α} (ha : goes a) {xs ys : List α} (h : Relaxed goes comes xs ys) :
    Relaxed goes comes (a :: xs) ys
  /-- An element comes. -/
  | add {a : α} (ha : comes a) {xs ys : List α} (h : Relaxed goes comes xs ys) :
    Relaxed goes comes xs (a :: ys)

namespace Relaxed

variable {α β : Type} {goes comes : α → Prop}

/-- Nothing has to go and nothing to come. -/
theorem refl (xs : List α) : Relaxed goes comes xs xs := by
  induction xs with
  | nil => exact .nil
  | cons a rest ih => exact .keep a ih

/-- Lists of which each part is relaxed are relaxed as a whole. -/
theorem append {xs ys us vs : List α} (h : Relaxed goes comes xs ys)
    (h' : Relaxed goes comes us vs) : Relaxed goes comes (xs ++ us) (ys ++ vs) := by
  induction h with
  | nil => exact h'
  | keep a _ ih => exact .keep a ih
  | drop ha _ ih => exact .drop ha ih
  | add ha _ ih => exact .add ha ih

/-- Filters of such lists. What goes is let through by the first filter, what comes by the second
one; what only one of them lets through goes or comes as well. -/
theorem filter {goes' comes' : α → Prop} {p q : α → Bool}
    (hgoes : ∀ a, p a = true → goes a ∨ q a = false → goes' a)
    (hcomes : ∀ a, q a = true → comes a ∨ p a = false → comes' a) {xs ys : List α}
    (h : Relaxed goes comes xs ys) : Relaxed goes' comes' (xs.filter p) (ys.filter q) := by
  induction h with
  | nil => exact .nil
  | keep a _ ih =>
    rw [List.filter_cons, List.filter_cons]
    cases hp : p a with
    | true =>
      cases hq : q a with
      | true => exact .keep a ih
      | false => exact .drop (hgoes a hp (.inr hq)) ih
    | false =>
      cases hq : q a with
      | true => exact .add (hcomes a hq (.inr hp)) ih
      | false => exact ih
  | @drop a ha _ _ _ ih =>
    rw [List.filter_cons]
    cases hp : p a with
    | true => exact .drop (hgoes a hp (.inl ha)) ih
    | false => exact ih
  | @add a ha _ _ _ ih =>
    rw [List.filter_cons]
    cases hq : q a with
    | true => exact .add (hcomes a hq (.inl ha)) ih
    | false => exact ih

/-- The same filter of such lists; what comes passes it. -/
theorem filter_same (p : α → Bool) {xs ys : List α} (h : Relaxed goes comes xs ys) :
    Relaxed goes (fun a => comes a ∧ p a = true) (xs.filter p) (ys.filter p) := by
  have hpasses : ∀ a, p a = true → ¬ p a = false := by
    intro a hp
    simp [hp]
  refine h.filter (fun a hp ha => ?_) (fun a hp ha => ?_)
  · exact ha.resolve_right (hpasses a hp)
  · exact ⟨ha.resolve_right (hpasses a hp), hp⟩

/-- The images of such lists are such lists, if what goes and what comes have images of that
kind. -/
theorem map {goes' comes' : β → Prop} {f : α → β} (hgoes : ∀ a, goes a → goes' (f a))
    (hcomes : ∀ a, comes a → comes' (f a)) {xs ys : List α} (h : Relaxed goes comes xs ys) :
    Relaxed goes' comes' (xs.map f) (ys.map f) := by
  induction h with
  | nil => exact .nil
  | keep a _ ih => exact .keep (f a) ih
  | drop ha _ ih => exact .drop (hgoes _ ha) ih
  | add ha _ ih => exact .add (hcomes _ ha) ih

/-- Lists that are put together of relaxed parts, one for each element, are relaxed. -/
theorem flatMap {ι : Type} {f g : ι → List α} {is : List ι}
    (h : ∀ i ∈ is, Relaxed goes comes (f i) (g i)) :
    Relaxed goes comes (is.flatMap f) (is.flatMap g) := by
  induction is with
  | nil => exact .nil
  | cons i rest ih =>
    rw [List.flatMap_cons, List.flatMap_cons]
    exact (h i List.mem_cons_self).append (ih fun j hj => h j (List.mem_cons_of_mem _ hj))

end Relaxed

namespace Inquiry

variable (q : Inquiry)

/-- A grant that cannot turn an allowance into a denial: it does not deny, or it carries a secret
and is about another right or not for the principal. -/
def Harmless (g : Grant) : Prop :=
  g.denies = false ∨ g.granteeType.carriesSecret = true ∧
    (g.right.meets q.right = true → ∀ tier ∈ Tier.all q.right.isUserRight, ¬ q.Answers tier g)

/-- Looser grants: denials may go, and harmless grants may come. -/
def Looser : List Grant → List Grant → Prop :=
  Relaxed (fun g => g.denies = true) q.Harmless

/-- What was read of an entry becomes looser. What could not be read may become anything, because a
search that has to read it ends with an error. -/
inductive LooserAnswer : GrantAnswer → GrantAnswer → Prop where
  /-- The grants of the entry could not be read. -/
  | error (e : Error) (after : GrantAnswer) : LooserAnswer (.error e) after
  /-- The grants of the entry become looser. -/
  | ok {before after : Option GrantSet}
    (h : q.Looser (before.elim [] GrantSet.all) (after.elim [] GrantSet.all)) :
    LooserAnswer (.ok before) (.ok after)

variable {q}

/-- The grants stay looser in the order of the search. -/
theorem Looser.ranked {xs ys : List Grant} (h : q.Looser xs ys) :
    q.Looser (Grant.ranked xs) (Grant.ranked ys) := by
  have hkind : ∀ p : Grant → Bool, q.Looser (xs.filter p) (ys.filter p) := by
    intro p
    have hfiltered := (Relaxed.filter_same p h).map (f := id) (fun _ hg => hg) fun _ hg => hg.1
    rwa [List.map_id, List.map_id] at hfiltered
  exact ((hkind _).append (hkind _)).append (hkind _)

/-- What was read is at least as loose as itself. -/
theorem LooserAnswer.refl (a : GrantAnswer) : q.LooserAnswer a a := by
  cases a with
  | error e => exact .error e _
  | ok set => exact .ok (Relaxed.refl _)

/-! ## One level -/

/-- Looser candidates: denials may go, and what comes allows or does not match. -/
theorem relaxed_candidates (below : Bool) {xs ys : List Grant} (h : q.Looser xs ys) :
    Relaxed (fun c => c.2.denies = true)
      (fun c => c.2.denies = false ∨ q.matching c ≠ .ok true)
      (q.candidates below xs) (q.candidates below ys) := by
  refine Relaxed.flatMap fun tier htier => ?_
  refine Relaxed.map (f := (tier, ·)) (fun _ hg => hg) (fun g hg => ?_) (Relaxed.filter_same _ h)
  obtain ⟨hharmless, hcandidate⟩ := hg
  rw [Bool.and_eq_true] at hcandidate
  rcases hharmless with hpositive | ⟨-, hnever⟩
  · exact .inl hpositive
  · -- A candidate of a tier is about the right and admitted there, so that it would answer if it
    -- matched.
    have hmeets : g.right.meets q.right = true := (q.applies_iff.mpr hcandidate.2).meets
    exact .inr fun hmatch => hnever hmeets tier htier ⟨hcandidate.1, hmatch⟩

/-- Where the search of some candidates ends without a denial, that of looser ones does not deny
either, and it allows if the first one does. -/
theorem firstMatch_relaxed {xs ys : List (Tier × Grant)}
    (h : Relaxed (fun c => c.2.denies = true)
      (fun c => c.2.denies = false ∨ q.matching c ≠ .ok true) xs ys)
    {found found' : Option Grant} (hx : q.firstMatch xs = .ok found)
    (hallows : ∀ g, found = some g → g.denies = false) (hy : q.firstMatch ys = .ok found') :
    (∀ g, found' = some g → g.denies = false) ∧ (found.isSome = true → found'.isSome = true) := by
  induction h with
  | nil =>
    cases hx
    cases hy
    refine ⟨fun g hg => ?_, id⟩
    cases hg
  | keep c _ ih =>
    rw [firstMatch_cons] at hx hy
    rcases hmatch : q.matching c with e | _ | _
    · rw [hmatch] at hx
      cases hx
    · rw [hmatch] at hx hy
      exact ih hx hy
    · rw [hmatch] at hx hy
      cases hx
      cases hy
      exact ⟨hallows, id⟩
  | @drop c hc _ _ _ ih =>
    rw [firstMatch_cons] at hx
    rcases hmatch : q.matching c with e | _ | _
    · rw [hmatch] at hx
      cases hx
    · rw [hmatch] at hx
      exact ih hx hy
    · -- What goes is a denial, so that it was not the match.
      rw [hmatch] at hx
      cases hx
      rw [hallows c.2 rfl] at hc
      cases hc
  | @add c hc _ _ _ ih =>
    rw [firstMatch_cons] at hy
    rcases hmatch : q.matching c with e | _ | _
    · rw [hmatch] at hy
      cases hy
    · rw [hmatch] at hy
      exact ih hx hy
    · rw [hmatch] at hy
      cases hy
      refine ⟨fun g hg => ?_, fun _ => rfl⟩
      cases hg
      exact hc.resolve_right fun hne => hne hmatch

/-- Grants open a domain exactly if the first one about its border does not deny. -/
theorem decide_eq_allow {domainId : String} {delegate : Bool} {gs : List Grant} :
    DomainBorder.decide domainId delegate gs = .allow ↔
      ∃ g, (gs.find? fun g => DomainBorder.concerns domainId g && !(delegate && g.isForUse)) =
        some g ∧ g.denies = false := by
  unfold DomainBorder.decide
  cases gs.find? fun g => DomainBorder.concerns domainId g && !(delegate && g.isForUse) with
  | none => simp
  | some g => cases hdeny : g.denies <;> simp [hdeny]

/-- Grants that open a domain still open it when they become looser. -/
theorem decide_of_looser {domainId : String} {delegate : Bool} {xs ys : List Grant}
    (h : q.Looser xs ys) (hx : DomainBorder.decide domainId delegate xs = .allow) :
    DomainBorder.decide domainId delegate ys = .allow := by
  rw [decide_eq_allow] at hx ⊢
  induction h with
  | nil => exact hx
  | keep g _ ih =>
    rw [List.find?_cons] at hx ⊢
    split at hx
    · exact hx
    · exact ih hx
  | @drop g hg _ _ _ ih =>
    rw [List.find?_cons] at hx
    split at hx
    · obtain ⟨found, hfound, hpositive⟩ := hx
      rw [← Option.some.inj hfound, hg] at hpositive
      cases hpositive
    · exact ih hx
  | @add g hg _ _ _ ih =>
    rw [List.find?_cons]
    split
    · rename_i hconcerns
      refine ⟨g, rfl, hg.resolve_right fun hsecret => ?_⟩
      -- A grant about the border is made to a domain, and domains have no secret.
      unfold DomainBorder.concerns at hconcerns
      simp only [Bool.and_eq_true, decide_eq_true_eq] at hconcerns
      rw [hconcerns.1.1.2] at hsecret
      exact absurd hsecret.1 (by decide)
    · exact ih hx

/-! ## All levels -/

/-- Two levels at one place, the second one with looser grants. -/
structure LooserLevel (before after : Level) : Prop where
  /-- Both stand at the same place. -/
  below : before.below = after.below
  /-- The grants become looser. -/
  grants : q.Looser before.grants after.grants

/-- What is read as levels becomes looser, as far as it can be read. -/
def LooserReads (before after : Except Error Level) : Prop :=
  ∀ level level', before = .ok level → after = .ok level' → q.LooserLevel level level'

/-- A deciding grant allows exactly if it does not deny. -/
theorem allow_iff {g : Grant} : (Finding.found g).decision = .allow ↔ g.denies = false := by
  rw [decision_found]
  cases g.denies <;> decide

/-- A search that allows also allows with looser levels, if it ends. -/
theorem scan_of_looser {levels levels' : List (Except Error Level)}
    (h : List.Forall₂ q.LooserReads levels levels') {seen seen' : Bool} {finding finding' : Finding}
    (hx : q.scan levels seen = .ok finding) (hallow : finding.decision = .allow)
    (hy : q.scan levels' seen' = .ok finding') : finding'.decision = .allow := by
  induction h generalizing seen seen' with
  | nil =>
    cases hx
    cases seen <;> cases hallow
  | cons hlevel _ ih =>
    obtain ⟨level, rfl, hstep⟩ := q.scan_cons_eq_ok hx
    obtain ⟨level', rfl, hstep'⟩ := q.scan_cons_eq_ok hy
    obtain ⟨hbelow, hgrants⟩ := hlevel level level' rfl rfl
    have hcandidates := relaxed_candidates level.below hgrants
    rw [← hbelow] at hstep'
    rcases hstep with ⟨g, hmatch, rfl⟩ | ⟨hmatch, hrest⟩
    · -- The first search ends here with an allowance, so that the second one ends here as well.
      have hpositive : ∀ g', some g = some g' → g'.denies = false := by
        intro g' hg
        rw [← Option.some.inj hg]
        exact allow_iff.mp hallow
      rcases hstep' with ⟨g', hmatch', rfl⟩ | ⟨hmatch', -⟩
      · obtain ⟨hpositive', -⟩ := firstMatch_relaxed hcandidates hmatch hpositive hmatch'
        exact allow_iff.mpr (hpositive' g' rfl)
      · obtain ⟨-, hsome⟩ := firstMatch_relaxed hcandidates hmatch hpositive hmatch'
        cases hsome rfl
    · rcases hstep' with ⟨g', hmatch', rfl⟩ | ⟨-, hrest'⟩
      · have hpositive : ∀ g : Grant, none = some g → g.denies = false := by
          intro g hg
          cases hg
        obtain ⟨hpositive', -⟩ := firstMatch_relaxed hcandidates hmatch hpositive hmatch'
        exact allow_iff.mpr (hpositive' g' rfl)
      · exact ih hrest hrest'

/-- The level of an entry becomes looser with what is read of the entry. -/
theorem looserReads_ofAnswer {before after : GrantAnswer} (h : q.LooserAnswer before after)
    (below : Bool) : q.LooserReads (Level.ofAnswer below before) (Level.ofAnswer below after) := by
  intro level level' hbefore hafter
  cases h with
  | error e => cases hbefore
  | ok hgrants =>
    cases hbefore
    cases hafter
    exact ⟨rfl, hgrants⟩

variable {source other : Entry → GrantAnswer}

/-- A border that is open stays open, and what was read of it can still be read. -/
theorem check_of_looser (h : ∀ e, q.LooserAnswer (source e) (other e)) {holder target : Entry}
    {delegate : Bool} (hx : (DomainBorder.check holder target delegate).eval source = .ok .allow) :
    (DomainBorder.check holder target delegate).eval other = .ok .allow := by
  rw [check_eval] at hx ⊢
  by_cases hdomain : target.isDomain = true
  · rw [if_pos hdomain] at hx ⊢
    have hanswer := h target
    generalize source target = before at hx hanswer
    generalize other target = after at hanswer
    cases hanswer with
    | error e => cases hx
    | ok hgrants => exact congrArg Except.ok (decide_of_looser hgrants (Except.ok.inj hx))
  · rw [if_neg hdomain] at hx
    cases hx

/-- A group that counts still counts. -/
theorem groupCounts_of_looser (h : ∀ e, q.LooserAnswer (source e) (other e))
    {holder home : Option Entry} {group : Entry}
    (hx : (q.groupCounts holder home group).eval source = true) :
    (q.groupCounts holder home group).eval other = true :=
  q.groupCounts_mono (fun _ _ _ _ _ => check_of_looser h) hx

/-- The grants gathered from groups become looser. -/
theorem gather_of_looser (h : ∀ e, q.LooserAnswer (source e) (other e)) {holder home : Option Entry}
    {groups : List (Entry × Bool)} {pool pool' : List Grant}
    (hx : (q.gather holder home groups).eval source = .ok pool)
    (hy : (q.gather holder home groups).eval other = .ok pool') : q.Looser pool pool' := by
  induction groups generalizing pool pool' with
  | nil =>
    cases hx
    cases hy
    exact .nil
  | cons group rest ih =>
    obtain ⟨group, direct⟩ := group
    obtain ⟨before, gathered, hbefore, hrest, rfl⟩ := q.gather_cons_eq_ok hx
    obtain ⟨after, gathered', hafter, hrest', rfl⟩ := q.gather_cons_eq_ok hy
    have hanswer := h group
    rw [hbefore, hafter] at hanswer
    have hgrants : q.Looser (before.elim [] GrantSet.all) (after.elim [] GrantSet.all) := by
      cases hanswer with
      | ok hgrants => exact hgrants
    refine Relaxed.append (Relaxed.filter (fun g hg hgoes => ?_) (fun g hg hcomes => ?_) hgrants)
      (ih hrest hrest')
    · -- What counted before still counts.
      rcases hgoes with hdenies | hg'
      · exact hdenies
      · simp only [Bool.and_eq_true, Bool.or_eq_true] at hg
        obtain ⟨hkept, hcounts | hdenies⟩ := hg
        · rw [groupCounts_of_looser h hcounts, Bool.true_or, Bool.and_true] at hg'
          rw [Bool.or_eq_false_iff] at hg'
          rw [hg'.1, hg'.2] at hkept
          rcases hkept with hkept | hkept <;> cases hkept
        · exact hdenies
    · -- What counts newly does not deny.
      rcases hcomes with hharmless | hg'
      · exact hharmless
      · refine .inl ?_
        cases hdeny : g.denies with
        | true =>
          rw [hdeny, Bool.or_true] at hg hg'
          rw [hg] at hg'
          cases hg'
        | false => rfl

/-- The levels of a search become looser. -/
theorem levels_of_looser (h : ∀ e, q.LooserAnswer (source e) (other e)) (holder home : Option Entry)
    (stops : List (Entry × Bool)) :
    List.Forall₂ q.LooserReads (q.levels source holder home stops)
      (q.levels other holder home stops) := by
  unfold levels
  refine .cons (looserReads_ofAnswer (h _) false) (.cons ?_ ?_)
  · intro level level' hbefore hafter
    obtain ⟨pool, hpool, rfl⟩ := q.groupLevel_eq_ok hbefore
    obtain ⟨pool', hpool', rfl⟩ := q.groupLevel_eq_ok hafter
    exact ⟨rfl, (gather_of_looser h hpool hpool').ranked⟩
  · rw [List.forall₂_map_left_iff, List.forall₂_map_right_iff, List.forall₂_same]
    exact fun stop _ => looserReads_ofAnswer (h stop.1) stop.2

/-- A search that allows also allows with looser grants, if it ends. -/
theorem search_of_looser {d : Directory} (hview : q.view = d.view)
    (h : ∀ e, q.LooserAnswer (source e) (other e)) {holder : Option Entry}
    {finding finding' : Finding} (hx : (q.search holder).eval source = .ok finding)
    (hallow : finding.decision = .allow) (hy : (q.search holder).eval other = .ok finding') :
    finding'.decision = .allow := by
  obtain ⟨home, hhome⟩ := q.targetHome_ofDirectory hview
  have hstops := q.stops_ofDirectory hview
  rw [q.search_eval _ holder home _ hhome hstops] at hx hy
  exact scan_of_looser (levels_of_looser h holder home _) hx hallow hy

/-- A check that allows also allows with looser grants, if it ends without an error. -/
theorem answer_of_looser {d : Directory} (hview : q.view = d.view)
    (h : ∀ e, q.LooserAnswer (source e) (other e)) {decision : Decision}
    (hx : (q.answer.eval source).map Prod.fst = .ok .allow)
    (hy : (q.answer.eval other).map Prod.fst = .ok decision) : decision = .allow := by
  rw [answer_eq_follow] at hx hy
  cases hcourse : q.course with
  | idle =>
    rw [hcourse] at hx
    cases hx
  | failed e =>
    rw [hcourse] at hx
    cases hx
  | border domain =>
    rw [hcourse, eval_follow_border] at hx hy
    have hallow : (DomainBorder.check domain q.target q.delegate).eval source = .ok .allow := by
      cases hcheck : (DomainBorder.check domain q.target q.delegate).eval source with
      | error e =>
        rw [hcheck] at hx
        cases hx
      | ok found =>
        rw [hcheck] at hx
        exact congrArg Except.ok (Except.ok.inj hx)
    rw [check_of_looser h hallow] at hy
    exact (Except.ok.inj hy).symm
  | search holder =>
    rw [hcourse, eval_follow_search] at hx hy
    cases hbefore : (q.search holder).eval source with
    | error e =>
      rw [hbefore] at hx
      cases hx
    | ok finding =>
      cases hafter : (q.search holder).eval other with
      | error e =>
        rw [hafter] at hy
        cases hy
      | ok finding' =>
        rw [hbefore] at hx
        rw [hafter] at hy
        have hallow : finding.decision = .allow := Except.ok.inj hx
        rw [← Except.ok.inj hy]
        exact search_of_looser hview h hbefore hallow hafter

end Inquiry

namespace AccessControl

variable {k : AccessControl}

/-- A check that allows over one store also allows over another one with the same entries and looser
grants, if it ends without an error. -/
theorem uncached_of_looser {s t : Store} (hs : s.outages = []) (ht : t.outages = [])
    (hview : t.directory.view = s.directory.view) {r : Request}
    (h : ∀ e, (r.inquiry s.directory.view).LooserAnswer
      (Store.fresh k.catalog s e).unplaced (Store.fresh k.catalog t e).unplaced)
    {first second : Evaluation} (hfirst : k.uncached s.directory r = .ok first)
    (hsecond : k.uncached t.directory r = .ok second) (hallow : first.decision = .allow) :
    second.decision = .allow := by
  have hx := k.decision_uncached s.directory r
  have hy := k.decision_uncached t.directory r
  rw [hfirst, Store.fresh_ofDirectory hs] at hx
  rw [hsecond, Store.fresh_ofDirectory ht] at hy
  unfold decided at hx hy
  cases hsettled : r.settled with
  | error e =>
    rw [hsettled] at hx
    cases hx
  | ok verdict =>
    rw [hsettled] at hx hy
    cases verdict with
    | some decision =>
      have hsame : first.decision = second.decision :=
        (Except.ok.inj hx).trans (Except.ok.inj hy).symm
      rw [← hsame, hallow]
    | none =>
      simp only at hx hy
      rw [answered_congr r fun e => (Store.fresh k.catalog s e).unplaced_unplaced.symm] at hx
      rw [answered_congr r fun e => (Store.fresh k.catalog t e).unplaced_unplaced.symm] at hy
      unfold answered at hx hy
      rw [hview] at hy
      exact Inquiry.answer_of_looser (q := r.inquiry s.directory.view) rfl h
        (hx.symm.trans (congrArg Except.ok hallow)) hy.symm

end AccessControl

end DirectoryRights
