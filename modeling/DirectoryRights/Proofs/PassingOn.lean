import DirectoryRights.Proofs.Loosening

/-!
# Who may pass a right on may use it

A check whether a right may be passed on looks at other grants than a check whether it may be used:
grants for use only drop out, and what counts of the right is whether it can be granted on the
target. So the two may be decided by different grants, at different levels. But as soon as a right
can be granted on a target at all, every denial that the second check meets is met by the first one
as well, and no later. Where the first check finds an allowance, the second one has found one by
then, there or before.
-/

set_option autoImplicit false

namespace DirectoryRights

/-- An allowance stays an allowance, and where nothing was said nothing is denied. -/
structure Concedes (first second : Option Decision) : Prop where
  /-- What was allowed is allowed. -/
  allow : first = some .allow → second = some .allow
  /-- Where nothing was said at most an allowance is new. -/
  silent : first = none → second = none ∨ second = some .allow

namespace Concedes

/-- A decision concedes itself. -/
theorem refl (decision : Option Decision) : Concedes decision decision :=
  ⟨id, .inl⟩

/-- The first decision in a list of concessions is one. -/
theorem findSome? {α : Type} {f g : α → Option Decision} {xs : List α}
    (h : ∀ x ∈ xs, Concedes (f x) (g x)) : Concedes (xs.findSome? f) (xs.findSome? g) := by
  induction xs with
  | nil => exact .refl _
  | cons x rest ih =>
    obtain ⟨hhead, htail⟩ := List.forall_mem_cons.mp h
    have hrest := ih htail
    rw [List.findSome?_cons, List.findSome?_cons]
    cases hfirst : f x with
    | some decision =>
      constructor
      · intro hallow
        rw [hhead.allow (hfirst.trans hallow)]
      · intro hnone
        cases hnone
    | none =>
      rcases hhead.silent hfirst with hnone | hallow
      · rw [hnone]
        exact hrest
      · rw [hallow]
        exact ⟨fun _ => rfl, fun _ => .inr rfl⟩

end Concedes

namespace DomainBorder

/-- Grants that let the right that opens a domain be passed on let it be used. -/
theorem decide_use_of_delegate {domainId : String} {gs : List Grant}
    (h : decide domainId true gs = .allow) : decide domainId false gs = .allow := by
  rw [Inquiry.decide_eq_allow] at h ⊢
  simp only [Bool.true_and, Bool.false_and, Bool.not_false, Bool.and_true] at h ⊢
  obtain ⟨g, hfound, hpositive⟩ := h
  induction gs with
  | nil => cases hfound
  | cons first rest ih =>
    rw [List.find?_cons] at hfound ⊢
    cases hconcerns : concerns domainId first with
    | false =>
      rw [hconcerns] at hfound
      exact ih hfound
    | true =>
      refine ⟨first, rfl, ?_⟩
      cases hforUse : first.isForUse with
      | true => exact Grant.not_denies_of_isForUse hforUse
      | false =>
        -- This grant decides in both cases.
        rw [hconcerns, hforUse] at hfound
        rw [Option.some.inj hfound]
        exact hpositive

end DomainBorder

namespace Inquiry

/-- The check whether the right may be used. -/
def use (q : Inquiry) : Inquiry :=
  { q with delegate := false }

variable {q : Inquiry}

/-- A tier has a verdict only where the right suits the kind of the target. -/
theorem suits_of_verdict {level : Level} {tier : Tier} {decision : Decision}
    (h : q.verdict? level tier = some decision) :
    q.right.suits q.target.targetType q.delegate = true := by
  unfold verdict? at h
  split at h
  · rename_i hdenied
    obtain ⟨g, -, happlies, -⟩ := hdenied
    exact happlies.suits
  · split at h
    · rename_i hallowed
      obtain ⟨g, -, happlies, -⟩ := hallowed
      exact happlies.suits
    · cases h

/-- The same for the first verdict of several levels. -/
theorem suits_of_findSome? {levels : List Level} {tiers : List Tier} {decision : Decision}
    (h : (levels.findSome? fun level => tiers.findSome? (q.verdict? level)) = some decision) :
    q.right.suits q.target.targetType q.delegate = true := by
  obtain ⟨level, -, hlevel⟩ := List.exists_of_findSome?_eq_some h
  obtain ⟨tier, -, hverdict⟩ := List.exists_of_findSome?_eq_some hlevel
  exact suits_of_verdict hverdict

/-- A right that can be used on the target is used by whatever lets it be passed on. -/
theorem use_applies {below : Bool} {g : Grant} (hworks : q.right.worksOn q.target.targetType = true)
    (h : q.Applies below g) : q.use.Applies below g := by
  refine ⟨hworks, h.meets, ?_, h.placed⟩
  intro hdelegate
  cases hdelegate

/-- A denial of the use denies the passing on of a right that can be granted on the target. -/
theorem applies_of_use {below : Bool} {g : Grant}
    (hsuits : q.right.suits q.target.targetType q.delegate = true) (hdeny : g.denies = true)
    (h : q.use.Applies below g) : q.Applies below g := by
  refine ⟨hsuits, h.meets, fun _ => ?_, h.placed⟩
  unfold Grant.isForUse
  rw [hdeny, Bool.not_true, Bool.and_false]

/-- Who is the grantee of a grant does not depend on what the right is for. -/
theorem use_answers {tier : Tier} {g : Grant} (h : q.Answers tier g) : q.use.Answers tier g :=
  ⟨h.admitted, h.matched⟩

/-- The same the other way round. -/
theorem answers_of_use {tier : Tier} {g : Grant} (h : q.use.Answers tier g) : q.Answers tier g :=
  ⟨h.admitted, h.matched⟩

/-- In one tier of a level the use is not denied unless the passing on is, and it is allowed if the
passing on is. -/
theorem concedes_verdict (hworks : q.right.worksOn q.target.targetType = true)
    (hsuits : q.right.suits q.target.targetType q.delegate = true) (level : Level) (tier : Tier) :
    Concedes (q.verdict? level tier) (q.use.verdict? level tier) := by
  have hdenied : (∃ g ∈ level.grants, q.use.Applies level.below g ∧ q.use.Answers tier g ∧
      g.denies = true) → ∃ g ∈ level.grants, q.Applies level.below g ∧ q.Answers tier g ∧
      g.denies = true := by
    rintro ⟨g, hg, happlies, hanswers, hdeny⟩
    exact ⟨g, hg, applies_of_use hsuits hdeny happlies, answers_of_use hanswers, hdeny⟩
  have hallowed : (∃ g ∈ level.grants, q.Applies level.below g ∧ q.Answers tier g) →
      ∃ g ∈ level.grants, q.use.Applies level.below g ∧ q.use.Answers tier g := by
    rintro ⟨g, hg, happlies, hanswers⟩
    exact ⟨g, hg, use_applies hworks happlies, use_answers hanswers⟩
  unfold verdict?
  by_cases hdeny : ∃ g ∈ level.grants, q.Applies level.below g ∧ q.Answers tier g ∧
      g.denies = true
  · -- Where the passing on is denied nothing is asked of the use.
    rw [if_pos hdeny]
    constructor
    · intro hallow
      cases hallow
    · intro hnone
      cases hnone
  · rw [if_neg hdeny, if_neg fun huse => hdeny (hdenied huse)]
    by_cases hallow : ∃ g ∈ level.grants, q.Applies level.below g ∧ q.Answers tier g
    · rw [if_pos hallow, if_pos (hallowed hallow)]
      exact .refl _
    · rw [if_neg hallow]
      constructor
      · intro hnone
        cases hnone
      · -- A grant for use only may count now, and it allows.
        intro
        split
        · exact .inr rfl
        · exact .inl rfl

/-- The ruling allows exactly if the first verdict does. -/
theorem ruling_eq_allow {levels : List Level} :
    q.ruling levels = .allow ↔ (levels.findSome? fun level =>
      (Tier.all q.right.isUserRight).findSome? (q.verdict? level)) = some .allow := by
  unfold ruling
  cases levels.findSome? fun level =>
      (Tier.all q.right.isUserRight).findSome? (q.verdict? level) with
  | some decision => simp
  | none =>
    simp only [reduceCtorEq, iff_false]
    split <;> decide

/-- Where the ruling allows to pass a right on, it allows to use it, if the right works on the
target. -/
theorem ruling_use (hworks : q.right.worksOn q.target.targetType = true) {levels : List Level}
    (h : q.ruling levels = .allow) : q.use.ruling levels = .allow := by
  rw [ruling_eq_allow] at h ⊢
  have hsuits := suits_of_findSome? h
  have hlevel : ∀ level ∈ levels,
      Concedes ((Tier.all q.right.isUserRight).findSome? (q.verdict? level))
        ((Tier.all q.right.isUserRight).findSome? (q.use.verdict? level)) := by
    intro level _
    apply Concedes.findSome?
    intro tier _
    exact concedes_verdict hworks hsuits level tier
  exact (Concedes.findSome? hlevel).allow h

/-- A border that lets the right be passed on lets it be used. -/
theorem check_use_of_delegate {source : Entry → GrantAnswer} {holder target : Entry}
    (h : (DomainBorder.check holder target true).eval source = .ok .allow) :
    (DomainBorder.check holder target false).eval source = .ok .allow := by
  rw [check_eval] at h ⊢
  by_cases hdomain : target.isDomain = true
  · rw [if_pos hdomain] at h ⊢
    obtain ⟨set, hset, hdecide⟩ := exists_of_map_eq_ok h
    rw [hset]
    exact congrArg Except.ok (DomainBorder.decide_use_of_delegate hdecide)
  · rw [if_neg hdomain] at h
    cases h

/-- Whoever may pass a right on may use it, if the check of the use ends without an error. -/
theorem answer_use {d : Directory} (hview : q.view = d.view) (hdelegate : q.delegate = true)
    (hworks : q.right.worksOn q.target.targetType = true) {source : Entry → GrantAnswer}
    (hgive : (q.answer.eval source).map Prod.fst = .ok .allow) {decision : Decision}
    (huse : (q.use.answer.eval source).map Prod.fst = .ok decision) : decision = .allow := by
  have hcourses : q.use.course = q.course := rfl
  rcases q.course_cases with hcourse | ⟨e, hcourse⟩ | ⟨domain, hcourse, -⟩ | ⟨hcourse, -⟩
  · rw [answer_eq_follow, hcourse] at hgive
    cases hgive
  · rw [answer_eq_follow, hcourse] at hgive
    cases hgive
  · rw [answer_eq_follow, hcourse, eval_follow_border, hdelegate] at hgive
    rw [answer_eq_follow, hcourses, hcourse, eval_follow_border] at huse
    obtain ⟨answer, hanswer, hallow⟩ := exists_of_map_eq_ok hgive
    obtain ⟨found, hopen, rfl⟩ := exists_of_map_eq_ok hanswer
    obtain rfl : found = .allow := hallow
    have hused : (DomainBorder.check domain q.use.target q.use.delegate).eval source = .ok .allow :=
      check_use_of_delegate hopen
    rw [hused] at huse
    exact (Except.ok.inj huse).symm
  · have hgiven := q.answer_eq_ruling hview hcourse hgive
    rw [q.use.answer_eq_ruling hview (hcourses.trans hcourse) huse]
    exact ruling_use hworks hgiven.symm

end Inquiry

namespace Sample

/-- The directory in which Alice's account lets the admin see it, and her domain lets the admin give
this right to others. -/
def entrusted : Directory :=
  storing away "55555555-5555-5555-5555-555555555555 usr +listAccount"
    (storing alice adminLine domains)

end Sample

namespace AccessControl

variable {k : AccessControl}

/-- Who is allowed to pass a right on is allowed to use it on every target on which it works, if the
check of the use ends without an error. -/
theorem use_of_delegate {d : Directory} {r : Request} {given used : Evaluation}
    (hworks : r.right.worksOn r.target.targetType = true)
    (hgive : k.uncached d { r with delegate := true } = .ok given)
    (hallow : given.decision = .allow)
    (huse : k.uncached d { r with delegate := false } = .ok used) : used.decision = .allow := by
  have hgiven := k.decision_uncached d { r with delegate := true }
  have hused := k.decision_uncached d { r with delegate := false }
  rw [hgive] at hgiven
  rw [huse] at hused
  unfold decided at hgiven hused
  have hsettled : ∀ delegate, Request.settled { r with delegate } = r.settled := fun _ => rfl
  rw [hsettled] at hgiven hused
  cases hrules : r.settled with
  | error e =>
    rw [hrules] at hgiven
    cases hgiven
  | ok verdict =>
    rw [hrules] at hgiven hused
    cases verdict with
    | some decision =>
      have hsame : used.decision = given.decision :=
        (Except.ok.inj hused).trans (Except.ok.inj hgiven).symm
      rw [hsame, hallow]
    | none =>
      have hpassed := hgiven.symm.trans (congrArg Except.ok hallow)
      exact Inquiry.answer_use (q := Request.inquiry { r with delegate := true } d.view) rfl rfl
        hworks hpassed hused.symm

/-- The admin may pass the right on because of Alice's domain, and may use it because of her
account. -/
theorem use_of_delegate_sample :
    ∃ used, Sample.office.uncached Sample.entrusted
        { Sample.listing Sample.alice with delegate := false } = .ok used ∧
      used.decision = .allow := by
  have hgive : Sample.office.uncached Sample.entrusted
      { Sample.listing Sample.alice with delegate := true } = .ok (.bare .allow) := by
    decide +kernel
  obtain ⟨used, huse⟩ := Store.exists_ok_of_isOk
    (x := Sample.office.uncached Sample.entrusted
      { Sample.listing Sample.alice with delegate := false }) (by decide +kernel)
  exact ⟨used, huse, use_of_delegate (r := Sample.listing Sample.alice) rfl hgive rfl huse⟩

end AccessControl

end DirectoryRights
