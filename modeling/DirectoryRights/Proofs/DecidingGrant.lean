import DirectoryRights.Proofs.Ruling

/-!
# The deciding grant

A check that searches the levels and allows ends at a grant, and who asks for it is told which one.
This grant does not deny, and the principal is its grantee in some tier. Where it was found depends
on which entry of an id was read first, so that two checks are compared up to this.
-/

set_option autoImplicit false

namespace DirectoryRights

/-- The report of a grant without the entry that stores it. -/
def Via.unplaced (v : Via) : Via :=
  { v with targetType := none, targetName := none }

/-- The evaluation without the entry that stores the deciding grant. -/
def Evaluation.unplaced (e : Evaluation) : Evaluation :=
  { e with via := e.via.map Via.unplaced }

/-- An evaluation that differs from the report of a grant only in where the grant was found. -/
theorem Evaluation.exists_via_of_unplaced {reported : Evaluation} {decision : Decision} {g : Grant}
    (h : reported.unplaced = ⟨decision, some (Via.ofGrant g.unplaced)⟩) :
    ∃ via, reported = ⟨decision, some via⟩ ∧ via.granteeType = g.granteeType ∧
      via.grantee = g.grantee ∧ via.negative = g.denies := by
  obtain ⟨decided, via⟩ := reported
  cases via with
  | none => cases h
  | some via =>
    obtain ⟨rfl, hsome⟩ := Evaluation.mk.inj h
    have hvia : via.unplaced = Via.ofGrant g.unplaced := Option.some.inj hsome
    exact ⟨via, rfl, congrArg Via.granteeType hvia, congrArg Via.grantee hvia,
      congrArg Via.negative hvia⟩

namespace Request

/-- What is reported of a grant is the same but for the place. -/
theorem report_unplaced (r : Request) (decision : Decision) (grant : Option Grant) :
    r.report decision (grant.map Grant.unplaced) = (r.report decision grant).unplaced := by
  unfold report Evaluation.unplaced
  cases r.wantsVia with
  | false => rfl
  | true => cases grant <;> rfl

/-- What a check reads ends with the report of its answer. -/
theorem reading_eval (r : Request) (v : View) (source : Entry → GrantAnswer) :
    (r.reading v).eval source =
      ((r.inquiry v).answer.eval source).map fun outcome => r.report outcome.1 outcome.2 := by
  unfold reading Reader.eval
  rw [Reading.eval_bind']
  rfl

/-- Where grants were found changes nothing but the place in the report. -/
theorem reading_unplaced (r : Request) (d : Directory) (source : Entry → GrantAnswer) :
    (r.reading d.view).eval (fun e => (source e).unplaced) =
      ((r.reading d.view).eval source).map Evaluation.unplaced := by
  have hanswer := (r.inquiry d.view).answer_unplaced source
  rw [reading_eval, reading_eval, hanswer]
  cases (r.inquiry d.view).answer.eval source with
  | error e => rfl
  | ok outcome => exact congrArg Except.ok (r.report_unplaced outcome.1 outcome.2)

/-- Sources that differ only in where grants were found lead to evaluations that differ only in
this. -/
theorem reading_congr (r : Request) (d : Directory) {source other : Entry → GrantAnswer}
    (h : ∀ e, (source e).unplaced = (other e).unplaced) :
    ((r.reading d.view).eval source).map Evaluation.unplaced =
      ((r.reading d.view).eval other).map Evaluation.unplaced := by
  rw [← r.reading_unplaced d source, ← r.reading_unplaced d other, funext h]

end Request

namespace Inquiry

variable {q : Inquiry}

/-- A grant at which a search ends is about the right, and the principal is its grantee. -/
theorem answers_of_scan {levels : List (Except Error Level)} {seen : Bool} {g : Grant}
    (h : q.scan levels seen = .ok (.found g)) :
    ∃ level tier, .ok level ∈ levels ∧ g ∈ level.grants ∧ q.Applies level.below g ∧
      tier ∈ Tier.all q.right.isUserRight ∧ q.Answers tier g := by
  induction levels generalizing seen with
  | nil => cases h
  | cons read rest ih =>
    obtain ⟨level, rfl, ⟨found, hmatch, hfound⟩ | ⟨-, hrest⟩⟩ := q.scan_cons_eq_ok h
    · obtain rfl : g = found := Finding.found.inj hfound
      obtain ⟨before, tier, after, hsplit, -, hmatched⟩ := q.firstMatch_eq_some.mp hmatch
      have hmem : (tier, g) ∈ q.candidates level.below level.grants := by
        rw [hsplit]
        simp
      obtain ⟨htier, hg, hadmits, hconcerns⟩ := q.mem_candidates.mp hmem
      exact ⟨level, tier, List.mem_cons_self, hg, q.applies_iff.mpr hconcerns, htier,
        hadmits, hmatched⟩
    · obtain ⟨level', tier, hlevel, hfound⟩ := ih hrest
      exact ⟨level', tier, List.mem_cons_of_mem _ hlevel, hfound⟩

/-- A search that allows ends at a grant that does not deny. -/
theorem found_of_allow {finding : Finding} (h : finding.decision = .allow) :
    ∃ g, finding = .found g ∧ g.denies = false := by
  cases finding with
  | found g =>
    refine ⟨g, rfl, ?_⟩
    cases hdeny : g.denies with
    | false => rfl
    | true => simp [Finding.decision, hdeny] at h
  | none seen => cases seen <;> cases h

/-- A grant that a search finds has the principal as its grantee in a tier that is searched. -/
theorem answers_of_search {d : Directory} (hview : q.view = d.view)
    {source : Entry → GrantAnswer} {holder : Option Entry} {g : Grant}
    (h : (q.search holder).eval source = .ok (.found g)) :
    ∃ tier ∈ Tier.all q.right.isUserRight, q.Answers tier g := by
  obtain ⟨home, hhome⟩ := q.targetHome_ofDirectory hview
  rw [q.search_eval source holder home _ hhome (q.stops_ofDirectory hview)] at h
  obtain ⟨-, tier, -, -, -, htier, hanswers⟩ := answers_of_scan h
  exact ⟨tier, htier, hanswers⟩

end Inquiry

namespace AccessControl

variable (k : AccessControl)

/-- A check over a directory reports what it would report if it read every set of grants anew, but
for where the grant was found. -/
theorem uncached_unplaced (d : Directory) (r : Request) :
    (k.uncached d r).map Evaluation.unplaced =
      (k.evaluateFresh (.ofDirectory d) r).map Evaluation.unplaced := by
  unfold uncached evaluate evaluateFresh
  cases r.settled with
  | error e => rfl
  | ok verdict =>
    cases verdict with
    | some decision => rfl
    | none =>
      have hcached : cached? r (.start d none) = none := by
        unfold cached?
        cases r.wantsVia <;> rfl
      obtain ⟨hresult, hextends⟩ :=
        Store.run_spec (c := k.catalog) (r.reading d.view) (.ofDirectory d) rfl
      simp only [hcached]
      show Except.map Evaluation.unplaced
        ((r.reading d.view).run (Store.grantsOf k.catalog) (.ofDirectory d)).1 = _
      rw [hresult]
      -- What the store remembers at the end was read from the lines.
      apply r.reading_congr d
      intro e
      rw [Store.recalled_unplaced rfl hextends, Store.recalled_ofDirectory]

variable {k}

/-- Checks over two directories with the same entries report the same, but for where the grant was
found, if their searches do. -/
theorem uncached_congr {d d' : Directory} {r : Request} (hview : d'.view = d.view)
    (h : (r.inquiry d.view).answer.eval
        (fun e => (Store.fresh k.catalog (.ofDirectory d') e).unplaced) =
      (r.inquiry d.view).answer.eval
        fun e => (Store.fresh k.catalog (.ofDirectory d) e).unplaced) :
    (k.uncached d' r).map Evaluation.unplaced = (k.uncached d r).map Evaluation.unplaced := by
  have hreading : ((r.reading d.view).eval (Store.fresh k.catalog (.ofDirectory d'))).map
        Evaluation.unplaced =
      ((r.reading d.view).eval (Store.fresh k.catalog (.ofDirectory d))).map
        Evaluation.unplaced := by
    rw [← r.reading_unplaced d, ← r.reading_unplaced d, r.reading_eval, r.reading_eval, h]
  rw [k.uncached_unplaced, k.uncached_unplaced]
  unfold evaluateFresh
  cases r.settled with
  | error e => rfl
  | ok verdict =>
    cases verdict with
    | some decision => rfl
    | none =>
      show ((r.reading d'.view).eval _).map _ = _
      rw [hview]
      exact hreading

/-- A check that searches, with no decision and no set remembered, reports what the search finds in
the stored lines. -/
theorem evaluateFresh_of_search {d : Directory} {r : Request} {holder : Option Entry}
    (hsettled : r.settled = .ok none) (hcourse : (r.inquiry d.view).course = .search holder) :
    k.evaluateFresh (.ofDirectory d) r =
      (((r.inquiry d.view).search holder).eval (Store.fresh k.catalog (.ofDirectory d))).map
        fun finding => r.report finding.decision finding.grant? := by
  have hanswer := (r.inquiry d.view).eval_follow_search (Store.fresh k.catalog (.ofDirectory d))
    holder
  rw [← hcourse, ← Inquiry.answer_eq_follow] at hanswer
  unfold evaluateFresh
  rw [hsettled]
  show (r.reading d.view).eval _ = _
  rw [r.reading_eval, hanswer]
  cases ((r.inquiry d.view).search holder).eval (Store.fresh k.catalog (.ofDirectory d)) <;> rfl

/-- A check that ends without an error was not stopped by the rules before the grants. -/
theorem settled_of_uncached {d : Directory} {r : Request} {evaluation : Evaluation}
    (h : k.uncached d r = .ok evaluation) : ∃ verdict, r.settled = .ok verdict := by
  cases hsettled : r.settled with
  | error e =>
    unfold uncached evaluate at h
    rw [hsettled] at h
    cases h
  | ok verdict => exact ⟨verdict, rfl⟩

/-- Who is allowed something by a search can ask for the grant, and is its grantee. -/
theorem exists_deciding {d : Directory} {r : Request} {holder : Option Entry}
    {evaluation : Evaluation} (hsettled : r.settled = .ok none)
    (hcourse : (r.inquiry d.view).course = .search holder)
    (h : k.uncached d r = .ok evaluation) (hallow : evaluation.decision = .allow) :
    ∃ g tier via, k.uncached d { r with wantsVia := true } = .ok ⟨.allow, some via⟩ ∧
      via.granteeType = g.granteeType ∧ via.grantee = g.grantee ∧ via.negative = g.denies ∧
      g.denies = false ∧ tier ∈ Tier.all r.right.isUserRight ∧
      (r.inquiry d.view).Answers tier g := by
  have hsilent := k.uncached_unplaced d r
  have htold := k.uncached_unplaced d { r with wantsVia := true }
  -- The two requests make the same search.
  rw [h, evaluateFresh_of_search hsettled hcourse] at hsilent
  rw [evaluateFresh_of_search (r := { r with wantsVia := true }) hsettled hcourse] at htold
  cases hfinding : ((r.inquiry d.view).search holder).eval
      (Store.fresh k.catalog (.ofDirectory d)) with
  | error e =>
    rw [hfinding] at hsilent
    cases hsilent
  | ok finding =>
    rw [hfinding] at hsilent
    have hdecision : evaluation.decision = finding.decision :=
      congrArg Evaluation.decision (Except.ok.inj hsilent)
    have hallowed : finding.decision = .allow := hdecision.symm.trans hallow
    obtain ⟨g, rfl, hpositive⟩ := Inquiry.found_of_allow hallowed
    obtain ⟨tier, htier, hanswers⟩ := Inquiry.answers_of_search rfl hfinding
    have hreport : (k.uncached d { r with wantsVia := true }).map Evaluation.unplaced =
        .ok ⟨(Finding.found g).decision, some (Via.ofGrant g.unplaced)⟩ := by
      rw [htold]
      show Except.map Evaluation.unplaced (Except.map _
        (((r.inquiry d.view).search holder).eval _)) = _
      rw [hfinding]
      rfl
    rw [hallowed] at hreport
    cases hreported : k.uncached d { r with wantsVia := true } with
    | error e =>
      rw [hreported] at hreport
      cases hreport
    | ok reported =>
      rw [hreported] at hreport
      obtain ⟨via, rfl, htype, hgrantee, hnegative⟩ :=
        Evaluation.exists_via_of_unplaced (Except.ok.inj hreport)
      exact ⟨g, tier, via, rfl, htype, hgrantee, hnegative, hpositive, htier, hanswers⟩

end AccessControl

end DirectoryRights
