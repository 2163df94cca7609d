import Mathlib.Data.List.Find
import DirectoryRights.Proofs.DecidingGrant
import DirectoryRights.Proofs.Keeping
import DirectoryRights.Proofs.Loosening

/-!
# Grants for the domains below

A positive grant kept for the domains below an entry is passed over where the entry is the target,
one of its groups or the global grant entry. It counts only for a domain that lies below the entry.
So it can be taken away without a change of any check on other targets, the entry among them.

There is one exception. The border of a domain is read from the grants of the domain itself, and
there nobody asks whether a grant is kept for the domains below. Such a grant of the right that
opens domains opens the very domain that stores it: for the use of this right on the domain, and, in
checks of other rights on targets that live in it, for the groups of other domains.
-/

set_option autoImplicit false

namespace DirectoryRights

namespace Grant

/-- Whether the grant is not kept for the domains below. -/
def countsHere (g : Grant) : Bool :=
  !g.isSubDomain

/-- A grant for the domains below is for use, and it does not deny. -/
theorem isForUse_of_not_countsHere {g : Grant} (h : g.countsHere = false) :
    g.isForUse = true ∧ g.denies = false := by
  unfold countsHere isSubDomain at h
  simp only [Bool.not_eq_false', decide_eq_true_eq] at h
  unfold isForUse isDelegable denies
  rw [h]
  decide

end Grant

namespace DomainBorder

/-- A border does not change with grants that say nothing of it. -/
theorem decide_filter {domainId : String} {delegate : Bool} {p : Grant → Bool} {gs : List Grant}
    (h : ∀ g ∈ gs, p g = false → (concerns domainId g && !(delegate && g.isForUse)) = false) :
    decide domainId delegate (gs.filter p) = decide domainId delegate gs := by
  have hfind : ((gs.filter p).find? fun g => concerns domainId g && !(delegate && g.isForUse)) =
      gs.find? fun g => concerns domainId g && !(delegate && g.isForUse) := by
    rw [List.find?_filter]
    apply List.find?_congr
    intro g hg
    cases hp : p g with
    | true => simp
    | false =>
      have hout := h g hg hp
      simp only [Bool.false_eq_true, false_and, decide_false]
      exact hout.symm
  unfold decide
  rw [hfind]

/-- A grant for the domains below that opens a domain is the only one that does. -/
theorem decide_of_below {domainId : String} {gs : List Grant}
    (hdistinct : (gs.map Grant.slot).Nodup) {g : Grant} (hg : g ∈ gs)
    (hbelow : g.countsHere = false) (hconcerns : concerns domainId g = true) :
    decide domainId false gs = .allow ∧
      decide domainId false (gs.filter Grant.countsHere) = .deny := by
  have honly : ∀ g' ∈ gs, concerns domainId g' = true → g = g' := fun g' hg' hconcerns' =>
    eq_of_concerns hdistinct hg hg' hconcerns hconcerns'
  constructor
  · have hfound : (gs.find? (concerns domainId)).isSome = true :=
      List.find?_isSome.mpr ⟨g, hg, hconcerns⟩
    obtain ⟨g', hg'⟩ := Option.isSome_iff_exists.mp hfound
    obtain rfl := honly g' (List.mem_of_find?_eq_some hg') (List.find?_some hg')
    unfold decide
    simp only [Bool.false_and, Bool.not_false, Bool.and_true]
    rw [hg']
    simp only [(Grant.isForUse_of_not_countsHere hbelow).2]
    rfl
  · have hnone : (gs.filter Grant.countsHere).find? (concerns domainId) = none := by
      rw [List.find?_eq_none]
      intro g' hg' hconcerns'
      obtain ⟨hmem, hhere⟩ := List.mem_filter.mp hg'
      rw [← honly g' hmem hconcerns', hbelow] at hhere
      cases hhere
    unfold decide
    simp only [Bool.false_and, Bool.not_false, Bool.and_true]
    rw [hnone]

end DomainBorder

/-- The grants of an answer in the order of the search, without those kept for the domains below. -/
def GrantAnswer.here (a : GrantAnswer) : Except Error (List Grant) :=
  a.map fun set => (set.elim [] GrantSet.all).filter Grant.countsHere

/-- What counts here stays when the grants for the domains below are taken away. -/
theorem GrantAnswer.here_kept (a : GrantAnswer) : (a.kept Grant.countsHere).here = a.here := by
  cases a with
  | error e => rfl
  | ok set =>
    show Except.ok (List.filter Grant.countsHere _) = Except.ok _
    simp only [GrantSet.elim_kept, List.filter_filter, Bool.and_self]

/-- Whether a grant kept for the domains below opens the entry to the admins of a domain. -/
def GrantAnswer.opensBelow (a : GrantAnswer) (holder : Entry) : Bool :=
  a.grants.any fun g => g.isSubDomain && DomainBorder.concerns holder.id.text g

/-- Whether an entry is opened in this way does not depend on where its grants were found. -/
theorem GrantAnswer.opensBelow_unplaced (a : GrantAnswer) (holder : Entry) :
    a.unplaced.opensBelow holder = a.opensBelow holder := by
  rcases a with e | set | set
  · rfl
  · rfl
  · exact List.any_map

namespace Inquiry

variable {q : Inquiry} {source other : Entry → GrantAnswer}

/-- Where the target is not one of the domains below, positive grants kept for these do not
apply. -/
theorem countsHere_of_concerns {g : Grant} (h : q.concerns false g = true) :
    g.countsHere = true := by
  rw [← applies_iff] at h
  rcases h.placed with hdeny | hplain
  · cases hcounts : g.countsHere with
    | true => rfl
    | false =>
      rw [(Grant.isForUse_of_not_countsHere hcounts).2] at hdeny
      cases hdeny
  · unfold Grant.countsHere
    rw [hplain]
    rfl

/-- Where the target is not one of the domains below, grants for these are no candidates. -/
theorem candidates_countsHere (gs : List Grant) :
    q.candidates false (gs.filter Grant.countsHere) = q.candidates false gs := by
  unfold candidates
  congr 1
  funext tier
  congr 1
  rw [List.filter_filter]
  apply List.filter_congr
  intro g _
  cases hconcerns : q.concerns false g with
  | true => rw [countsHere_of_concerns hconcerns, Bool.and_true]
  | false => simp

/-- Levels whose grants differ only in those kept for the domains below lead a search on in the same
way, unless the target is one of these domains. -/
theorem sameSearch_of_countsHere {gs gs' : List Grant}
    (h : gs'.filter Grant.countsHere = gs.filter Grant.countsHere) :
    q.SameSearch id (.ok ⟨false, gs'⟩) (.ok ⟨false, gs⟩) := by
  have hcandidates : q.candidates false gs' = q.candidates false gs := by
    rw [← candidates_countsHere, h, candidates_countsHere]
  apply SameSearch.ok
  · simp only [hcandidates]
  · simp only [hcandidates]

/-- Entries of which the same counts here lead a search on in the same way. -/
theorem sameSearch_of_here {a a' : GrantAnswer} (h : a'.here = a.here) :
    q.SameSearch id (Level.ofAnswer false a') (Level.ofAnswer false a) := by
  cases a with
  | error e =>
    cases a' with
    | error e' =>
      cases h
      exact .error e
    | ok set' => cases h
  | ok set =>
    cases a' with
    | error e' => cases h
    | ok set' => exact sameSearch_of_countsHere (Except.ok.inj h)

/-- What counts of the grants of a group that pass a test is what passes it of those that count. -/
theorem inherited_filter (p : Grant → Bool) (direct positive : Bool) (gs : List Grant) :
    (inherited direct positive gs).filter p = inherited direct positive (gs.filter p) := by
  unfold inherited
  rw [List.filter_filter, List.filter_filter]
  apply List.filter_congr
  intro g _
  exact Bool.and_comm _ _

/-- Of the grants that are gathered of groups, those that count here can be gathered group by
group. -/
theorem gather_here_cons (source : Entry → GrantAnswer) (holder home : Option Entry)
    (group : Entry) (direct : Bool) (rest : List (Entry × Bool)) :
    ((q.gather holder home ((group, direct) :: rest)).eval source).map
        (List.filter Grant.countsHere) =
      (source group).here.bind fun gs =>
        (((q.gather holder home rest).eval source).map (List.filter Grant.countsHere)).map
          fun pool =>
            inherited direct ((q.groupCounts holder home group).eval source) gs ++ pool := by
  rw [gather_cons]
  cases source group with
  | error e => rfl
  | ok set =>
    cases (q.gather holder home rest).eval source with
    | error e => rfl
    | ok pool =>
      show Except.ok (List.filter _ (inherited _ _ _ ++ pool)) = Except.ok _
      rw [List.filter_append, inherited_filter]

/-- Where the same counts here and the same groups count, the same is gathered but for grants for
the domains below. -/
theorem gather_of_here (h : ∀ e, (other e).here = (source e).here) {holder home : Option Entry}
    {groups : List (Entry × Bool)} (hcounts : ∀ group ∈ groups,
      (q.groupCounts holder home group.1).eval other =
        (q.groupCounts holder home group.1).eval source) :
    ((q.gather holder home groups).eval other).map (List.filter Grant.countsHere) =
      ((q.gather holder home groups).eval source).map (List.filter Grant.countsHere) := by
  induction groups with
  | nil => rfl
  | cons group rest ih =>
    obtain ⟨group, direct⟩ := group
    rw [gather_here_cons, gather_here_cons, h, hcounts _ List.mem_cons_self,
      ih fun other hother => hcounts other (List.mem_cons_of_mem _ hother)]

/-- The level of the groups leads a search on in the same way. -/
theorem sameSearch_groupLevel (h : ∀ e, (other e).here = (source e).here)
    {holder home : Option Entry}
    (hcounts : ∀ group ∈ Ancestry.groups q.view q.target q.expandsGroups,
      (q.groupCounts holder home group.1).eval other =
        (q.groupCounts holder home group.1).eval source) :
    q.SameSearch id (q.groupLevel other holder home) (q.groupLevel source holder home) := by
  have hpools := gather_of_here h hcounts
  unfold groupLevel
  generalize (q.gather holder home (Ancestry.groups q.view q.target q.expandsGroups)).eval source =
    pool at hpools
  generalize (q.gather holder home (Ancestry.groups q.view q.target q.expandsGroups)).eval other =
    pool' at hpools
  cases pool with
  | error e =>
    cases pool' with
    | error e' =>
      cases hpools
      exact .error e
    | ok pool' => cases hpools
  | ok pool =>
    cases pool' with
    | error e' => cases hpools
    | ok pool' =>
      apply sameSearch_of_countsHere
      rw [← Grant.ranked_filter, ← Grant.ranked_filter, Except.ok.inj hpools]

/-- The check asks the domain of an id whether it is open to the admins of another: it asks for the
very right that opens domains, to use it on this domain, or the target lives in the domain and has a
group whose grants cross the border. -/
def AsksBorder (q : Inquiry) (holder : Entry) (id : EntryId) : Prop :=
  if q.right.isCrossDomainAdmin = true then q.target.id = id ∧ q.delegate = false
  else ∃ home, q.home = some home ∧ home.id = id ∧
    ∃ group ∈ Ancestry.groups q.view q.target q.expandsGroups, q.CrossesBorder holder home group.1

/-- The use of the right that opens domains asks the target. -/
theorem asksBorder_of_use (holder : Entry) (hright : q.right.isCrossDomainAdmin = true)
    (huse : q.delegate = false) : q.AsksBorder holder q.target.id := by
  unfold AsksBorder
  rw [if_pos hright]
  exact ⟨rfl, huse⟩

/-- Another right asks the domain of the target for a group whose grants cross its border. -/
theorem asksBorder_of_crosses {holder home : Entry} (hright : q.right.isCrossDomainAdmin = false)
    (hlives : q.home = some home) {group : Entry × Bool}
    (hgroup : group ∈ Ancestry.groups q.view q.target q.expandsGroups)
    (hcrosses : q.CrossesBorder holder home group.1) : q.AsksBorder holder home.id := by
  unfold AsksBorder
  rw [if_neg (Bool.not_eq_true _ ▸ hright)]
  exact ⟨home, hlives, rfl, group, hgroup, hcrosses⟩

/-- A search does not change with grants kept for the domains below, unless the target is one of
them or such a grant opens the border that the grants of a group cross. -/
theorem search_of_here {d : Directory} (hview : q.view = d.view) {holder : Option Entry}
    (h : ∀ e, (other e).here = (source e).here)
    (hstops : ∀ stop ∈ q.knownStops d, stop.2 = true → other stop.1 = source stop.1)
    (hcheck : ∀ domain home, holder = some domain → q.home = some home →
      ∀ group ∈ Ancestry.groups q.view q.target q.expandsGroups,
        q.CrossesBorder domain home group.1 →
        (DomainBorder.check domain home false).eval other =
          (DomainBorder.check domain home false).eval source) :
    (q.search holder).eval other = (q.search holder).eval source := by
  have hhome := q.targetHome_eq_home hview
  have hlevels : List.Forall₂ (q.SameSearch id) (q.levels other holder q.home (q.knownStops d))
      (q.levels source holder q.home (q.knownStops d)) := by
    unfold levels
    refine .cons (sameSearch_of_here (h _)) (.cons ?_ ?_)
    · apply sameSearch_groupLevel h
      intro group hgroup
      apply q.groupCounts_of_borders
      intro domain home hholder hlives hcrosses
      rw [hcheck domain home hholder hlives group hgroup hcrosses]
    · rw [List.forall₂_map_left_iff, List.forall₂_map_right_iff, List.forall₂_same]
      rintro ⟨entry, below⟩ hstop
      cases below with
      | false => exact sameSearch_of_here (h entry)
      | true =>
        have hsame : other entry = source entry := hstops (entry, true) hstop rfl
        simp only [hsame]
        exact q.sameSearch_refl id _
  have hscan := q.scan_of_sameSearch hlevels false
  have hid : ∀ x : Except Error Finding, x.map id = x := by
    intro x
    cases x <;> rfl
  rw [hid, hid] at hscan
  rw [q.search_eval other holder q.home _ hhome (q.stops_ofDirectory hview),
    q.search_eval source holder q.home _ hhome (q.stops_ofDirectory hview), hscan]

/-- A check does not change with grants kept for the domains below, unless the target is one of them
or such a grant opens a border that the check asks for. -/
theorem answer_of_here {d : Directory} (hview : q.view = d.view)
    (h : ∀ e, (other e).here = (source e).here)
    (hstops : ∀ stop ∈ q.knownStops d, stop.2 = true → other stop.1 = source stop.1)
    (hcheck : ∀ domain target delegate, q.holder = some domain →
      delegate = true ∨ q.AsksBorder domain target.id →
      (DomainBorder.check domain target delegate).eval other =
        (DomainBorder.check domain target delegate).eval source) :
    q.answer.eval other = q.answer.eval source := by
  rw [answer_eq_follow]
  rcases q.course_cases with hcourse | ⟨e, hcourse⟩ | ⟨domain, hcourse, hholder, hright⟩ |
    ⟨hcourse, hcross⟩
  · rw [hcourse]
    rfl
  · rw [hcourse]
    rfl
  · have hasks : q.delegate = true ∨ q.AsksBorder domain q.target.id := by
      cases huse : q.delegate with
      | true => exact .inl rfl
      | false => exact .inr (asksBorder_of_use domain hright huse)
    rw [hcourse, eval_follow_border, eval_follow_border,
      hcheck domain q.target q.delegate hholder hasks]
  · rw [hcourse, eval_follow_search, eval_follow_search]
    congr 1
    apply search_of_here hview h hstops
    intro domain home hholder hlives group hgroup hcrosses
    refine hcheck domain home false hholder (.inr ?_)
    rcases hcross with hnone | hother
    · rw [hnone] at hholder
      cases hholder
    · exact asksBorder_of_crosses hother hlives hgroup hcrosses

end Inquiry

namespace Directory

/-- The directory in which the entry of an id stores no grants for the domains below it. -/
def withoutSubDomain (c : Catalog) (id : EntryId) (d : Directory) : Directory :=
  d.keeping c Grant.countsHere [id]

variable (d : Directory)

/-- Taking grants away changes nothing about the entries. -/
theorem sameEntries_withoutSubDomain {c : Catalog} {id : EntryId} :
    SameEntries d (d.withoutSubDomain c id) := d.sameEntries_keeping

/-- A domain inherits the grants of the domains above it. -/
theorem domains_of_isDomain {target : Entry} (h : target.isDomain = true) :
    Ancestry.domains d.view target = Ancestry.domainsAbove d.view target := by
  have hkind : target.targetType = .domain := by
    unfold Entry.isDomain at h
    exact of_decide_eq_true h
  have hlives : ¬ target.targetType.livesInDomain = true := by
    rw [hkind]
    decide
  unfold Ancestry.domains
  rw [if_neg hlives, if_pos h]

end Directory

namespace Store

variable {c : Catalog} {d : Directory}

/-- Among the grants that are read of an entry each slot comes once. -/
theorem nodup_of_fresh {e : Entry} {set : Option GrantSet}
    (h : (fresh c (.ofDirectory d) e).unplaced = .ok set) :
    ((set.elim [] GrantSet.all).map Grant.slot).Nodup := by
  rw [fresh_eq] at h
  obtain ⟨read, hread, rfl⟩ := exists_of_map_eq_ok h
  obtain ⟨stored, hparse, rfl⟩ := exists_of_map_eq_ok hread
  rw [GrantSet.present_unplaced, GrantSet.elim_present, GrantSet.all_unplaced, List.map_map]
  exact ((Grant.ranked_perm stored.grants).map Grant.slot).nodup_iff.mpr
    (GrantSet.distinct_of_parse hparse)

/-- What is read of the entry is what was read of it without the grants for the domains below, and
all other entries have what they had. -/
theorem fresh_withoutSubDomain (id : EntryId) (e : Entry) :
    (fresh c (.ofDirectory (d.withoutSubDomain c id)) e).unplaced =
      if e.id = id then (fresh c (.ofDirectory d) e).unplaced.kept Grant.countsHere
      else (fresh c (.ofDirectory d) e).unplaced := by
  unfold Directory.withoutSubDomain
  rw [fresh_keeping fun _ => rfl]
  simp only [List.mem_singleton]

/-- What counts here is the same for every entry. -/
theorem here_withoutSubDomain (id : EntryId) (e : Entry) :
    (fresh c (.ofDirectory (d.withoutSubDomain c id)) e).unplaced.here =
      (fresh c (.ofDirectory d) e).unplaced.here := by
  rw [fresh_withoutSubDomain]
  split
  · exact GrantAnswer.here_kept _
  · rfl

/-- What a domain says of its border does not change, unless the grants that are taken away open
it. -/
theorem check_withoutSubDomain {e holder target : Entry} {delegate : Bool}
    (h : target.id = e.id → (fresh c (.ofDirectory d) e).opensBelow holder = true →
      delegate = true) :
    (DomainBorder.check holder target delegate).eval
        (fun e' => (fresh c (.ofDirectory (d.withoutSubDomain c e.id)) e').unplaced) =
      (DomainBorder.check holder target delegate).eval
        fun e' => (fresh c (.ofDirectory d) e').unplaced := by
  rw [Inquiry.check_eval, Inquiry.check_eval]
  by_cases hid : target.id = e.id
  · rw [fresh_withoutSubDomain, if_pos hid]
    replace h := h hid
    rw [← GrantAnswer.opensBelow_unplaced, ← fresh_unplaced_of_id hid] at h
    generalize (fresh c (.ofDirectory d) target).unplaced = answer at h
    rcases answer with cause | set
    · rfl
    · congr 1
      show Except.ok (DomainBorder.decide _ _ _) = Except.ok (DomainBorder.decide _ _ _)
      rw [GrantSet.elim_kept, DomainBorder.decide_filter]
      intro g hg hbelow
      cases hconcerns : DomainBorder.concerns holder.id.text g with
      | false => rfl
      | true =>
        -- Such a grant is for use only, so that a check of the passing on skips it.
        have hopens : GrantAnswer.opensBelow (.ok set) holder = true := by
          apply List.any_eq_true.mpr
          refine ⟨g, GrantAnswer.mem_grants.mpr hg, ?_⟩
          rw [hconcerns, Bool.and_true]
          simpa [Grant.countsHere] using hbelow
        rw [h hopens, (Grant.isForUse_of_not_countsHere hbelow).1]
        rfl
  · rw [fresh_withoutSubDomain, if_neg hid]

end Store

namespace Sample

/-- The directory in which the second domain lets the admins of the first one open the domains below
it, and the list "team" lets the admin see accounts. -/
def opened : Directory :=
  storing away "33333333-3333-3333-3333-333333333333 dom *crossDomainAdmin"
    (storing team adminLine domains)

/-- The directory in which moreover the list "staff" lets the admin add members to it. -/
def staffed : Directory :=
  storing staff memberLine opened

end Sample

namespace AccessControl

variable {k : AccessControl}

/-- A check on a target that is not a domain below an entry does not change when the grants for the
domains below are taken from the entry, unless one of them opens the entry to the principal and the
check asks whether the entry is open. -/
theorem uncached_withoutSubDomain {d : Directory} {e : Entry} {r : Request}
    (hbelow : r.target.isDomain = true →
      ∀ domain ∈ Ancestry.domainsAbove d.view r.target, domain.id ≠ e.id)
    (hborder : ∀ holder, (r.inquiry d.view).holder = some holder →
      (Store.fresh k.catalog (.ofDirectory d) e).opensBelow holder = true →
      ¬ (r.inquiry d.view).AsksBorder holder e.id) :
    (k.uncached (d.withoutSubDomain k.catalog e.id) r).map Evaluation.unplaced =
      (k.uncached d r).map Evaluation.unplaced := by
  apply uncached_congr d.sameEntries_withoutSubDomain.view
  apply Inquiry.answer_of_here rfl
  · intro entry
    exact Store.here_withoutSubDomain e.id entry
  · intro stop hstop hcounts
    rw [Store.fresh_withoutSubDomain, if_neg]
    intro hid
    unfold Inquiry.knownStops at hstop
    rcases List.mem_append.mp hstop with hdomain | hlast
    · obtain ⟨domain, hmem, rfl⟩ := List.mem_map.mp hdomain
      have htarget : r.target.isDomain = true := hcounts
      rw [← d.domains_of_isDomain htarget] at hbelow
      exact hbelow htarget domain hmem hid
    · split at hlast
      · cases hlast
      · rw [List.mem_singleton] at hlast
        rw [hlast] at hcounts
        cases hcounts
  · intro holder target delegate hholder hasks
    apply Store.check_withoutSubDomain
    intro hid hopens
    rw [hid] at hasks
    exact hasks.resolve_right (hborder holder hholder hopens)

/-- A grant for the domains below that opens its own domain to the principal decides the check of
this right on the domain. -/
theorem decision_of_opensBelow {d : Directory} {r : Request} {holder : Entry}
    (hsettled : r.settled = .ok none) (hcourse : (r.inquiry d.view).course = .border holder)
    (huse : r.delegate = false) (hdomain : r.target.isDomain = true)
    (hopens : (Store.fresh k.catalog (.ofDirectory d) r.target).opensBelow holder = true) :
    (k.uncached d r).map Evaluation.decision = .ok .allow ∧
      (k.uncached (d.withoutSubDomain k.catalog r.target.id) r).map Evaluation.decision =
        .ok .deny := by
  have hdecided : ∀ d' : Directory, d'.view = d.view →
      (k.uncached d' r).map Evaluation.decision =
        (Store.fresh k.catalog (.ofDirectory d') r.target).unplaced.map fun set =>
          DomainBorder.decide holder.id.text false (set.elim [] GrantSet.all) := by
    intro d' hview
    have hcheck : (DomainBorder.check holder r.target r.delegate).eval
          (fun e => (Store.fresh k.catalog (.ofDirectory d') e).unplaced) =
        (Store.fresh k.catalog (.ofDirectory d') r.target).unplaced.map fun set =>
          DomainBorder.decide holder.id.text false (set.elim [] GrantSet.all) := by
      rw [Inquiry.check_eval, if_pos hdomain, huse]
    rw [k.decision_uncached]
    unfold decided answered
    rw [hsettled, hview, Inquiry.answer_eq_follow, hcourse, Inquiry.eval_follow_border,
      ← DomainBorder.check_unplaced]
    show Except.map Prod.fst (Except.map _
      ((DomainBorder.check holder r.target r.delegate).eval _)) = _
    rw [hcheck]
    cases (Store.fresh k.catalog (.ofDirectory d') r.target).unplaced <;> rfl
  rw [hdecided d rfl, hdecided _ d.sameEntries_withoutSubDomain.view,
    Store.fresh_withoutSubDomain, if_pos rfl]
  rw [← GrantAnswer.opensBelow_unplaced] at hopens
  cases hanswer : (Store.fresh k.catalog (.ofDirectory d) r.target).unplaced with
  | error cause =>
    rw [hanswer] at hopens
    cases hopens
  | ok set =>
    rw [hanswer] at hopens
    obtain ⟨g, hg, hopen⟩ := List.any_eq_true.mp hopens
    obtain ⟨hbelow, hconcerns⟩ := Bool.and_eq_true _ _ ▸ hopen
    have hhere : g.countsHere = false := by
      unfold Grant.countsHere
      rw [hbelow]
      rfl
    obtain ⟨hallow, hdeny⟩ := DomainBorder.decide_of_below (Store.nodup_of_fresh hanswer)
      (GrantAnswer.mem_grants.mp hg) hhere hconcerns
    constructor
    · exact congrArg Except.ok hallow
    · show Except.ok (DomainBorder.decide _ _ (Option.elim _ _ _)) = _
      rw [GrantSet.elim_kept, hdeny]

/-- Neither whether the admin may pass on the right to open the second domain nor whether the admin
may add members to a list of this domain, which is in no list itself, is a matter of the grant that
this domain keeps for the domains below. -/
theorem uncached_withoutSubDomain_sample :
    (Sample.office.uncached
        (Sample.opened.withoutSubDomain Sample.office.catalog Sample.away.id)
        { Request.ofRight (.entry Sample.admin) Sample.away Sample.opening with
          delegate := true }).map Evaluation.unplaced = .ok (.bare .deny) ∧
      (Sample.office.uncached
        (Sample.staffed.withoutSubDomain Sample.office.catalog Sample.away.id)
        (.ofRight (.entry Sample.admin) Sample.staff Sample.addMember)).map Evaluation.unplaced =
          .ok (.bare .allow) := by
  constructor
  · have hdeny : Sample.office.uncached Sample.opened
        { Request.ofRight (.entry Sample.admin) Sample.away Sample.opening with
          delegate := true } = .ok (.bare .deny) := by
      decide +kernel
    have hbelow : ∀ domain ∈ Ancestry.domainsAbove Sample.opened.view Sample.away,
        domain.id ≠ Sample.away.id := by
      decide +kernel
    have h := uncached_withoutSubDomain (k := Sample.office) (d := Sample.opened)
      (e := Sample.away) (r := { Request.ofRight (.entry Sample.admin) Sample.away Sample.opening
        with delegate := true }) (fun _ => hbelow) fun _ _ _ hasks => Bool.noConfusion hasks.2
    rw [hdeny] at h
    exact h
  · have hallow : Sample.office.uncached Sample.staffed
        (.ofRight (.entry Sample.admin) Sample.staff Sample.addMember) = .ok (.bare .allow) := by
      decide +kernel
    have hgroups : Ancestry.groups Sample.staffed.view Sample.staff true = [] := by
      decide +kernel
    have h := uncached_withoutSubDomain (k := Sample.office) (d := Sample.staffed)
      (e := Sample.away) (r := .ofRight (.entry Sample.admin) Sample.staff Sample.addMember)
      (fun hdomain => Bool.noConfusion hdomain) <| by
        rintro _ _ _ ⟨-, -, -, group, hgroup, -⟩
        have hmem : group ∈ Ancestry.groups Sample.staffed.view Sample.staff true := hgroup
        rw [hgroups] at hmem
        cases hmem
    rw [hallow] at h
    exact h

/-- The grant that is kept for the domains below opens the domain that stores it: the admin is
allowed to open it, and the list of the first domain counts on the account in the second one. -/
theorem opened_by_subDomain :
    Catalog.ofDefinitions Sample.officeDefinitions = .ok Sample.office.catalog ∧
      (∀ domain ∈ Ancestry.domainsAbove Sample.opened.view Sample.away,
        domain.id ≠ Sample.away.id) ∧
      ∀ x ∈ [(.ofRight (.entry Sample.admin) Sample.away Sample.opening, Decision.deny),
          (Sample.listing Sample.alice, Decision.undecided)],
        Sample.office.uncached Sample.opened x.1 = .ok (.bare .allow) ∧
        Sample.office.uncached (Sample.opened.withoutSubDomain Sample.office.catalog
          Sample.away.id) x.1 = .ok (.bare x.2) := by
  refine ⟨Sample.office_catalog_built, ?_, ?_⟩
  · decide +kernel
  · decide +kernel

end AccessControl

end DirectoryRights
