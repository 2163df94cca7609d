import DirectoryRights.Proofs.CacheTransparency
import DirectoryRights.Proofs.Interleaving

/-!
# What a change leaves out of date

A change drops what the memories know of the old lines when it writes the new ones, and never again.
A check that has read the old lines by then may still store what it read, and record the decision
that it comes to. What is out of date in the end came about in this way: it is the set that the
check was about to store when the lines were written, or the decision of a search that was under way
at this moment. Everything else in the memories is true of the new lines.
-/

set_option autoImplicit false

namespace DirectoryRights

/-- Where the memories may be wrong. -/
structure Doubts where
  /-- The sets that an entry may wrongly have in the memo. -/
  stale : EntryId → GrantSet → Prop
  /-- The targets whose decisions are still to be dropped. -/
  dropped : EntryId → Prop
  /-- The decision of the check itself is in doubt. -/
  own : Prop

/-- The memories are right. -/
def Doubts.none : Doubts where
  stale _ _ := False
  dropped _ := False
  own := False

/-- A set is known from what checks see of it. -/
theorem Store.present_injective : Function.Injective Store.present := by
  intro s t h
  unfold Store.present GrantSet.isEmpty at h
  obtain ⟨sgrants⟩ := s
  obtain ⟨tgrants⟩ := t
  cases sgrants <;> cases tgrants <;> simp at h ⊢
  exact h

namespace AccessControl

variable (k : AccessControl) (known : Entry → Prop) (r : Request)

/-- A decision is that of a search now, for whoever may ask for it. -/
def Current (st : AccessState) (id : EntryId) (key : DecisionKey) (decision : Decision) : Prop :=
  ∀ s : Request, s.Within known k.catalog → s.target.id = id →
    DecisionMemo.key? s.principal s.right s.delegate = some key → s.target.isPseudo = false ∧
      answered st.store.directory (Store.fresh k.catalog st.store) s = .ok decision

/-- The memories tell the truth about the directory but where they are in doubt. -/
structure FaithfulBut (doubts : Doubts) (st : AccessState) : Prop where
  /-- The directory is in service. -/
  outages : st.store.outages = []
  /-- The entries in use are told apart by their ids. -/
  coherent : st.store.directory.Coherent known
  /-- The store answers with what is stored, or with a set that is in doubt. -/
  memo : ∀ e, (∃ set, st.store.memo.get? e.id = some set ∧ doubts.stale e.id set) ∨
    (Store.recalled k.catalog st.store e).unplaced = (Store.fresh k.catalog st.store e).unplaced
  /-- A remembered decision is current or in doubt. -/
  decisions : ∀ cache, st.cache = some cache → ∀ id key decision,
    cache.Remembers id key decision →
      doubts.dropped id ∨
      (doubts.own ∧ id = r.target.id ∧
        DecisionMemo.key? r.principal r.right r.delegate = some key) ∨
      Current k known st id key decision

/-- What the check at its phase will store and record is true of the directory or in doubt. -/
structure Reliable (doubts : Doubts) (p : CheckPhase × AccessState) : Prop where
  /-- Before the search no set is out of date. -/
  begun : p.1 = .probing → ∀ id set, ¬ doubts.stale id set
  /-- The set that is to be stored is what the lines say. -/
  set : ∀ e set next, p.1 = .storing e set next →
    doubts.stale e.id set ∨ p.2.store.read k.catalog e = .ok set
  /-- The search will find the decision that the stored grants make. -/
  outcome : p.1.underWay = true → doubts.own ∨
    (CheckPhase.complete k r p).1.map Evaluation.decision =
      answered p.2.store.directory (Store.fresh k.catalog p.2.store) r

variable {k known r}

/-- Without doubts the memories are faithful. -/
theorem faithfulBut_none {st : AccessState} (h : Faithful k known st) :
    FaithfulBut k known r .none st := by
  refine ⟨h.outages, h.coherent, fun e => .inr (h.memo e), ?_⟩
  intro cache hcache id key decision hremembers
  exact .inr (.inr (h.decisions cache hcache id key decision hremembers))

/-- A check that has read nothing yet will store nothing that is false. -/
theorem reliable_probing (st : AccessState) : Reliable k r .none (.probing, st) := by
  refine ⟨fun _ id set hstale => hstale, ?_, ?_⟩
  · intro e set next hphase
    cases hphase
  · intro hunderWay
    cases hunderWay

/-- A check that is over will store nothing more. -/
theorem reliable_finished (doubts : Doubts) (outcome : Except Error Evaluation)
    (st : AccessState) : Reliable k r doubts (.finished outcome, st) := by
  refine ⟨?_, ?_, ?_⟩
  · intro hphase
    cases hphase
  · intro e set next hphase
    cases hphase
  · intro hunderWay
    cases hunderWay

/-- The memo of an entry whose answer is right says what is stored. -/
theorem read_of_recalled {c : Catalog} {s : Store} {e : Entry} {set : GrantSet}
    (hmemo : s.memo.get? e.id = some set)
    (h : (Store.recalled c s e).unplaced = (Store.fresh c s e).unplaced) :
    (s.read c e).map GrantSet.unplaced = .ok set.unplaced := by
  unfold Store.recalled Store.fresh at h
  rw [Store.grantsOf_of_remembered c hmemo] at h
  cases hread : s.read c e with
  | error cause =>
    rw [hread] at h
    cases h
  | ok own =>
    rw [hread] at h
    have hpresent : (Store.present set).map GrantSet.unplaced =
        (Store.present own).map GrantSet.unplaced := Except.ok.inj h
    rw [GrantSet.present_unplaced, GrantSet.present_unplaced] at hpresent
    exact congrArg Except.ok (Store.present_injective hpresent).symm

/-! ## Steps of the check -/

variable {doubts : Doubts} {st : AccessState}

/-- A remembered set that is read or in doubt leaves the memo right or in doubt. -/
theorem FaithfulBut.storing (h : FaithfulBut k known r doubts st) {e : Entry} {set : GrantSet}
    (hset : doubts.stale e.id set ∨ st.store.read k.catalog e = .ok set) :
    FaithfulBut k known r doubts (st.storing e set) := by
  refine ⟨h.outages, h.coherent, fun f => ?_, h.decisions⟩
  have hmemo : (st.storing e set).store.memo.get? f.id =
      if f.id = e.id then some set else st.store.memo.get? f.id := by
    simp [AccessState.storing, Store.remember, Table.get?_insert]
  by_cases hid : f.id = e.id
  · rw [if_pos hid] at hmemo
    rcases hset with hstale | hread
    · exact .inl ⟨set, hmemo, hid ▸ hstale⟩
    · have hfresh : Store.fresh k.catalog st.store e = .ok (Store.present set) := by
        unfold Store.fresh
        rw [hread]
        rfl
      have hrecalled : Store.recalled k.catalog (st.storing e set).store f =
          .ok (Store.present set) := by
        unfold Store.recalled
        rw [Store.grantsOf_of_remembered k.catalog hmemo]
      -- The set may be asked for by another entry of this id, which stores the same lines.
      have hsame := Store.fresh_unplaced_of_id (c := k.catalog) (d := st.store.directory) hid
      rw [Store.fresh_ofDirectory h.outages, hfresh] at hsame
      exact .inr ((congrArg GrantAnswer.unplaced hrecalled).trans hsame.symm)
  · rw [if_neg hid] at hmemo
    rw [hmemo, recalled_congr hmemo rfl]
    exact h.memo f

/-- The recorded decision of a search is current or in doubt. -/
theorem FaithfulBut.recorded (h : FaithfulBut k known r doubts st) (hc : k.catalog.Slotted)
    (hr : r.Within known k.catalog) {outcome : Except Error Evaluation}
    (houtcome : doubts.own ∨ outcome.map Evaluation.decision =
      answered st.store.directory (Store.fresh k.catalog st.store) r) :
    FaithfulBut k known r doubts (st.recorded r outcome) := by
  refine ⟨h.outages, h.coherent, h.memo, ?_⟩
  intro cache hcache id key decision hremembers
  by_cases hvia : r.wantsVia = true
  · unfold AccessState.recorded at hcache
    rw [if_pos hvia] at hcache
    exact h.decisions cache hcache id key decision hremembers
  · unfold AccessState.recorded at hcache
    rw [if_neg hvia] at hcache
    obtain ⟨old, hold, rfl⟩ := Option.map_eq_some_iff.mp hcache
    cases outcome with
    | error e => exact h.decisions old hold id key decision hremembers
    | ok evaluation =>
      rcases DecisionMemo.remembers_of_put hremembers with hbefore | ⟨hown, hkey, rfl, hreal⟩
      · exact h.decisions old hold id key decision hbefore
      · rcases houtcome with hdoubt | hfound
        · exact .inr (.inl ⟨hdoubt, hown, hkey⟩)
        · refine .inr (.inr fun s hs hid hskey => ?_)
          have hsame := inquiry_eq_of_key h.coherent hc hs hr (hid.trans hown) hskey hkey
          have htarget : s.target = r.target := congrArg Inquiry.target (hsame st.store.view)
          refine ⟨htarget ▸ hreal, ?_⟩
          show answered st.store.directory (Store.fresh k.catalog st.store) s = _
          unfold answered at hfound ⊢
          rw [hsame, ← hfound]
          rfl

/-- Before a search that reads a memo without stale sets it is settled what will be found. -/
theorem FaithfulBut.reliable_searching (h : FaithfulBut k known r doubts st)
    (hfresh : ∀ id set, ¬ doubts.stale id set) :
    Reliable k r doubts (.searching (r.reading st.store.view), st) := by
  refine ⟨?_, ?_, fun _ => .inr ?_⟩
  · intro hphase
    cases hphase
  · intro e set next hphase
    cases hphase
  · have hmemo : ∀ e, (Store.recalled k.catalog st.store e).unplaced =
        (Store.fresh k.catalog st.store e).unplaced := by
      intro e
      rcases h.memo e with ⟨set, -, hstale⟩ | hsame
      · exact absurd hstale (hfresh e.id set)
      · exact hsame
    have hdecision := (k.search_spec h.outages r).1
    rw [answered_congr r hmemo] at hdecision
    exact hdecision

/-- After a step of a search under way what will be found is the same. -/
theorem Reliable.outcome_advance {p : CheckPhase × AccessState} (h : Reliable k r doubts p)
    (hunderWay : p.1.underWay = true) (hs : p.2.store.outages = []) :
    doubts.own ∨ (CheckPhase.complete k r (CheckPhase.advance k r p)).1.map Evaluation.decision =
      answered (CheckPhase.advance k r p).2.store.directory
        (Store.fresh k.catalog (CheckPhase.advance k r p).2.store) r := by
  obtain ⟨hdirectory, houtages⟩ := CheckPhase.advance_directory (k := k) (r := r) p
  have hfresh : Store.fresh k.catalog (CheckPhase.advance k r p).2.store =
      Store.fresh k.catalog p.2.store := by
    rw [← Store.fresh_ofDirectory hs, ← Store.fresh_ofDirectory (houtages.trans hs), hdirectory]
  rw [CheckPhase.complete_advance, hdirectory, hfresh]
  exact h.outcome hunderWay

/-- A step of the check keeps the memories right or in doubt, and so will the next ones. -/
theorem FaithfulBut.advance {phase : CheckPhase} (h : FaithfulBut k known r doubts st)
    (hreliable : Reliable k r doubts (phase, st)) (hc : k.catalog.Slotted)
    (hr : r.Within known k.catalog) :
    FaithfulBut k known r doubts (CheckPhase.advance k r (phase, st)).2 ∧
      Reliable k r doubts (CheckPhase.advance k r (phase, st)) := by
  cases phase with
  | probing =>
    rcases CheckPhase.advance_probing (k := k) (r := r) st with ⟨outcome, -, hstep⟩ | ⟨-, hstep⟩
    · rw [hstep]
      exact ⟨h, reliable_finished _ _ _⟩
    · rw [hstep]
      exact ⟨h, h.reliable_searching (hreliable.begun rfl)⟩
  | searching rest =>
    have houtcome := hreliable.outcome_advance rfl h.outages
    cases rest with
    | done outcome => exact ⟨h.recorded hc hr (hreliable.outcome rfl), reliable_finished _ _ _⟩
    | ask e next =>
      rcases CheckPhase.advance_asking (k := k) (r := r) e next st with
        ⟨set, -, hstep⟩ | ⟨-, hstep⟩
      · rw [hstep] at houtcome ⊢
        exact ⟨h, by simp, by simp, fun _ => houtcome⟩
      · rw [hstep] at houtcome ⊢
        exact ⟨h, by simp, by simp, fun _ => houtcome⟩
  | loading e next =>
    have houtcome := hreliable.outcome_advance rfl h.outages
    rcases CheckPhase.advance_loading (k := k) (r := r) e next st with
      ⟨cause, -, hstep⟩ | ⟨set, hread, hstep⟩
    · rw [hstep] at houtcome ⊢
      exact ⟨h, by simp, by simp, fun _ => houtcome⟩
    · rw [hstep] at houtcome ⊢
      refine ⟨h, by simp, ?_, fun _ => houtcome⟩
      intro f other rest hphase
      cases hphase
      exact .inr hread
  | storing e set next =>
    have houtcome := hreliable.outcome_advance rfl h.outages
    exact ⟨h.storing (hreliable.set e set next rfl), by simp [CheckPhase.advance],
      by simp [CheckPhase.advance], fun _ => houtcome⟩
  | finished outcome => exact ⟨h, reliable_finished _ _ _⟩

/-! ## Steps of the change -/

/-- What is in doubt once the lines of an entry are written while the check is at a phase. -/
def doubtsOfWrite (target : Entry) (phase : CheckPhase) : Doubts where
  stale id set := id = target.id ∧ ∃ e next, phase = .storing e set next ∧ e.id = id
  dropped id := target.isAccount = true → id = target.id
  own := phase.underWay = true

/-- Where a store answered with what is stored, it does so after lines were written. -/
theorem recalled_of_written {c : Catalog} {s t : Store} {target e : Entry} {lines : List String}
    (hs : s.outages = []) (ht : Store.Written target lines s t)
    (h : (Store.recalled c s e).unplaced = (Store.fresh c s e).unplaced) :
    (Store.recalled c t e).unplaced = (Store.fresh c t e).unplaced := by
  have hmemo : t.memo.get? e.id = if e.id = target.id then none else s.memo.get? e.id := by
    rw [ht.memo, Table.get?_erase]
  by_cases hid : e.id = target.id
  · rw [if_pos hid] at hmemo
    rw [Store.recalled_of_forgotten hmemo]
  · rw [if_neg hid] at hmemo
    have hread := ht.read_other (c := c) hs hid
    have hfresh : Store.fresh c t e = Store.fresh c s e := by
      unfold Store.fresh
      rw [hread]
    rw [recalled_congr hmemo hread, hfresh]
    exact h

/-- The lines are written. What is remembered may be wrong only where it is still to be dropped. -/
theorem FaithfulBut.write (phase : CheckPhase) (h : FaithfulBut k known r .none st)
    {target : Entry} (htarget : known target) {lines : List String} {t : Store}
    (ht : Store.Written target lines st.store t) :
    FaithfulBut k known r (doubtsOfWrite target phase) { st with store := t } := by
  refine ⟨ht.outages.trans h.outages, ht.entries.coherent h.coherent, fun e => .inr ?_, ?_⟩
  · exact recalled_of_written h.outages ht ((h.memo e).resolve_left fun ⟨_, _, hno⟩ => hno)
  · intro cache hcache id key decision hremembers
    by_cases hdropped : target.isAccount = true → id = target.id
    · exact .inl hdropped
    -- What is left is about another target than the account, and no search there asks for it.
    · obtain ⟨haccount, hother⟩ := Classical.not_imp.mp hdropped
      refine .inr (.inr fun s hs hid hkey => ?_)
      rcases h.decisions cache hcache id key decision hremembers with hno | ⟨hno, -⟩ | hcurrent
      · exact hno.elim
      · exact hno.elim
      · obtain ⟨hreal, htrue⟩ := hcurrent s hs hid hkey
        refine ⟨hreal, ?_⟩
        rw [← htrue]
        exact answered_of_written h.outages h.coherent ht htarget haccount hs.target hreal
          (hid ▸ hother)

/-- The lines are written. What the check has found so far may be wrong from now on. -/
theorem Reliable.write {phase : CheckPhase} (h : Reliable k r .none (phase, st))
    (hs : st.store.outages = []) {target : Entry} {lines : List String} {t : Store}
    (ht : Store.Written target lines st.store t) :
    Reliable k r (doubtsOfWrite target phase) (phase, { st with store := t }) := by
  refine ⟨?_, ?_, fun hunderWay => .inl hunderWay⟩
  · rintro hphase id set ⟨-, e, next, hstoring, -⟩
    have hsame : CheckPhase.probing = .storing e set next := hphase.symm.trans hstoring
    cases hsame
  · intro e set next hphase
    by_cases hid : e.id = target.id
    · exact .inl ⟨hid, e, next, hphase, rfl⟩
    · right
      show t.read k.catalog e = .ok set
      rw [ht.read_other hs hid]
      exact (h.set e set next hphase).resolve_left id

/-- Decisions that rest on the old lines are dropped. -/
theorem FaithfulBut.invalidate {target : Entry} (h : FaithfulBut k known r doubts st)
    (hdropped : ∀ id, doubts.dropped id → target.isAccount = true → id = target.id) :
    FaithfulBut k known r { doubts with dropped := fun _ => False }
      { st with cache := st.cache.map (·.invalidate target) } := by
  refine ⟨h.outages, h.coherent, h.memo, ?_⟩
  intro cache hcache id key decision hremembers
  obtain ⟨old, hold, rfl⟩ := Option.map_eq_some_iff.mp hcache
  obtain ⟨hbefore, haccount, hother⟩ := DecisionMemo.remembers_of_invalidate hremembers
  rcases h.decisions old hold id key decision hbefore with hdoubt | hrest
  · exact absurd (hdropped id hdoubt haccount) hother
  · exact .inr hrest

/-- Dropping decisions does not touch what the check has found. -/
theorem Reliable.invalidate {phase : CheckPhase} (h : Reliable k r doubts (phase, st))
    (cache : Option DecisionMemo) :
    Reliable k r { doubts with dropped := fun _ => False } (phase, { st with cache }) := by
  refine ⟨h.begun, h.set, fun hunderWay => ?_⟩
  have hsame : (CheckPhase.complete k r (phase, { st with cache })).1 =
      (CheckPhase.complete k r (phase, st)).1 :=
    CheckPhase.complete_of_store hunderWay rfl
  rw [hsame]
  exact h.outcome hunderWay

end AccessControl

/-! ## Both -/

namespace Scene

/-- What is in doubt: before the lines are written nothing, then what the write put in doubt, and
after the last step no more what was dropped. -/
def doubts (target : Entry) (sc : Scene) : Doubts :=
  match sc.met with
  | none => .none
  | some phase =>
    if sc.change.isInvalidating then AccessControl.doubtsOfWrite target phase
    else { AccessControl.doubtsOfWrite target phase with dropped := fun _ => False }

variable (k : AccessControl) (known : Entry → Prop) (r : Request) (change : Change)

/-- The memories are right or in doubt, and will be after the next steps of the check. -/
structure Sound (sc : Scene) : Prop where
  /-- So are the memories. -/
  faithful : AccessControl.FaithfulBut k known r (sc.doubts change.target) sc.state
  /-- So is what the check has found. -/
  reliable : AccessControl.Reliable k r (sc.doubts change.target) (sc.check, sc.state)
  /-- Before the lines are written nobody has seen them written. -/
  unmet : sc.change.isBeforeWrite = true → sc.met = none
  /-- Decisions are dropped only after the lines are written. -/
  met : sc.change.isInvalidating = true → sc.met ≠ none

variable {k known r change}

/-- At the start the memories are right, if they tell the truth about the directory. -/
theorem sound_start {st : AccessState} (h : AccessControl.Faithful k known st) :
    (start st).Sound k known r change where
  faithful := AccessControl.faithfulBut_none h
  reliable := AccessControl.reliable_probing st
  unmet _ := rfl
  met h := by cases h

/-- A step of the check keeps a scene sound. -/
theorem Sound.step_check {sc : Scene} (h : sc.Sound k known r change) (hc : k.catalog.Slotted)
    (hr : r.Within known k.catalog) : (sc.step k r change .check).Sound k known r change := by
  obtain ⟨hfaithful, hreliable⟩ := h.faithful.advance h.reliable hc hr
  exact ⟨hfaithful, hreliable, h.unmet, h.met⟩

/-- A change that goes on without writing keeps a scene sound. -/
theorem Sound.unwritten {sc : Scene} (h : sc.Sound k known r change) (hunmet : sc.met = none)
    {after : ChangePhase} (hafter : after.isInvalidating = false) :
    ({ sc with change := after } : Scene).Sound k known r change := by
  have hdoubts : ({ sc with change := after } : Scene).doubts change.target =
      sc.doubts change.target := by
    unfold doubts
    rw [hunmet]
  refine ⟨hdoubts ▸ h.faithful, hdoubts ▸ h.reliable, fun _ => hunmet, ?_⟩
  intro hinvalidating
  rw [hafter] at hinvalidating
  cases hinvalidating

/-- A step of the change keeps a scene sound. -/
theorem Sound.step_change {sc : Scene} (h : sc.Sound k known r change)
    (htarget : known change.target) : (sc.step k r change .change).Sound k known r change := by
  obtain ⟨check, phase, st, met⟩ := sc
  cases phase with
  | loading =>
    obtain ⟨after, hadvance, hafter⟩ := ChangePhase.advance_loading (k := k) st
    rw [step_change_eq hadvance]
    simp only [hafter]
    exact h.unwritten (h.unmet rfl) hafter
  | writing set changed =>
    obtain rfl : met = none := h.unmet rfl
    rcases ChangePhase.advance_writing set changed st with ⟨cause, hadvance⟩ | ⟨t, ht, hadvance⟩
    · rw [step_change_eq hadvance]
      exact h.unwritten rfl rfl
    · -- Here doubts begin: they are about what the check is to store and to find.
      rw [step_change_eq hadvance]
      have hwritten := Store.written_of_write ht
      refine ⟨h.faithful.write check htarget hwritten, h.reliable.write h.faithful.outages hwritten,
        ?_, fun _ hnone => ?_⟩
      · intro hbefore
        cases hbefore
      · cases hnone
  | invalidating changed =>
    cases met with
    | none => exact absurd rfl (h.met rfl)
    | some phase =>
      refine ⟨h.faithful.invalidate fun _ hdropped => hdropped, h.reliable.invalidate _, ?_, ?_⟩
      · intro hbefore
        cases hbefore
      · intro hinvalidating
        cases hinvalidating
  | finished outcome => exact h

/-- However the two take turns, the scene stays sound. -/
theorem Sound.run {sc : Scene} (h : sc.Sound k known r change) (hc : k.catalog.Slotted)
    (hr : r.Within known k.catalog) (htarget : known change.target) (schedule : List Party) :
    (sc.run k r change schedule).Sound k known r change := by
  induction schedule generalizing sc with
  | nil => exact h
  | cons party rest ih =>
    cases party with
    | check => exact ih (h.step_check hc hr)
    | change => exact ih (h.step_change htarget)

variable (k known r change)

/-- The memories are true of the directory unless the lines were written while the check was about
to store the old set, or while it was searching. -/
structure TrueUnlessMet (sc : Scene) : Prop where
  /-- A set in the memo says what is stored on the entry, or it is the set of the target that the
  check was about to store when the lines were written. -/
  sets : ∀ e set, sc.state.store.memo.get? e.id = some set →
    (sc.state.store.read k.catalog e).map GrantSet.unplaced = .ok set.unplaced ∨
      e.id = change.target.id ∧ ∃ f next, sc.met = some (.storing f set next) ∧ f.id = e.id
  /-- A remembered decision is that of a check without memories, or it is the decision of the check,
  which was searching when the lines were written. -/
  decisions : ∀ cache, sc.state.cache = some cache → ∀ q : Request, q.Within known k.catalog →
    q.settled = .ok none → ∀ decision,
      cache.get? q.principal q.target q.right q.delegate = some decision →
        (k.uncached sc.state.store.directory q).map Evaluation.decision = .ok decision ∨
          (∃ phase, sc.met = some phase ∧ phase.underWay = true) ∧ q.target.id = r.target.id ∧
            DecisionMemo.key? q.principal q.right q.delegate =
              DecisionMemo.key? r.principal r.right r.delegate

variable {k known r change}

/-- What is in doubt after the change is what the write put in doubt, but for what was dropped. -/
theorem doubts_cases {sc : Scene} (hover : sc.change.isInvalidating = false) (target : Entry) :
    sc.doubts target = .none ∨ ∃ phase, sc.met = some phase ∧ sc.doubts target =
      { AccessControl.doubtsOfWrite target phase with dropped := fun _ => False } := by
  unfold doubts
  rw [hover]
  cases sc.met with
  | none => exact .inl rfl
  | some phase => exact .inr ⟨phase, rfl, rfl⟩

/-- Memories that are right or in doubt are true unless the write met the check, once the change is
over. -/
theorem Sound.trueUnlessMet {sc : Scene} (h : sc.Sound k known r change)
    (hover : sc.change.isInvalidating = false) : sc.TrueUnlessMet k known r change := by
  have hcases := doubts_cases hover change.target
  have hstale : ∀ id set, (sc.doubts change.target).stale id set →
      id = change.target.id ∧ ∃ f next, sc.met = some (.storing f set next) ∧ f.id = id := by
    intro id set hdoubt
    rcases hcases with hnone | ⟨phase, hmet, hwrite⟩
    · rw [hnone] at hdoubt
      exact hdoubt.elim
    · rw [hwrite] at hdoubt
      obtain ⟨hid, f, next, rfl, hf⟩ := hdoubt
      exact ⟨hid, f, next, hmet, hf⟩
  have hdropped : ∀ id, ¬ (sc.doubts change.target).dropped id := by
    intro id hdoubt
    rcases hcases with hnone | ⟨phase, -, hwrite⟩
    · rw [hnone] at hdoubt
      exact hdoubt
    · rw [hwrite] at hdoubt
      exact hdoubt
  have hown : (sc.doubts change.target).own →
      ∃ phase, sc.met = some phase ∧ phase.underWay = true := by
    intro hdoubt
    rcases hcases with hnone | ⟨phase, hmet, hwrite⟩
    · rw [hnone] at hdoubt
      exact hdoubt.elim
    · rw [hwrite] at hdoubt
      exact ⟨phase, hmet, hdoubt⟩
  refine ⟨fun e set hmemo => ?_, ?_⟩
  · rcases h.faithful.memo e with ⟨other, hother, hdoubt⟩ | hsame
    · obtain rfl : set = other := Option.some.inj (hmemo.symm.trans hother)
      exact .inr (hstale e.id set hdoubt)
    · exact .inl (AccessControl.read_of_recalled hmemo hsame)
  · intro cache hcache q hq hsettled decision hget
    obtain ⟨key, hkey, hremembers⟩ := DecisionMemo.remembers_of_get? hget
    rcases h.faithful.decisions cache hcache q.target.id key decision hremembers with
      hdoubt | ⟨hdoubt, hid, hsame⟩ | hcurrent
    · exact absurd hdoubt (hdropped q.target.id)
    · exact .inr ⟨hown hdoubt, hid, hkey.trans hsame.symm⟩
    · left
      have hanswered := (hcurrent q hq rfl hkey).2
      rw [AccessControl.decision_uncached, Store.fresh_ofDirectory h.faithful.outages]
      unfold AccessControl.decided
      rw [hsettled]
      exact hanswered

/-- However a check and a change take turns after a run of calls, once the change is over the
memories are true of the directory, unless the lines were written while the check was about to store
the old set of the target, or while it was searching for a decision that it remembers. -/
theorem trueUnlessMet_of_run {ds : List Definition}
    (hc : Catalog.ofDefinitions ds = .ok k.catalog) {d : Directory} (hd : d.Coherent known)
    (limit : Nat) {calls : List Call} (hcalls : ∀ call ∈ calls, call.Within known k.catalog)
    (hr : r.Within known k.catalog) (htarget : known change.target) {schedule : List Party}
    (hover : ((start (k.run calls (.start d (some (.empty limit))))).run k r change
      schedule).change.outcome?.isSome = true) :
    ((start (k.run calls (.start d (some (.empty limit))))).run k r change schedule).TrueUnlessMet
      k known r change := by
  have hslotted := Catalog.slotted_of_ofDefinitions hc
  have hfaithful := (AccessControl.faithful_start (k := k) hd limit).run hslotted hcalls
  have hsound := (sound_start (r := r) hfaithful).run hslotted hr htarget schedule
  refine hsound.trueUnlessMet ?_
  revert hover
  generalize (Scene.run k r change schedule _).change = phase
  intro hover
  cases phase with
  | finished result => rfl
  | loading => cases hover
  | writing set changed => cases hover
  | invalidating changed => cases hover

end Scene

namespace Sample

/-- Ann takes back what she granted to Bob. -/
def revocation : Change :=
  .revoke ann [grantTo bob.id.text]

/-- Bob asks, and Ann takes back the grant; neither has begun. -/
def overtaken : Scene :=
  .start (.start directory (some (.empty 5)))

/-- The check reads the lines before the change and goes on after it. -/
def overtaking : List Party :=
  [.check, .check, .check, .change, .change, .change, .check, .check]

end Sample

namespace Scene

/-- Bob asks, and the lines are written while the check is about to store what it has read. -/
theorem trueUnlessMet_of_run_sample :
    (Sample.overtaken.run Sample.control Sample.request Sample.revocation
      Sample.overtaking).TrueUnlessMet Sample.control
        (· ∈ [Sample.ann, Sample.bob, Directory.globalGrant]) Sample.request
        Sample.revocation := by
  have hrequest : Sample.request.Within (· ∈ [Sample.ann, Sample.bob, Directory.globalGrant])
      Sample.control.catalog := by
    refine ⟨fun e he => ?_, List.mem_cons_self, "sendAs", rfl⟩
    obtain rfl : Sample.bob = e := Option.some.inj he
    exact List.mem_cons_of_mem _ List.mem_cons_self
  have hcalls : ∀ call ∈ ([] : List Call), call.Within
      (· ∈ [Sample.ann, Sample.bob, Directory.globalGrant]) Sample.control.catalog := by
    intro call hcall
    cases hcall
  exact trueUnlessMet_of_run Sample.catalog_built AccessControl.coherent_sample 5 hcalls hrequest
    List.mem_cons_self (by decide +kernel)

/-- The grant is taken back while the check is about to store what it has read. When both are over
the memo has the old set, the remembered decision is that Bob may send in Ann's name, and neither is
true of what is stored. -/
theorem stale_after_both :
    let sc := Sample.overtaken.run Sample.control Sample.request Sample.revocation Sample.overtaking
    Catalog.ofDefinitions [Sample.definition] = .ok Sample.control.catalog ∧
    sc.check.outcome? = some (.ok (.bare .allow)) ∧
    sc.change.outcome?.map (Except.map List.length) = some (.ok 1) ∧
    (sc.state.store.memo.get? Sample.ann.id).map GrantSet.lines =
      some ["22222222-2222-2222-2222-222222222222 usr sendAs"] ∧
    (sc.state.store.read Sample.control.catalog Sample.ann).map GrantSet.lines = .ok [] ∧
    sc.state.cache.bind (·.get? Sample.request.principal Sample.ann Sample.sendAs false) =
      some .allow ∧
    Sample.control.uncached sc.state.store.directory Sample.request = .ok (.bare .undecided) := by
  refine ⟨Sample.catalog_built, ?_, ?_, ?_, ?_, ?_, ?_⟩
  · decide +kernel
  · decide +kernel
  · decide +kernel
  · decide +kernel
  · decide +kernel
  · decide +kernel

end Scene

end DirectoryRights
