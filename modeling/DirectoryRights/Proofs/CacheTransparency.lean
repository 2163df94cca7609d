import DirectoryRights.Proofs.Catalogs
import DirectoryRights.Proofs.DecisionMemos
import DirectoryRights.Proofs.Reach
import DirectoryRights.Proofs.Sample
import DirectoryRights.Proofs.Uncached

/-!
# Memories are invisible

A run of checks and changes fills two memories, that of the sets which were read and that of the
decisions. Neither shows: every check ends as if nothing had been remembered. Three facts carry this
through a run. What the store remembers of an entry is what its lines say. Every remembered decision
is the one that a search would make now, for whoever may ask for it. And a change of the grants on
an account touches no search on another target, so that the decisions which are kept stay true.

Requests are told apart by what decisions are remembered by, because entries are told apart by their
ids and rights by their slots.
-/

set_option autoImplicit false

namespace DirectoryRights

/-- A call that may read or write the memories. -/
inductive Call where
  /-- A check. -/
  | evaluate (r : Request)
  /-- A check answered with yes or no. -/
  | permits (r : Request) (fallback : Bool)
  /-- A change that adds grants. -/
  | grant (target : Entry) (gs : List Grant)
  /-- A change that adds grants which end. -/
  | grantUntil (target : Entry) (gs : List Grant) (expiry : Option String) (now : Int)
  /-- A change that takes grants away. -/
  | revoke (target : Entry) (gs : List Grant)

/-- A request about entries in use and a right that the catalog finds. -/
structure Request.Within (known : Entry → Prop) (c : Catalog) (r : Request) : Prop where
  /-- The principal is in use. -/
  principal : ∀ e, r.principal.entry? = some e → known e
  /-- The target is in use. -/
  target : known r.target
  /-- The right is one of the catalog or spelled out by its name. -/
  right : ∃ name, c.lookup name = .ok r.right

/-- A call about entries in use. -/
def Call.Within (known : Entry → Prop) (c : Catalog) : Call → Prop
  | evaluate r => r.Within known c
  | permits r _ => r.Within known c
  | grant target _ => known target
  | grantUntil target _ _ _ => known target
  | revoke target _ => known target

namespace AccessControl

/-- What a call leaves behind. -/
def step (k : AccessControl) (st : AccessState) : Call → AccessState
  | .evaluate r => (k.evaluate r st).2
  | .permits r fallback => (k.permits r fallback st).2
  | .grant target gs => (k.grant target gs st).2
  | .grantUntil target gs expiry now => (k.grantUntil target gs expiry now st).2
  | .revoke target gs => (k.revoke target gs st).2

/-- What a run of calls leaves behind. -/
def run (k : AccessControl) (calls : List Call) (st : AccessState) : AccessState :=
  calls.foldl k.step st

variable (k : AccessControl) (known : Entry → Prop)

/-- Both memories tell the truth about the directory. -/
structure Faithful (st : AccessState) : Prop where
  /-- The directory is in service. -/
  outages : st.store.outages = []
  /-- The entries in use are told apart by their ids. -/
  coherent : st.store.directory.Coherent known
  /-- The store answers with what is stored. -/
  memo : ∀ e, (Store.recalled k.catalog st.store e).unplaced =
    (Store.fresh k.catalog st.store e).unplaced
  /-- A remembered decision is that of a search now, for whoever may ask for it. -/
  decisions : ∀ cache, st.cache = some cache → ∀ id key decision,
    cache.Remembers id key decision → ∀ r : Request, r.Within known k.catalog → r.target.id = id →
      DecisionMemo.key? r.principal r.right r.delegate = some key → r.target.isPseudo = false ∧
        answered st.store.directory (Store.fresh k.catalog st.store) r = .ok decision

variable {k known}

/-- Before the first call nothing is remembered. -/
theorem faithful_start {d : Directory} (hd : d.Coherent known) (limit : Nat) :
    Faithful k known (.start d (some (.empty limit))) := by
  refine ⟨rfl, hd, fun e => ?_, ?_⟩
  · rw [show (AccessState.start d (some (.empty limit))).store = .ofDirectory d from rfl,
      Store.recalled_ofDirectory]
  · rintro cache hcache id key decision hremembers
    cases hcache
    exact absurd hremembers (DecisionMemo.not_remembers_empty limit id key decision)

/-- Requests under one key and on one target put the same question. -/
theorem inquiry_eq_of_key {d : Directory} (hd : d.Coherent known) (hc : k.catalog.Slotted)
    {r s : Request} (hr : r.Within known k.catalog) (hs : s.Within known k.catalog)
    (htarget : r.target.id = s.target.id) {key : DecisionKey}
    (hrkey : DecisionMemo.key? r.principal r.right r.delegate = some key)
    (hskey : DecisionMemo.key? s.principal s.right s.delegate = some key) (v : View) :
    r.inquiry v = s.inquiry v := by
  obtain ⟨rholder, hrholder, hrslot⟩ := Option.bind_eq_some_iff.mp hrkey
  obtain ⟨rslot, hrlabel, rfl⟩ := Option.map_eq_some_iff.mp hrslot
  obtain ⟨sholder, hsholder, hsslot⟩ := Option.bind_eq_some_iff.mp hskey
  obtain ⟨sslot, hslabel, hkey⟩ := Option.map_eq_some_iff.mp hsslot
  obtain ⟨rfl, rfl, hdelegate⟩ := DecisionKey.mk.inj hkey
  -- Only entries have keys, and they are told apart by their ids.
  have hprincipal : r.principal = s.principal := by
    cases hrp : r.principal with
    | entry e =>
      cases hsp : s.principal with
      | entry f =>
        rw [hrp] at hrholder
        rw [hsp] at hsholder
        have hids : e.id = f.id := Option.some.inj (hrholder.trans hsholder.symm)
        have he := hr.principal e (by rw [hrp]; rfl)
        have hf := hs.principal f (by rw [hsp]; rfl)
        rw [hd.unique e f he hf hids]
      | guest g =>
        rw [hsp] at hsholder
        cases hsholder
      | anonymous =>
        rw [hsp] at hsholder
        cases hsholder
    | guest g =>
      rw [hrp] at hrholder
      cases hrholder
    | anonymous =>
      rw [hrp] at hrholder
      cases hrholder
  obtain ⟨rname, hrname⟩ := hr.right
  obtain ⟨sname, hsname⟩ := hs.right
  have hright := hc.eq_of_slot hrname hsname hrlabel hslabel
  have hentry := hd.unique _ _ hr.target hs.target htarget
  unfold Request.inquiry
  rw [hprincipal, hright, hentry, hdelegate]

/-! ## Checks -/

/-- A store from which grants were only read tells the same truth. -/
theorem Faithful.extends {st : AccessState} (h : Faithful k known st) {asked : Entry → Prop}
    {t : Store} (ht : Store.Extends k.catalog asked st.store t) :
    Store.fresh k.catalog t = Store.fresh k.catalog st.store ∧
      ∀ e, (Store.recalled k.catalog t e).unplaced = (Store.fresh k.catalog t e).unplaced := by
  have hfresh : Store.fresh k.catalog t = Store.fresh k.catalog st.store := by
    funext e
    unfold Store.fresh
    rw [ht.read_eq]
  refine ⟨hfresh, fun e => ?_⟩
  rw [Store.recalled_unplaced h.outages ht, h.memo, hfresh]

/-- A search decides by what is stored, and both memories stay true. -/
theorem Faithful.search {st : AccessState} (h : Faithful k known st) (hc : k.catalog.Slotted)
    {r : Request} (hr : r.Within known k.catalog) :
    (k.search r st).1.map Evaluation.decision =
        answered st.store.directory (Store.fresh k.catalog st.store) r ∧
      Faithful k known (k.search r st).2 := by
  obtain ⟨hdecision, asked, hextends⟩ := k.search_spec h.outages r
  rw [answered_congr r h.memo] at hdecision
  obtain ⟨hfresh, hmemo⟩ := h.extends hextends
  refine ⟨hdecision, hextends.outages.trans h.outages, ?_, hmemo, ?_⟩
  · rw [hextends.directory]
    exact h.coherent
  · intro cache hcache id key decision hremembers s hs hid hkey
    rw [hextends.directory, hfresh]
    -- The memory is that before the check or, for who does not want the grant, has one more row.
    have hcases : st.cache = some cache ∨
        ∃ old, st.cache = some old ∧ cache = record r (k.search r st).1 old := by
      by_cases hvia : r.wantsVia = true
      · refine .inl (Eq.trans ?_ hcache)
        show st.cache = if r.wantsVia = true then _ else _
        rw [if_pos hvia]
      · have hmap : st.cache.map (record r (k.search r st).1) = some cache := by
          refine Eq.trans ?_ hcache
          show _ = if r.wantsVia = true then _ else _
          rw [if_neg hvia]
          rfl
        obtain ⟨old, hold, rfl⟩ := Option.map_eq_some_iff.mp hmap
        exact .inr ⟨old, hold, rfl⟩
    rcases hcases with hsame | ⟨old, hold, rfl⟩
    · exact h.decisions cache hsame id key decision hremembers s hs hid hkey
    · cases houtcome : (k.search r st).1 with
      | error e =>
        rw [houtcome] at hremembers
        exact h.decisions old hold id key decision hremembers s hs hid hkey
      | ok evaluation =>
        rw [houtcome] at hremembers hdecision
        rcases DecisionMemo.remembers_of_put hremembers with hbefore | ⟨hown, hownKey, rfl, hreal⟩
        · exact h.decisions old hold id key decision hbefore s hs hid hkey
        · have hsame := inquiry_eq_of_key h.coherent hc hs hr (hid.trans hown) hkey hownKey
          have htarget : s.target = r.target := congrArg Inquiry.target (hsame st.store.view)
          refine ⟨htarget ▸ hreal, ?_⟩
          unfold answered at hdecision ⊢
          rw [hsame, ← hdecision]
          rfl

/-- A check decides as if nothing had been remembered, and both memories stay true. -/
theorem Faithful.evaluate {st : AccessState} (h : Faithful k known st) (hc : k.catalog.Slotted)
    {r : Request} (hr : r.Within known k.catalog) :
    (k.evaluate r st).1.map Evaluation.decision =
        decided st.store.directory (Store.fresh k.catalog st.store) r ∧
      Faithful k known (k.evaluate r st).2 := by
  unfold AccessControl.evaluate decided
  cases r.settled with
  | error e => exact ⟨rfl, h⟩
  | ok verdict =>
    cases verdict with
    | some decision => exact ⟨rfl, h⟩
    | none =>
      cases hcached : cached? r st with
      | none =>
        exact h.search hc hr
      | some decision =>
        -- Decisions are looked up only for who does not want to know the grant.
        refine ⟨?_, h⟩
        unfold cached? at hcached
        by_cases hvia : r.wantsVia = true
        · rw [if_pos hvia] at hcached
          cases hcached
        · rw [if_neg hvia] at hcached
          obtain ⟨cache, hcache, hget⟩ := Option.bind_eq_some_iff.mp hcached
          obtain ⟨key, hkey, hremembers⟩ := DecisionMemo.remembers_of_get? hget
          have htrue := h.decisions cache hcache r.target.id key decision hremembers r hr rfl hkey
          rw [htrue.2]
          rfl

/-! ## Changes -/

/-- What a store answers of an entry to which nothing was done is the same. -/
theorem recalled_congr {c : Catalog} {s t : Store} {e : Entry}
    (hmemo : t.memo.get? e.id = s.memo.get? e.id) (hread : t.read c e = s.read c e) :
    Store.recalled c t e = Store.recalled c s e := by
  unfold Store.recalled Store.grantsOf
  rw [hmemo, hread]
  cases s.memo.get? e.id with
  | some set => rfl
  | none => cases s.read c e <;> rfl

/-- A search on another target than the account whose grants were written finds what it found. -/
theorem answered_of_written {c : Catalog} {s t : Store} {target : Entry} {lines : List String}
    (hs : s.outages = []) (hd : s.directory.Coherent known) (h : Store.Written target lines s t)
    (htarget : known target) (haccount : target.isAccount = true) {r : Request}
    (hr : known r.target) (hreal : r.target.isPseudo = false) (hother : r.target.id ≠ target.id) :
    answered t.directory (Store.fresh c t) r = answered s.directory (Store.fresh c s) r := by
  unfold answered
  rw [h.entries.view]
  refine congrArg (Except.map Prod.fst) (Eq.symm ?_)
  refine Reading.eval_eq_of_asked _ fun e he => ?_
  have hreaches : (r.inquiry s.directory.view).Reaches e := Inquiry.reaches_of_mem_asked he
  have hid : e.id ≠ target.id := by
    intro hid
    have hsame : e = r.target := hd.eq_target_of_reaches (q := r.inquiry s.directory.view) rfl hr
      hreal hreaches htarget haccount hid
    rw [hsame] at hid
    exact hother hid
  unfold Store.fresh
  rw [h.read_other hs hid]

/-- A change keeps both memories true. -/
theorem Faithful.apply {α : Type} {st : AccessState} (h : Faithful k known st) {target : Entry}
    (htarget : known target) {f : GrantSet → GrantSet × List Grant}
    {changed : α → List Grant} {result : Except Error (α × Store)}
    (hresult : ∀ x t, result = .ok (x, t) →
      Store.Changed k.catalog target f (changed x) st.store t) :
    Faithful k known (AccessControl.apply st target changed result).2 := by
  cases result with
  | error e => exact h
  | ok outcome =>
    obtain ⟨x, t⟩ := outcome
    obtain ⟨set, -, -, ⟨hnone, rfl⟩ | ⟨hsome, hwritten⟩⟩ := hresult x t rfl
    · unfold AccessControl.apply
      simp only [if_pos hnone]
      exact h
    · unfold AccessControl.apply
      simp only [if_neg hsome]
      refine ⟨hwritten.outages.trans h.outages, hwritten.entries.coherent h.coherent, ?_, ?_⟩
      · intro e
        show (Store.recalled k.catalog t e).unplaced = (Store.fresh k.catalog t e).unplaced
        by_cases hid : e.id = target.id
        · rw [Store.recalled_of_forgotten]
          rw [hwritten.memo, Table.get?_erase, if_pos hid]
        · have hread := hwritten.read_other (c := k.catalog) h.outages hid
          have hfresh : Store.fresh k.catalog t e = Store.fresh k.catalog st.store e := by
            unfold Store.fresh
            rw [hread]
          rw [recalled_congr ?_ hread, h.memo, hfresh]
          rw [hwritten.memo, Table.get?_erase, if_neg hid]
      · intro cache hcache id key decision hremembers r hr hid hkey
        obtain ⟨old, hold, rfl⟩ := Option.map_eq_some_iff.mp hcache
        obtain ⟨hbefore, haccount, hother⟩ := DecisionMemo.remembers_of_invalidate hremembers
        obtain ⟨hreal, htrue⟩ := h.decisions old hold id key decision hbefore r hr hid hkey
        refine ⟨hreal, ?_⟩
        rw [← htrue]
        exact answered_of_written h.outages h.coherent hwritten htarget haccount hr.target hreal
          (hid ▸ hother)

/-! ## Runs -/

/-- Every call keeps both memories true. -/
theorem Faithful.step {st : AccessState} (h : Faithful k known st) (hc : k.catalog.Slotted)
    {call : Call} (hcall : call.Within known k.catalog) : Faithful k known (k.step st call) := by
  cases call with
  | evaluate r => exact (h.evaluate hc hcall).2
  | permits r fallback => exact (h.evaluate hc hcall).2
  | grant target gs =>
    exact h.apply hcall (f := (·.grant gs)) fun _ _ hok => Store.changed_of_grant hok
  | grantUntil target gs expiry now =>
    refine h.apply hcall (f := (·.grant gs)) fun x t hok => ?_
    obtain ⟨changed, ending⟩ := x
    exact Store.changed_of_grantUntil hok
  | revoke target gs =>
    exact h.apply hcall (f := (·.revoke gs)) fun _ _ hok => Store.changed_of_revoke hok

/-- Every run of calls keeps both memories true. -/
theorem Faithful.run {calls : List Call} {st : AccessState} (h : Faithful k known st)
    (hc : k.catalog.Slotted) (hcalls : ∀ call ∈ calls, call.Within known k.catalog) :
    Faithful k known (k.run calls st) := by
  induction calls generalizing st with
  | nil => exact h
  | cons call rest ih =>
    exact ih (h.step hc (hcalls call List.mem_cons_self))
      fun other hother => hcalls other (List.mem_cons_of_mem _ hother)

/-- After any run of calls that begins without memories, a check ends with the decision or the error
that it has over the directory as it is then, with no decision remembered and no grants read. -/
theorem evaluate_after_run {ds : List Definition}
    (hc : Catalog.ofDefinitions ds = .ok k.catalog) {d : Directory} (hd : d.Coherent known)
    (limit : Nat) {calls : List Call} (hcalls : ∀ call ∈ calls, call.Within known k.catalog)
    {r : Request} (hr : r.Within known k.catalog) :
    (k.evaluate r (k.run calls (.start d (some (.empty limit))))).1.map Evaluation.decision =
      (k.uncached (k.run calls (.start d (some (.empty limit)))).store.directory r).map
        Evaluation.decision := by
  have hslotted := Catalog.slotted_of_ofDefinitions hc
  have hfaithful := (faithful_start (k := k) hd limit).run hslotted hcalls
  rw [(hfaithful.evaluate hslotted hr).1, decision_uncached,
    Store.fresh_ofDirectory hfaithful.outages]

/-- Ann, Bob and the global grant entry are told apart by their ids. -/
theorem coherent_sample :
    Sample.directory.Coherent (· ∈ [Sample.ann, Sample.bob, Directory.globalGrant]) := by
  have hunique : ∀ e ∈ [Sample.ann, Sample.bob, Directory.globalGrant],
      ∀ f ∈ [Sample.ann, Sample.bob, Directory.globalGrant], e.id = f.id → e = f := by
    decide +kernel
  have hhomeless : ∀ e ∈ [Sample.ann, Sample.bob, Directory.globalGrant], e.domainId = none := by
    decide +kernel
  refine ⟨by decide +kernel, by decide +kernel, fun e f he hf => hunique e he f hf, ?_, ?_, ?_⟩
  · rintro id e ⟨member, hmember⟩
    cases hmember
  · intro e id domain he hid
    rw [hhomeless e he] at hid
    cases hid
  · intro name domain h
    cases h

/-- Bob asked while he was allowed to, and asks again after Ann took the grant back. -/
theorem evaluate_after_run_sample :
    (Sample.control.evaluate Sample.request (Sample.control.run
      [.evaluate Sample.request, .revoke Sample.ann [Sample.grantTo Sample.bob.id.text]]
      (.start Sample.directory (some (.empty 5))))).1.map Evaluation.decision =
    (Sample.control.uncached (Sample.control.run
      [.evaluate Sample.request, .revoke Sample.ann [Sample.grantTo Sample.bob.id.text]]
      (.start Sample.directory (some (.empty 5)))).store.directory Sample.request).map
        Evaluation.decision := by
  have hrequest : Sample.request.Within (· ∈ [Sample.ann, Sample.bob, Directory.globalGrant])
      Sample.control.catalog := by
    refine ⟨fun e he => ?_, List.mem_cons_self, "sendAs", rfl⟩
    obtain rfl : Sample.bob = e := Option.some.inj he
    exact List.mem_cons_of_mem _ List.mem_cons_self
  refine evaluate_after_run Sample.catalog_built coherent_sample 5 (fun call hcall => ?_) hrequest
  rcases List.mem_cons.mp hcall with rfl | hcall
  · exact hrequest
  · rw [List.mem_singleton.mp hcall]
    exact List.mem_cons_self

end AccessControl

end DirectoryRights
