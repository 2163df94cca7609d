import DirectoryRights.Proofs.Reach
import DirectoryRights.Proofs.Repetition
import DirectoryRights.Proofs.Sample
import DirectoryRights.Proofs.Uncached

/-!
# Changes of grants act locally

Two directories that differ only in the grants of one id are told apart only by checks that ask for
the grants of this id. These are the checks on targets with an entry of this id in their chain, and
those on targets whose domain has it: the border of this domain is looked at when groups are read.
Where ids and names lead to entries of the right kinds, the grants of an account are read by checks
on this account alone, as long as its id is not that of the global grant entry.
-/

set_option autoImplicit false

namespace DirectoryRights

namespace Directory

/-- The two directories differ in nothing but the lines stored as the grants of an id. -/
structure DifferAt (id : EntryId) (d d' : Directory) : Prop where
  /-- Only attributes differ. -/
  entries : SameEntries d d'
  /-- All other attributes have the same values. -/
  values : ∀ other attr, (other, attr) ≠ (id, Store.grantAttribute) →
    d'.valuesOf other attr = d.valuesOf other attr

/-- To which kinds ids and names lead does not depend on attributes. -/
theorem SameEntries.wellKinded {d e : Directory} (h : SameEntries d e) {target : Entry}
    (hd : d.WellKinded target) : e.WellKinded target := by
  rw [h]
  exact ⟨hd.groups, hd.domainId, hd.domainNames⟩

/-- Lines that are stored on an entry make a difference at this entry alone. -/
theorem differAt_setValues (d : Directory) (id : EntryId) (lines : List String) :
    DifferAt id d (d.setValues id Store.grantAttribute lines) := by
  refine ⟨d.sameEntries_setValues id Store.grantAttribute lines, fun other attr hother => ?_⟩
  rw [valuesOf_setValues, if_neg hother]

end Directory

namespace Sample

/-- The directory of the lists that are in each other, of which one lets the admin add members. -/
def administered : Directory :=
  storing team memberLine (Directory.filled circle)

/-- The admin asks whether members may be added to this list. -/
def adding : Request :=
  .ofRight (.entry admin) team addMember

/-- An account under the id of the global grant entry. -/
def shadow : Entry :=
  { account 10 "shadow@example.com" with id := Directory.globalGrant.id }

/-- The directory of Ann and Bob with this account. -/
def shadowed : Directory :=
  Directory.filled [.entry ann, .entry bob, .entry shadow]

/-- The line that lets everybody send in somebody's name. -/
def publicLine : String := "99999999-9999-9999-9999-999999999999 pub sendAs"

end Sample

namespace Store

variable {α : Type} {c : Catalog} {id : EntryId} {s t : Store}

/-- Two stores remember the same, and the same lines are stored on all entries but those of one
id. -/
structure AgreeBut (id : EntryId) (s t : Store) : Prop where
  /-- The first store has no outages. -/
  first : s.outages = []
  /-- The second store has no outages. -/
  second : t.outages = []
  /-- The same sets are remembered. -/
  memo : t.memo = s.memo
  /-- The lines of other entries are the same. -/
  values : ∀ other, other ≠ id →
    t.directory.valuesOf other grantAttribute = s.directory.valuesOf other grantAttribute

/-- Two stores that agree but for an id give the same answer for another id, and agree afterwards. -/
theorem AgreeBut.grantsOf (h : AgreeBut id s t) {e : Entry} (he : e.id ≠ id) :
    (Store.grantsOf c e t).1 = (Store.grantsOf c e s).1 ∧
      AgreeBut id (Store.grantsOf c e s).2 (Store.grantsOf c e t).2 := by
  cases hmemo : s.memo.get? e.id with
  | some set =>
    rw [grantsOf_of_remembered c hmemo, grantsOf_of_remembered c (h.memo ▸ hmemo)]
    exact ⟨rfl, h⟩
  | none =>
    have hread : t.read c e = s.read c e := by
      rw [read_eq c h.first, read_eq c h.second, h.values e.id he]
    rw [grantsOf_of_forgotten c hmemo, grantsOf_of_forgotten c (h.memo ▸ hmemo), hread]
    cases s.read c e with
    | error cause => exact ⟨rfl, h⟩
    | ok set => exact ⟨rfl, h.first, h.second, congrArg (·.insert e.id set) h.memo, h.values⟩

/-- A computation that does not ask for an id ends in the same way over two stores that agree but
for this id. -/
theorem AgreeBut.run (m : Reading α) (h : AgreeBut id s t)
    (hasked : ∀ e ∈ m.asked (recalled c (m.run (Store.grantsOf c) s).2), e.id ≠ id) :
    (m.run (Store.grantsOf c) t).1 = (m.run (Store.grantsOf c) s).1 := by
  induction m generalizing s t with
  | done a => rfl
  | ask e next ih =>
    -- What the last store answers is what the entry was found to store.
    have hfirst := (extends_grantsOf (c := c) s e).outages.trans h.first
    have hanswer := recalled_of_extends h.first
      (run_spec (c := c) (next (Store.grantsOf c e s).1) (Store.grantsOf c e s).2 hfirst).2
    simp only [Reading.run, Reading.asked] at hasked ⊢
    rw [hanswer] at hasked
    obtain ⟨hsame, hagree⟩ := h.grantsOf (c := c) (hasked e List.mem_cons_self)
    rw [hsame]
    exact ih _ hagree fun f hf => hasked f (List.mem_cons_of_mem _ hf)

end Store

namespace Inquiry

variable {d : Directory} {q : Inquiry} {source : Entry → GrantAnswer} {e : Entry}

/-- The groups that a check reads are in the chain of its target. -/
theorem mem_groups_of_expands {v : View} {target : Entry} {expands : Bool} {group : Entry × Bool}
    (h : group ∈ Ancestry.groups v target expands) : group ∈ Ancestry.groups v target true := by
  cases expands with
  | false => simp [Ancestry.groups] at h
  | true => exact h

/-- Grants are asked for of the chain of the target and of the domain of the target. -/
theorem mem_chain_or_home_of_mem_asked (hview : q.view = d.view)
    (h : e ∈ q.answer.asked source) :
    (∃ step : Ancestor, .ok step ∈ Ancestry.chain d.view q.target true ∧ step.entry = e) ∨
      d.homeDomain? q.target = some e := by
  unfold Ancestry.chain
  cases reaches_of_mem_asked h with
  | target => exact .inl ⟨.target q.target, by simp, rfl⟩
  | @group _ direct hgroup =>
    rw [hview] at hgroup
    have hmem := mem_groups_of_expands hgroup
    refine .inl ⟨.group e direct, ?_, rfl⟩
    simp only [List.mem_append, List.mem_cons, List.mem_map]
    exact .inl (.inl (.inr ⟨_, hmem, rfl⟩))
  | domain hdomain =>
    rw [hview] at hdomain
    refine .inl ⟨.domain e, ?_, rfl⟩
    simp only [List.mem_append, List.mem_cons, List.mem_map]
    exact .inl (.inr ⟨e, hdomain, rfl⟩)
  | last hlast =>
    rw [hview] at hlast
    refine .inl ⟨.global e, ?_, rfl⟩
    simp only [List.mem_append, List.mem_cons, List.mem_map]
    exact .inr ⟨_, hlast, rfl⟩
  | home hhome =>
    by_cases hlives : q.target.targetType.livesInDomain = true
    · rw [q.targetHome_of_lives hview hlives] at hhome
      exact .inr (Except.ok.inj hhome)
    · unfold targetHome at hhome
      rw [if_pos (by simpa using hlives)] at hhome
      cases hhome

/-- A target with groups is not made up. -/
theorem isPseudo_of_groups {v : View} {target : Entry} {expands : Bool}
    (h : Ancestry.groups v target expands ≠ []) : target.isPseudo = false := by
  by_contra hpseudo
  simp [Ancestry.groups, Bool.not_eq_false _ ▸ hpseudo] at h

/-- Where ids and names lead to the right kinds, an account of the directory whose grants a check
asks for is the target or the global grant entry. -/
theorem id_of_account_of_mem_asked (hview : q.view = d.view) (hkinds : d.WellKinded q.target)
    (h : e ∈ q.answer.asked source) {account : Entry} (hfound : d.entry? e.id = some account)
    (haccount : account.isAccount = true) :
    e.id = q.target.id ∨ e.id = Directory.globalGrant.id := by
  have hkind : ∀ id, d.entry? id = some e → e.isAccount ≠ false := by
    intro id hentry
    rw [Directory.id_of_found hentry, hentry] at hfound
    rw [Option.some.inj hfound, haccount]
    exact nofun
  have hhome : q.target.domainId.bind d.entry? ≠ some e := by
    intro hsome
    obtain ⟨id, hid, hentry⟩ := Option.bind_eq_some_iff.mp hsome
    exact hkind id hentry
      (Directory.not_isAccount_of_isDomain (hkinds.domainId id e hid hentry))
  rcases eq_target_or_mem_asked_search h with rfl | ⟨holder, hsearch⟩
  · exact .inl rfl
  rcases mem_asked_search hsearch with rfl | ⟨direct, hgroup⟩ | ⟨hsome, hgroups⟩ | ⟨below, hstop⟩
  · exact .inl rfl
  · rw [hview] at hgroup
    obtain ⟨group, hmem, hentry⟩ := Directory.entry?_of_mem_groups hgroup
    have hgroupKind := hkinds.groups _ _ (d.hasMember_of_membership hmem) hentry
    exact absurd (Directory.not_isAccount_of_isGroup hgroupKind) (hkind _ hentry)
  · have hreal := Directory.syntheticDomain?_of_real (isPseudo_of_groups hgroups)
    exact absurd (Directory.domainId_of_targetHome hview hreal hsome) hhome
  · unfold stops at hstop
    rw [hview] at hstop
    rcases List.mem_append.mp hstop with hdomain | hlast
    · obtain ⟨domain, hmem, ⟨⟩⟩ := List.mem_map.mp hdomain
      rcases Directory.domainId_or_domainNamed?_of_mem_domains hmem with hsome | ⟨name, hsome⟩
      · exact absurd hsome hhome
      · obtain ⟨id, -, hentry⟩ := Option.bind_eq_some_iff.mp hsome
        exact absurd (Directory.not_isAccount_of_isDomain (hkinds.domainNames name e hsome))
          (hkind id hentry)
    · obtain ⟨last, hmem, heq⟩ := List.mem_map.mp hlast
      unfold Ancestry.last at hmem
      rw [List.mem_ite_nil_left, List.mem_singleton] at hmem
      rw [hmem.2] at heq
      cases heq
      exact .inr rfl

end Inquiry

/-- What is made of an answer asks for no more grants. -/
theorem Request.asked_reading (r : Request) (v : View) (source : Entry → GrantAnswer) :
    (r.reading v).asked source = (r.inquiry v).answer.asked source := by
  show ((r.inquiry v).answer.run >>= fun outcome =>
    pure (outcome.map fun found => r.report found.1 found.2)).asked source = _
  rw [Reading.asked_bind, Reading.asked_pure, List.append_nil]
  rfl

namespace AccessControl

variable {d d' : Directory} {id : EntryId}

/-- A check that never asks for the grants of an id has the same answer over two directories that
differ only in these. -/
theorem uncached_of_unasked (k : AccessControl) (h : Directory.DifferAt id d d') (r : Request)
    (hasked : ∀ source, ∀ e ∈ (r.inquiry d.view).answer.asked source, e.id ≠ id) :
    k.uncached d' r = k.uncached d r := by
  unfold uncached evaluate
  cases r.settled with
  | error e => rfl
  | ok verdict =>
    cases verdict with
    | some decision => rfl
    | none =>
      have hagree : Store.AgreeBut id (.ofDirectory d) (.ofDirectory d') :=
        ⟨rfl, rfl, rfl, fun other hother =>
          h.values other _ fun hsame => hother (Prod.mk.inj hsame).1⟩
      have hcached : ∀ d : Directory, cached? r (.start d none) = none := by
        intro d
        unfold cached?
        cases r.wantsVia <;> rfl
      simp only [hcached]
      show ((r.reading d'.view).run (Store.grantsOf k.catalog) (.ofDirectory d')).1 =
        ((r.reading d.view).run (Store.grantsOf k.catalog) (.ofDirectory d)).1
      rw [h.entries.view]
      refine hagree.run (r.reading d.view) fun e he => ?_
      rw [r.asked_reading] at he
      exact hasked _ e he

/-- Grants that are stored on an entry are a matter of the checks on targets that have the entry in
their chain or as their domain. Where ids and names lead to the right kinds, those of an account are
a matter of the checks on this account, unless it has the id of the global grant entry. -/
theorem uncached_local (k : AccessControl) (h : Directory.DifferAt id d d') (r : Request) :
    ((∀ step : Ancestor, .ok step ∈ Ancestry.chain d.view r.target true → step.entry.id ≠ id) →
      (∀ home, d.homeDomain? r.target = some home → home.id ≠ id) →
        k.uncached d' r = k.uncached d r) ∧
    (∀ account, d.entry? id = some account → account.isAccount = true →
      id ≠ Directory.globalGrant.id → d.WellKinded r.target → r.target.id ≠ id →
        k.uncached d' r = k.uncached d r) := by
  constructor
  · intro hchain hhome
    refine k.uncached_of_unasked h r fun source e he => ?_
    rcases Inquiry.mem_chain_or_home_of_mem_asked (q := r.inquiry d.view) rfl he with
      ⟨step, hstep, rfl⟩ | hsome
    · exact hchain step hstep
    · exact hhome e hsome
  · rintro account hfound haccount hglobal hkinds htarget
    refine k.uncached_of_unasked h r fun source e he => ?_
    rintro rfl
    rcases Inquiry.id_of_account_of_mem_asked (q := r.inquiry d.view) rfl hkinds he hfound
      haccount with hid | hid
    · exact htarget hid.symm
    · exact hglobal hid

/-- The admin may add members to the list, whatever is stored on the domain of the other list or on
the account of a member. -/
theorem uncached_local_sample :
    Sample.office.uncached (Sample.storing Sample.away Sample.openingLine Sample.administered)
        Sample.adding = .ok (.bare .allow) ∧
      Sample.office.uncached (Sample.storing Sample.alice Sample.adminLine Sample.administered)
        Sample.adding = .ok (.bare .allow) := by
  have hallow : Sample.office.uncached Sample.administered Sample.adding =
      .ok (.bare .allow) := by
    decide +kernel
  have hstored : ∀ (e : Entry) (line : String),
      Directory.DifferAt e.id Sample.administered (Sample.storing e line Sample.administered) :=
    fun e line => Sample.administered.differAt_setValues e.id [line]
  have hkinds : (Directory.filled Sample.circle).WellKinded Sample.team :=
    Directory.wellKinded_filled (by decide +kernel) (by decide +kernel) (by decide +kernel)
  have hsame : Directory.SameEntries (Directory.filled Sample.circle) Sample.administered :=
    Directory.sameEntries_setValues _ _ _ _
  have hchain : ∀ step ∈ Ancestor.target Sample.team :: Sample.administered.above Sample.team true,
      step.entry.id ≠ Sample.away.id := by
    decide +kernel
  have hhome : Sample.administered.homeDomain? Sample.team = some Sample.home := by
    decide +kernel
  constructor
  · rw [← hallow]
    refine (uncached_local Sample.office (hstored Sample.away _) Sample.adding).1 ?_ ?_
    · intro step hstep
      rw [Directory.chain_view] at hstep
      obtain ⟨_, hmem, ⟨⟩⟩ := List.mem_map.mp hstep
      exact hchain step hmem
    · intro home hsome
      obtain rfl : Sample.home = home := Option.some.inj (hhome.symm.trans hsome)
      decide +kernel
  · rw [← hallow]
    exact (uncached_local Sample.office (hstored Sample.alice _) Sample.adding).2 Sample.alice
      (by decide +kernel) (by decide +kernel) (by decide +kernel)
      (hsame.wellKinded hkinds) (by decide +kernel)

/-- What is stored on an account under the id of the global grant entry lets everybody in. -/
theorem shadow_lets_in :
    Catalog.ofDefinitions [Sample.definition] = .ok Sample.control.catalog ∧
      Directory.DifferAt Sample.shadow.id Sample.shadowed
        (Sample.storing Sample.shadow Sample.publicLine Sample.shadowed) ∧
      Sample.shadowed.WellKinded Sample.ann ∧
      Sample.shadowed.entry? Sample.shadow.id = some Sample.shadow ∧
      Sample.shadow.isAccount = true ∧ Sample.ann.id ≠ Sample.shadow.id ∧
      Sample.control.uncached Sample.shadowed Sample.request = .ok (.bare .undecided) ∧
      Sample.control.uncached (Sample.storing Sample.shadow Sample.publicLine Sample.shadowed)
        Sample.request = .ok (.bare .allow) := by
  have hkinds : Sample.shadowed.WellKinded Sample.ann :=
    Directory.wellKinded_filled (by decide +kernel) (by decide +kernel) (by decide +kernel)
  refine ⟨Sample.catalog_built, Sample.shadowed.differAt_setValues Sample.shadow.id _, hkinds, ?_⟩
  decide +kernel

end AccessControl

end DirectoryRights
