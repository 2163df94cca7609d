import DirectoryRights.AccessControl
import DirectoryRights.Proofs.Origins

/-!
# Checks without remembered decisions

A check that remembers no decisions may still take sets of grants from the memo of its store, and it
adds to this memo while it runs. Its decision is nevertheless the one that follows from the answers
the store gives before the check. Over a directory from which nothing was read yet these answers are
the stored grants.
-/

set_option autoImplicit false

namespace DirectoryRights

/-- A view without outages is the view itself. -/
theorem View.under_nil (v : View) : v.under [] = v := rfl

namespace Store

variable {c : Catalog}

/-- Where nothing is out of service a check sees the directory itself. -/
theorem view_of_no_outages {s : Store} (h : s.outages = []) : s.view = s.directory.view := by
  unfold view
  rw [h, View.under_nil]

/-- What a store answers in the course of a check is what it answered before, but for where the
grants were found. -/
theorem recalled_unplaced {asked : Entry → Prop} {s t : Store} (hs : s.outages = [])
    (h : Extends c asked s t) (e : Entry) :
    (recalled c t e).unplaced = (recalled c s e).unplaced := by
  have hparse : ∀ f : Entry, f.id = e.id →
      (s.read c f).map GrantSet.unplaced = (s.read c e).map GrantSet.unplaced := by
    intro f hf
    rw [read_eq c hs, read_eq c hs, hf]
    exact GrantSet.parse_unplaced c f e _
  unfold recalled
  rcases h.memo e.id with hsame | ⟨hnone, f, set, _, hf, hread, hset⟩
  · cases hmemo : s.memo.get? e.id with
    | some set =>
      rw [grantsOf_of_remembered c hmemo, grantsOf_of_remembered c (hsame.trans hmemo)]
    | none =>
      rw [grantsOf_of_forgotten c hmemo, grantsOf_of_forgotten c (hsame.trans hmemo), h.read_eq]
      cases s.read c e <;> rfl
  · have hsets := hparse f hf
    rw [grantsOf_of_remembered c hset, grantsOf_of_forgotten c hnone]
    rw [hread] at hsets
    cases hown : s.read c e with
    | error cause =>
      rw [hown] at hsets
      cases hsets
    | ok own =>
      rw [hown] at hsets
      have heq : set.unplaced = own.unplaced := Except.ok.inj hsets
      show Except.ok ((present set).map GrantSet.unplaced) =
        Except.ok ((present own).map GrantSet.unplaced)
      rw [GrantSet.present_unplaced, GrantSet.present_unplaced, heq]

/-- Where the memo has no set the answer is what is stored. -/
theorem recalled_of_forgotten {s : Store} {e : Entry} (h : s.memo.get? e.id = none) :
    recalled c s e = fresh c s e := by
  unfold recalled fresh
  rw [grantsOf_of_forgotten c h]
  cases s.read c e <;> rfl

/-- What is stored is a matter of the directory. -/
theorem fresh_ofDirectory {s : Store} (h : s.outages = []) :
    fresh c (.ofDirectory s.directory) = fresh c s := by
  funext e
  unfold fresh
  rw [read_eq c h, read_eq c rfl]
  rfl

/-- What is read of an entry are its stored lines. -/
theorem fresh_eq (d : Directory) (e : Entry) :
    fresh c (.ofDirectory d) e =
      (GrantSet.parse c e (d.valuesOf e.id grantAttribute)).map present := by
  unfold fresh
  rw [read_eq c rfl]
  rfl

/-- Entries of one id store the same. -/
theorem fresh_unplaced_of_id {d : Directory} {e f : Entry} (h : e.id = f.id) :
    (fresh c (.ofDirectory d) e).unplaced = (fresh c (.ofDirectory d) f).unplaced := by
  have hparse := GrantSet.parse_unplaced c e f (d.valuesOf f.id grantAttribute)
  rw [fresh_eq, fresh_eq, h]
  generalize GrantSet.parse c e (d.valuesOf f.id grantAttribute) = first at hparse
  generalize GrantSet.parse c f (d.valuesOf f.id grantAttribute) = second at hparse
  cases first with
  | error cause =>
    cases second with
    | error cause' =>
      cases hparse
      rfl
    | ok set' => cases hparse
  | ok set =>
    cases second with
    | error cause' => cases hparse
    | ok set' =>
      have hset : set.unplaced = set'.unplaced := Except.ok.inj hparse
      show Except.ok ((present set).map GrantSet.unplaced) =
        Except.ok ((present set').map GrantSet.unplaced)
      rw [GrantSet.present_unplaced, GrantSet.present_unplaced, hset]

/-- Before anything was read a store answers with what is stored. -/
theorem recalled_ofDirectory (d : Directory) :
    recalled c (.ofDirectory d) = fresh c (.ofDirectory d) :=
  funext fun _ => recalled_of_forgotten rfl

end Store

namespace AccessControl

/-- The answer of a check over a directory, when no decision is remembered and no grants were read
before. -/
def uncached (k : AccessControl) (d : Directory) (r : Request) : Except Error Evaluation :=
  (k.evaluate r (.start d none)).1

/-- The decision of the search of a check, when every question for an entry has the answer of
`source`. -/
def answered (d : Directory) (source : Entry → GrantAnswer) (r : Request) : Except Error Decision :=
  ((r.inquiry d.view).answer.eval source).map Prod.fst

/-- The decision of a check, when every question for an entry has the answer of `source`. -/
def decided (d : Directory) (source : Entry → GrantAnswer) (r : Request) : Except Error Decision :=
  match r.settled with
  | .error e => .error e
  | .ok (some decision) => .ok decision
  | .ok none => answered d source r

/-- Only what the answers say of grants matters, not where these were found. -/
theorem answered_congr {d : Directory} {source other : Entry → GrantAnswer} (r : Request)
    (h : ∀ e, (source e).unplaced = (other e).unplaced) :
    answered d source r = answered d other r :=
  (r.inquiry d.view).decision_congr h

/-- Where grants were found makes no difference to a decision. -/
theorem decided_unplaced (d : Directory) (source : Entry → GrantAnswer) (r : Request) :
    decided d (fun e => (source e).unplaced) r = decided d source r := by
  unfold decided
  rw [answered_congr r fun e => (source e).unplaced_unplaced]

/-- A search decides by what the store answers before it, and leaves a store from which grants were
only read. -/
theorem search_spec (k : AccessControl) {st : AccessState} (hs : st.store.outages = [])
    (r : Request) :
    (k.search r st).1.map Evaluation.decision =
        answered st.store.directory (Store.recalled k.catalog st.store) r ∧
      ∃ asked, Store.Extends k.catalog asked st.store (k.search r st).2.store := by
  obtain ⟨hresult, hextends⟩ :=
    Store.run_spec (c := k.catalog) (r.reading st.store.view) st.store hs
  refine ⟨?_, _, hextends⟩
  rw [answered_congr r fun e => (Store.recalled_unplaced hs hextends e).symm]
  show Except.map Evaluation.decision
    ((r.reading st.store.view).run (Store.grantsOf k.catalog) st.store).1 = _
  rw [hresult]
  generalize Store.recalled k.catalog _ = source
  unfold answered Request.reading Reader.eval
  rw [Reading.eval_bind', Store.view_of_no_outages hs]
  cases Reading.eval source (r.inquiry st.store.directory.view).answer.run <;> rfl

/-- The decision of a check that remembers no decisions follows from what the store answers. -/
theorem decision_of_store (k : AccessControl) {s : Store} (hs : s.outages = []) (r : Request) :
    (k.evaluate r { store := s, cache := none }).1.map Evaluation.decision =
      decided s.directory (Store.recalled k.catalog s) r := by
  unfold evaluate decided
  cases r.settled with
  | error e => rfl
  | ok verdict =>
    cases verdict with
    | some decision => rfl
    | none =>
      have hcached : cached? r { store := s, cache := none } = none := by
        unfold cached?
        cases r.wantsVia <;> rfl
      simp only [hcached]
      have hstore : ({ store := s, cache := none } : AccessState).store.outages = [] := hs
      exact (k.search_spec hstore r).1

/-- The decision of a check over a directory follows from the stored grants. -/
theorem decision_uncached (k : AccessControl) (d : Directory) (r : Request) :
    (k.uncached d r).map Evaluation.decision =
      decided d (Store.fresh k.catalog (.ofDirectory d)) r := by
  rw [← Store.recalled_ofDirectory]
  exact k.decision_of_store rfl r

end AccessControl

end DirectoryRights
