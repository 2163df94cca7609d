import DirectoryRights.Proofs.Loosening
import DirectoryRights.Proofs.Rereading

/-!
# Unreadable grants

One line that cannot be read spoils all grants of its entry. A check that comes upon such an entry
on its way up ends with an error. There is one place where the error is swallowed: the domain of the
target is asked whether it is open to the admins of another domain, and if this cannot be found out
it counts as closed. So unreadable lines can make a check end without an answer, and they can take
from it the positive grants of foreign groups, but they never let it allow what was not allowed
before, whatever stood in their place.
-/

set_option autoImplicit false

namespace DirectoryRights

namespace GrantSet

variable {c : Catalog}

/-- One line that cannot be read spoils all lines of the entry. -/
theorem mapM_parse_of_unreadable {lines : List String} {line : String} {cause : Error}
    (hline : line ∈ lines) (hbad : Grant.parse c line = .error cause) :
    ∃ e, lines.mapM (Grant.parse c) = .error e := by
  induction lines with
  | nil => cases hline
  | cons first rest ih =>
    rw [mapM_parse_cons]
    cases hfirst : Grant.parse c first with
    | error e => exact ⟨e, rfl⟩
    | ok g =>
      have hrest : line ∈ rest := by
        rcases List.mem_cons.mp hline with rfl | hmem
        · rw [hbad] at hfirst
          cases hfirst
        · exact hmem
      obtain ⟨e, herror⟩ := ih hrest
      exact ⟨e, by rw [herror]; rfl⟩

end GrantSet

namespace Store

variable {c : Catalog} {d : Directory}

/-- Where a line cannot be read, nothing is. -/
theorem fresh_of_unreadable {e : Entry} {line : String} {cause : Error}
    (hline : line ∈ d.valuesOf e.id grantAttribute) (hbad : Grant.parse c line = .error cause) :
    ∃ error, fresh c (.ofDirectory d) e = .error error := by
  obtain ⟨error, herror⟩ := GrantSet.mapM_parse_of_unreadable hline hbad
  refine ⟨error, ?_⟩
  rw [fresh_eq]
  unfold GrantSet.parse
  simp only [herror]
  rfl

end Store

namespace AccessControl

variable {k : AccessControl}

/-- Whoever is allowed something although the grants of an entry cannot be read was allowed it
before, or the check had ended with an error. -/
theorem allow_of_unreadable {d : Directory} {e : Entry} {lines : List String} {line : String}
    {cause : Error} {r : Request} {before after : Evaluation} (hline : line ∈ lines)
    (hbad : Grant.parse k.catalog line = .error cause)
    (hafter : k.uncached (d.setValues e.id Store.grantAttribute lines) r = .ok after)
    (hallow : after.decision = .allow) (hbefore : k.uncached d r = .ok before) :
    before.decision = .allow := by
  have hvalues := d.valuesOf_setValues e.id Store.grantAttribute lines
  have hview := (d.sameEntries_setValues e.id Store.grantAttribute lines).view
  refine uncached_of_looser (s := .ofDirectory (d.setValues e.id Store.grantAttribute lines))
    (t := .ofDirectory d) rfl rfl hview.symm (fun f => ?_) hafter hbefore hallow
  by_cases hf : f.id = e.id
  · -- Nothing can be read here, so that it does not matter what was read before.
    have hmem : line ∈ (d.setValues e.id Store.grantAttribute lines).valuesOf f.id
        Store.grantAttribute := by
      rw [hvalues, hf]
      simpa using hline
    obtain ⟨error, herror⟩ := Store.fresh_of_unreadable hmem hbad
    rw [herror]
    apply Inquiry.LooserAnswer.error
  · rw [Store.fresh_eq, Store.fresh_eq, hvalues, if_neg (by simp [hf])]
    apply Inquiry.LooserAnswer.refl

/-- The list in Alice's domain decides before the unreadable grants of the domain are reached; that
they could not be read when the other list was looked at was swallowed. -/
theorem allow_of_unreadable_sample :
    ∃ before, Sample.office.uncached (Sample.storing Sample.away Sample.openingLine Sample.listed)
        (Sample.listing Sample.alice) = .ok before ∧ before.decision = .allow := by
  obtain ⟨before, hbefore⟩ := Store.exists_ok_of_isOk
    (x := Sample.office.uncached (Sample.storing Sample.away Sample.openingLine Sample.listed)
      (Sample.listing Sample.alice)) (by decide +kernel)
  have hafter : Sample.office.uncached
      ((Sample.storing Sample.away Sample.openingLine Sample.listed).setValues Sample.away.id
        Store.grantAttribute ["listAccount"]) (Sample.listing Sample.alice) =
        .ok (.bare .allow) := by
    decide +kernel
  have hbad : Grant.parse Sample.office.catalog "listAccount" =
      .error (.malformedLine "listAccount") := rfl
  exact ⟨before, hbefore, allow_of_unreadable List.mem_cons_self hbad hafter rfl hbefore⟩

end AccessControl

end DirectoryRights
