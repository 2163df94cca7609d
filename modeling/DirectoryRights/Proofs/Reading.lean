import DirectoryRights.Reading

/-!
# What a reading asks and answers

A reading is evaluated by giving one answer for each entry. The laws here take a reading apart along
its steps: the result of a sequence comes from the results of its parts, and the questions of a
sequence are those of its parts one after the other. Two sources that agree on the entries that are
asked for give the same result.
-/

set_option autoImplicit false

namespace DirectoryRights

variable {α β : Type}

/-- The result of a computation that may fail, when every question has the answer of `source`. -/
def Reader.eval (source : Entry → GrantAnswer) (m : Reader α) : Except Error α :=
  Reading.eval source m.run

/-- The entries that a computation asks for when every question has the answer of `source`. -/
def Reader.asked (source : Entry → GrantAnswer) (m : Reader α) : List Entry :=
  Reading.asked source m.run

variable {ε : Type}

/-- Where something is made of a result there is the result. -/
theorem exists_of_map_eq_ok {x : Except ε α} {f : α → β} {b : β} (h : x.map f = .ok b) :
    ∃ a, x = .ok a ∧ f a = b := by
  cases x with
  | error e => cases h
  | ok a => exact ⟨a, rfl, Except.ok.inj h⟩

/-- Two steps that go well have a result in between. -/
theorem exists_of_bind_eq_ok {x : Except ε α} {f : α → Except ε β} {b : β}
    (h : x.bind f = .ok b) : ∃ a, x = .ok a ∧ f a = .ok b := by
  cases x with
  | error e => cases h
  | ok a => exact ⟨a, rfl, h⟩

/-- Where the error is put in other words, a result is the one of before. -/
theorem eq_ok_of_mapError {ε' : Type} {x : Except ε α} {f : ε → ε'} {a : α}
    (h : x.mapError f = .ok a) : x = .ok a := by
  cases x with
  | error e => cases h
  | ok b => exact congrArg Except.ok (Except.ok.inj h)

/-- What every step of a run carries on, with what the run has taken in, holds at its end. -/
theorem foldlM_induction (P : List α → β → Prop) {step : β → α → Except ε β} {start last : β}
    {as : List α} (hstart : P [] start)
    (hstep : ∀ taken b a next, P taken b → step b a = .ok next → P (taken ++ [a]) next)
    (h : as.foldlM step start = .ok last) : P as last := by
  have hrun : ∀ rest taken b, P taken b → rest.foldlM step b = .ok last →
      P (taken ++ rest) last := by
    intro rest
    induction rest with
    | nil =>
      intro taken b hb hlast
      cases hlast
      rw [List.append_nil]
      exact hb
    | cons a rest ih =>
      intro taken b hb hlast
      rw [List.foldlM_cons] at hlast
      obtain ⟨next, hnext, hrest⟩ := exists_of_bind_eq_ok hlast
      rw [List.append_cons]
      exact ih (taken ++ [a]) next (hstep taken b a next hb hnext) hrest
  exact hrun as [] start hstart h

namespace Reading

variable (source : Entry → GrantAnswer)

/-- A reading that is over ends with its result. -/
@[simp]
theorem eval_done (a : α) : (done a).eval source = a := rfl

/-- The same for the function behind the notation. -/
@[simp]
theorem eval_bind' (m : Reading α) (f : α → Reading β) :
    (m.bind f).eval source = (f (m.eval source)).eval source :=
  eval_bind source m f

/-- A result alone asks for nothing. -/
@[simp]
theorem asked_pure (a : α) : (pure a : Reading α).asked source = [] := rfl

/-- A reading in two parts asks what the first part asks, and then what the second one asks after
its result. -/
@[simp]
theorem asked_bind (m : Reading α) (f : α → Reading β) :
    (m >>= f).asked source = m.asked source ++ (f (m.eval source)).asked source := by
  show (m.bind f).asked source = _
  induction m with
  | done a => rfl
  | ask entry next ih => simpa [bind, asked, eval] using ih (source entry)

/-- Only the answers to the questions that are asked matter. -/
theorem eval_eq_of_asked {source other : Entry → GrantAnswer} (m : Reading α)
    (h : ∀ e ∈ m.asked source, source e = other e) : m.eval source = m.eval other := by
  induction m with
  | done a => rfl
  | ask entry next ih =>
    have hentry : source entry = other entry := h entry (by simp [asked])
    have hrest := ih (source entry) fun e he => h e (by simp [asked, he])
    simpa [eval, hentry] using hrest

end Reading

namespace Reader

variable (source : Entry → GrantAnswer)

/-- A result alone is the outcome. -/
@[simp]
theorem eval_pure (a : α) : (pure a : Reader α).eval source = .ok a := rfl

/-- An error alone is the outcome. -/
@[simp]
theorem eval_throw (e : Error) : (throw e : Reader α).eval source = .error e := rfl

/-- The grants that are asked for are those that the source gives. -/
@[simp]
theorem eval_grantsOf (e : Entry) : (grantsOf e).eval source = source e := rfl

/-- An outcome that asks for nothing stays what it is. -/
@[simp]
theorem eval_mk_pure (x : Except Error α) : Reader.eval source (ExceptT.mk (pure x)) = x := rfl

/-- A reading that cannot fail ends with its result as a computation too. -/
@[simp]
theorem eval_liftM (m : Reading α) : (liftM m : Reader α).eval source = .ok (m.eval source) := by
  show Reading.eval source (m >>= fun a => pure (Except.ok a)) = _
  simp

/-- A computation in two parts ends with the error of the first part, or as the second one does
after its result. -/
@[simp]
theorem eval_bind (m : Reader α) (f : α → Reader β) :
    (m >>= f).eval source = (m.eval source).bind fun a => (f a).eval source := by
  simp only [eval, ExceptT.run_bind, Reading.eval_bind]
  cases Reading.eval source m.run <;> rfl

/-- A result alone asks for nothing. -/
@[simp]
theorem asked_pure (a : α) : (pure a : Reader α).asked source = [] := rfl

/-- An error alone asks for nothing. -/
@[simp]
theorem asked_throw (e : Error) : (throw e : Reader α).asked source = [] := rfl

/-- To ask for the grants of an entry is to ask for this entry and no other. -/
@[simp]
theorem asked_grantsOf (e : Entry) : (grantsOf e).asked source = [e] := rfl

/-- An outcome that is known asks for nothing. -/
@[simp]
theorem asked_mk_pure (x : Except Error α) : Reader.asked source (ExceptT.mk (pure x)) = [] := rfl

/-- A reading that cannot fail asks the same as a computation. -/
@[simp]
theorem asked_liftM (m : Reading α) : (liftM m : Reader α).asked source = m.asked source := by
  show Reading.asked source (m >>= fun a => pure (Except.ok a)) = _
  simp

/-- A sequence asks first what its first part asks, and then, if that part succeeds, what the rest
asks. -/
theorem mem_asked_bind {m : Reader α} {f : α → Reader β} {e : Entry} :
    e ∈ (m >>= f).asked source ↔
      e ∈ m.asked source ∨ ∃ a, m.eval source = .ok a ∧ e ∈ (f a).asked source := by
  simp only [asked, eval, ExceptT.run_bind, Reading.asked_bind, List.mem_append]
  cases Reading.eval source m.run <;> simp

end Reader

end DirectoryRights
