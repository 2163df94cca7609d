import DirectoryRights.Proofs.Reading

/-!
# Readings that follow each other

One reading follows another if it asks for the same entries in the same order, as long as it gets
the answers of the other in some translation, and ends with a translation of its result. Then it
does so whatever gives the answers, be it a source that changes with the questions, as long as the
sources correspond too.
-/

set_option autoImplicit false

namespace DirectoryRights

variable {α β γ δ : Type} {translate : GrantAnswer → GrantAnswer}

/-- The second reading does what the first one does, in translation. -/
inductive Reading.Follows (translate : GrantAnswer → GrantAnswer) (out : α → β) :
    Reading α → Reading β → Prop where
  /-- Both are finished. -/
  | done (a : α) : Follows translate out (.done a) (.done (out a))
  /-- Both ask for the same entry, and the rests follow each other after every answer. -/
  | ask (e : Entry) {next : GrantAnswer → Reading α} {next' : GrantAnswer → Reading β}
    (h : ∀ answer, Follows translate out (next answer) (next' (translate answer))) :
    Follows translate out (.ask e next) (.ask e next')

namespace Reading.Follows

variable {out : α → β} {m : Reading α} {m' : Reading β}

/-- Two parts that follow each other make wholes that do. -/
theorem bind {out' : γ → δ} {next : α → Reading γ} {next' : β → Reading δ}
    (h : Follows translate out m m')
    (hnext : ∀ a, Follows translate out' (next a) (next' (out a))) :
    Follows translate out' (m.bind next) (m'.bind next') := by
  induction h with
  | done a => exact hnext a
  | ask e _ ih => exact .ask e ih

/-- Where the sources correspond, so do the results and the sources at the end. -/
theorem run {σ τ : Type} {source : Entry → σ → GrantAnswer × σ}
    {source' : Entry → τ → GrantAnswer × τ} {image : σ → τ} (h : Follows translate out m m')
    (hsource : ∀ e s, source' e (image s) = (translate (source e s).1, image (source e s).2))
    (s : σ) :
    m'.run source' (image s) = (out (m.run source s).1, image (m.run source s).2) := by
  induction h generalizing s with
  | done a => rfl
  | ask e _ ih =>
    unfold Reading.run
    rw [hsource]
    exact ih (source e s).1 (source e s).2

/-- Where the answers correspond, so do the results. -/
theorem eval {source other : Entry → GrantAnswer} (h : Follows translate out m m')
    (hsource : ∀ e, other e = translate (source e)) : m'.eval other = out (m.eval source) := by
  induction h with
  | done a => rfl
  | ask e _ ih =>
    unfold Reading.eval
    rw [hsource]
    exact ih (source e)

end Reading.Follows

/-- The second computation does what the first one does, in translation, and fails as it does. -/
def Reader.Follows (translate : GrantAnswer → GrantAnswer) (out : α → β) (m : Reader α)
    (m' : Reader β) : Prop :=
  Reading.Follows translate (Except.map out) m.run m'.run

namespace Reader.Follows

variable {out : α → β}

/-- A result without questions follows its translation. -/
theorem pure (a : α) : Follows translate out (pure a) (pure (out a)) :=
  Reading.Follows.done (Except.ok a)

/-- An error is the same on both sides. -/
theorem throw (e : Error) : Follows translate out (throw e) (throw e) :=
  Reading.Follows.done (Except.error e)

/-- An outcome without questions follows its translation. -/
theorem mk_pure (x : Except Error α) :
    Follows translate out (ExceptT.mk (Pure.pure x)) (ExceptT.mk (Pure.pure (x.map out))) :=
  Reading.Follows.done x

/-- A reading that cannot fail follows another one as a computation too. -/
theorem liftM {m : Reading α} {m' : Reading β} (h : Reading.Follows translate out m m') :
    Follows translate out (liftM m) (liftM m') :=
  h.bind fun a => .done (Except.ok a)

/-- Two parts that follow each other make wholes that do, also where the first one fails. -/
theorem bind {out' : γ → δ} {m : Reader α} {m' : Reader β} {next : α → Reader γ}
    {next' : β → Reader δ} (h : Follows translate out m m')
    (hnext : ∀ a, Follows translate out' (next a) (next' (out a))) :
    Follows translate out' (m >>= next) (m' >>= next') := by
  refine Reading.Follows.bind h ?_
  rintro (e | a)
  · exact .done (Except.error e)
  · exact hnext a

/-- Where the answers correspond, so do the outcomes. -/
theorem eval {m : Reader α} {m' : Reader β} {source other : Entry → GrantAnswer}
    (h : Follows translate out m m') (hsource : ∀ e, other e = translate (source e)) :
    m'.eval other = (m.eval source).map out :=
  Reading.Follows.eval h hsource

end Reader.Follows

end DirectoryRights
