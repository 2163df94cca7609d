import DirectoryRights.GrantSet

/-!
# Computations that read grants

A check reads the grants stored on entries one entry after the other, and which entry it reads next
may depend on what it found. Such a computation is a tree: it is finished, or it asks for the grants
of an entry and goes on with the answer. What answers the questions, the stored lines or a memo of
them, is not its matter.
-/

set_option autoImplicit false

namespace DirectoryRights

/-- The grants of an entry as a check sees them: none where the entry stores none. -/
abbrev GrantAnswer := Except Error (Option GrantSet)

/-- A computation that may ask for the grants of entries. -/
inductive Reading (α : Type) where
  /-- The computation is finished. -/
  | done (result : α)
  /-- The computation asks for the grants of an entry. -/
  | ask (entry : Entry) (next : GrantAnswer → Reading α)

namespace Reading

variable {α β σ : Type}

/-- The computation that goes on with the result of another. -/
def bind : Reading α → (α → Reading β) → Reading β
  | done result, next => next result
  | ask entry rest, next => ask entry fun answer => (rest answer).bind next

instance : Monad Reading where
  pure := done
  bind := bind

/-- The result when every question for an entry has the answer that `source` gives. -/
def eval (source : Entry → GrantAnswer) : Reading α → α
  | done result => result
  | ask entry next => (next (source entry)).eval source

/-- The result when answers come from a source that changes with the questions, and the source
after the last of them. -/
def run (source : Entry → σ → GrantAnswer × σ) : Reading α → σ → α × σ
  | done result, s => (result, s)
  | ask entry next, s =>
    let (answer, s) := source entry s
    (next answer).run source s

/-- The entries that are asked for, in order, when every question has the answer of `source`. -/
def asked (source : Entry → GrantAnswer) : Reading α → List Entry
  | done _ => []
  | ask entry next => entry :: (next (source entry)).asked source

/-- A reading that asks nothing ends with its result. -/
@[simp]
theorem eval_pure (source : Entry → GrantAnswer) (a : α) :
    (Pure.pure a : Reading α).eval source = a := rfl

/-- A reading in two parts ends as the second part does, begun with the result of the first. -/
@[simp]
theorem eval_bind (source : Entry → GrantAnswer) (m : Reading α) (f : α → Reading β) :
    (m >>= f).eval source = (f (m.eval source)).eval source := by
  show (m.bind f).eval source = _
  induction m with
  | done result => rfl
  | ask entry next ih => exact ih _

end Reading

/-- A computation that may ask for the grants of entries and may fail. -/
abbrev Reader (α : Type) := ExceptT Error Reading α

/-- Asks for the grants of an entry; a failure to read them is a failure of the computation. -/
def Reader.grantsOf (entry : Entry) : Reader (Option GrantSet) :=
  ExceptT.mk (Reading.ask entry Reading.done)

end DirectoryRights
