/-!
# Tables in order of arrival

A table maps keys to values and remembers the order in which its keys arrived. A new value for a key
takes the place of the old one; a key that was taken out and comes back stands at the end.
-/

set_option autoImplicit false

namespace DirectoryRights

/-- Keys with their values, oldest key first. -/
structure Table (α β : Type) where
  /-- The rows of the table. -/
  rows : List (α × β)
deriving DecidableEq

namespace Table

variable {α β : Type} [DecidableEq α]

/-- The table without rows. -/
def empty : Table α β := ⟨[]⟩

/-- The value of a key. -/
def get? (t : Table α β) (key : α) : Option β :=
  (t.rows.find? (·.1 = key)).map Prod.snd

/-- Whether the table has a value for a key. -/
def contains (t : Table α β) (key : α) : Bool :=
  (t.get? key).isSome

/-- The number of keys. -/
def size (t : Table α β) : Nat :=
  t.rows.length

/-- The table without a key. -/
def erase (t : Table α β) (key : α) : Table α β :=
  ⟨t.rows.filter (·.1 ≠ key)⟩

/-- The rows with `value` for `key`, in its old place or else at the end. -/
def put (key : α) (value : β) : List (α × β) → List (α × β)
  | [] => [(key, value)]
  | row :: rest => if row.1 = key then (key, value) :: rest else row :: put key value rest

/-- The table with a value for a key. -/
def insert (t : Table α β) (key : α) (value : β) : Table α β :=
  ⟨put key value t.rows⟩

/-- After a value was put under a key it is found there, and all other keys lead to what they led
to. -/
theorem get?_insert (t : Table α β) (key : α) (value : β) (k : α) :
    (t.insert key value).get? k = if k = key then some value else t.get? k := by
  obtain ⟨rows⟩ := t
  simp only [insert, get?]
  induction rows with
  | nil =>
    by_cases h : k = key
    · simp [put, h]
    · simp [put, h, Ne.symm h]
  | cons row rest ih =>
    simp only [put]
    by_cases hrow : row.1 = key
    · by_cases h : k = key
      · simp [hrow, h]
      · have hkey : ¬ key = k := fun e => h e.symm
        simp [hrow, h, hkey]
    · by_cases hk : row.1 = k
      · have : ¬ k = key := fun e => hrow (hk.trans e)
        simp [hk, this]
      · simpa [hrow, hk] using ih

/-- After a key was erased nothing is found there, and all other keys lead to what they led to. -/
theorem get?_erase (t : Table α β) (key k : α) :
    (t.erase key).get? k = if k = key then none else t.get? k := by
  obtain ⟨rows⟩ := t
  simp only [erase, get?]
  induction rows with
  | nil => simp
  | cons row rest ih =>
    by_cases hrow : row.1 = key
    · by_cases h : k = key
      · simp [h]
      · have hkey : ¬ key = k := fun e => h e.symm
        simpa [hrow, h, hkey] using ih
    · by_cases hk : row.1 = k
      · have : ¬ k = key := fun e => hrow (hk.trans e)
        simp [hk, this]
      · simpa [hrow, hk] using ih

end Table

end DirectoryRights
