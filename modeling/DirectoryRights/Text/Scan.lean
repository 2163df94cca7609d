/-!
# Scanning text

A scan takes something from the beginning of a text and leaves the rest, or finds nothing and takes
nothing. What is left of a text is kept with its length, so that a round which takes nothing is seen
at once: repetition goes on as long as each round takes something, and therefore always ends.
-/

set_option autoImplicit false

namespace DirectoryRights.Text

/-- What is left of a text. -/
structure Rest where
  /-- The characters still to be read. -/
  chars : List Char
  /-- Their number. -/
  size : Nat
  /-- The number is right. -/
  size_eq : size = chars.length

namespace Rest

/-- The whole of a text. -/
def ofList (cs : List Char) : Rest :=
  ⟨cs, cs.length, rfl⟩

/-- The first character and what is left after it. -/
def next? : Rest → Option (Char × Rest)
  | ⟨[], _, _⟩ => none
  | ⟨c :: cs, n, h⟩ => some (c, ⟨cs, n - 1, by simp [h]⟩)

/-- What is left after so many characters more. -/
def drop (r : Rest) (n : Nat) : Rest :=
  ⟨r.chars.drop n, r.size - n, by simp [r.size_eq]⟩

/-- The characters between this and a later place. -/
def upTo (r later : Rest) : List Char :=
  r.chars.take (r.size - later.size)

end Rest

/-- Takes a value from the beginning of a text, if it finds one. -/
abbrev Scan := StateT Rest Option

namespace Scan

variable {α β : Type}

/-- One character of a class. -/
def one (accepts : Char → Bool) : Scan Char := fun r =>
  r.next?.filter fun (c, _) => accepts c

/-- One given character. -/
def char (c : Char) : Scan Char :=
  one (· = c)

/-- A given word. -/
def word (text : String) : Scan Unit := fun r =>
  if text.toList.isPrefixOf r.chars then some ((), r.drop text.toList.length) else none

/-- The end of the text. -/
def finish : Scan Unit := fun r =>
  if r.chars = [] then some ((), r) else none

/-- What a scan finds, or nothing. -/
def maybe (p : Scan α) : Scan (Option α) := fun r =>
  match p r with
  | some (a, rest) => some (some a, rest)
  | none => some (none, r)

/-- What a scan finds again and again from the beginning of a text, and the rest. -/
def repeated (p : Scan α) (r : Rest) : List α × Rest :=
  match p r with
  | none => ([], r)
  | some (a, rest) =>
    if rest.size < r.size then
      let (found, rest) := repeated p rest
      (a :: found, rest)
    else
      ([], r)
termination_by r.size

/-- As many values as a scan finds one after the other. -/
def many (p : Scan α) : Scan (List α) := fun r =>
  some (repeated p r)

/-- At least one value, and as many as follow it. -/
def atLeastOne (p : Scan α) : Scan (List α) := do
  let first ← p
  let more ← many p
  return first :: more

/-- Values with a mark between them, none allowed. -/
def separated (p : Scan α) (mark : Scan β) : Scan (List α) := do
  match ← maybe p with
  | none => return []
  | some first =>
    let more ← many (do let _ ← mark; p)
    return first :: more

/-- Exactly so many values. -/
def count (p : Scan α) : Nat → Scan (List α)
  | 0 => return []
  | n + 1 => do
    let first ← p
    let more ← count p n
    return first :: more

/-- The value of a scan if it meets a condition. -/
def check (p : Scan α) (accepts : α → Bool) : Scan α := do
  let a ← p
  if accepts a then return a else failure

/-- The characters a scan takes, whatever it makes of them. -/
def taken (p : Scan α) : Scan (List Char) := fun r =>
  match p r with
  | some (_, rest) => some (r.upTo rest, rest)
  | none => none

end Scan

end DirectoryRights.Text
