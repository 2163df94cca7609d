import DirectoryRights.Uuid
import DirectoryRights.Uuid.Digest

/-!
# Identifiers derived from names

A name has one identifier: the first sixteen bytes of the digest of the namespace of object
identifiers followed by the name, with the version set to five and the variant to the standard one.
-/

set_option autoImplicit false

namespace DirectoryRights.Uuid

/-- The bytes of the namespace of object identifiers. -/
def namespaceBytes : List UInt8 :=
  [0x6B, 0xA7, 0xB8, 0x12, 0x9D, 0xAD, 0x11, 0xD1, 0x80, 0xB4, 0x00, 0xC0, 0x4F, 0xD4, 0x30, 0xC8]

/-- The eight hexadecimal digits of a word. -/
def wordDigits (w : UInt32) : List (Fin 16) :=
  (List.range 8).map fun i => lastDigit (w.toNat >>> (4 * (7 - i)))

/-- The digits with the version and the variant of a derived identifier in their places. -/
def stamp (ds : List (Fin 16)) : List (Fin 16) :=
  let variant := (ds[16]?.elim 0 Fin.val) % 4
  (ds.set 12 (lastDigit 5)).set 16 (lastDigit (8 + variant))

/-- The digits of the identifier of a name. -/
def nameDigits (name : String) : List (Fin 16) :=
  stamp (((Sha1.digest (namespaceBytes ++ name.toUTF8.toList)).flatMap wordDigits).take 32)

/-- An id made of a name has all its digits. -/
theorem length_nameDigits (name : String) : (nameDigits name).length = 32 := by
  have hwords : ∀ s : Sha1.State, (s.words.flatMap wordDigits).length = 40 := by
    intro s
    simp [Sha1.State.words, wordDigits]
  simp [nameDigits, stamp, Sha1.digest, hwords]

/-- The identifier of a name. -/
def ofName (name : String) : Uuid :=
  ⟨nameDigits name, length_nameDigits name⟩

end DirectoryRights.Uuid
