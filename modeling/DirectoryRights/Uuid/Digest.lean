/-!
# The SHA-1 digest

A message is padded to whole blocks of sixteen words. Every block runs eighty rounds over a state
of five words; the words of the rounds come from a window of sixteen words, which slides by one word
in each round.
-/

set_option autoImplicit false

namespace DirectoryRights.Sha1

/-- A word turned left by `n` bits. -/
def rotate (w : UInt32) (n : UInt32) : UInt32 :=
  (w <<< n) ||| (w >>> (32 - n))

/-- The five words of the running digest. -/
structure State where
  /-- First word. -/
  a : UInt32
  /-- Second word. -/
  b : UInt32
  /-- Third word. -/
  c : UInt32
  /-- Fourth word. -/
  d : UInt32
  /-- Fifth word. -/
  e : UInt32

/-- The digest before the first block. -/
def State.start : State :=
  ⟨0x67452301, 0xEFCDAB89, 0x98BADCFE, 0x10325476, 0xC3D2E1F0⟩

/-- Word-wise sum of two states. -/
def State.add (s t : State) : State :=
  ⟨s.a + t.a, s.b + t.b, s.c + t.c, s.d + t.d, s.e + t.e⟩

/-- The words of a state in order. -/
def State.words (s : State) : List UInt32 :=
  [s.a, s.b, s.c, s.d, s.e]

/-- How the three middle words are mixed in a round. -/
def mix (round : Nat) (b c d : UInt32) : UInt32 :=
  if round < 20 then (b &&& c) ||| (~~~b &&& d)
  else if round < 40 then b ^^^ c ^^^ d
  else if round < 60 then (b &&& c) ||| (b &&& d) ||| (c &&& d)
  else b ^^^ c ^^^ d

/-- The constant of a round. -/
def roundConstant (round : Nat) : UInt32 :=
  if round < 20 then 0x5A827999
  else if round < 40 then 0x6ED9EBA1
  else if round < 60 then 0x8F1BBCDC
  else 0xCA62C1D6

/-- One round on the word `w`. -/
def State.step (s : State) (round : Nat) (w : UInt32) : State :=
  ⟨rotate s.a 5 + mix round s.b s.c s.d + s.e + roundConstant round + w,
    s.a, rotate s.b 30, s.c, s.d⟩

/-- The word that enters the window when its first word leaves. -/
def nextWord (window : List UInt32) : UInt32 :=
  rotate (window.getD 13 0 ^^^ window.getD 8 0 ^^^ window.getD 2 0 ^^^ window.getD 0 0) 1

/-- The rounds still to run, on a window of sixteen words. -/
def rounds : Nat → List UInt32 → State → State
  | 0, _, s => s
  | left + 1, window, s =>
    rounds left (window.drop 1 ++ [nextWord window])
      (s.step (80 - (left + 1)) (window.getD 0 0))

/-- The digest after one more block. -/
def State.absorb (s : State) (block : List UInt32) : State :=
  s.add (rounds 80 block s)

/-- Four bytes as a word, most significant first. -/
def wordOf (a b c d : UInt8) : UInt32 :=
  (a.toUInt32 <<< 24) ||| (b.toUInt32 <<< 16) ||| (c.toUInt32 <<< 8) ||| d.toUInt32

/-- Bytes as words; fewer than four bytes at the end are left out. -/
def wordsOf : List UInt8 → List UInt32
  | a :: b :: c :: d :: rest => wordOf a b c d :: wordsOf rest
  | _ => []

/-- The eight bytes of a length, most significant first. -/
def lengthBytes (bits : Nat) : List UInt8 :=
  (List.range 8).map fun i => UInt8.ofNat (bits >>> (8 * (7 - i)))

/-- The message followed by a one bit, zeros and its length in bits. -/
def pad (message : List UInt8) : List UInt8 :=
  let zeros := (119 - message.length % 64) % 64
  message ++ 0x80 :: List.replicate zeros 0 ++ lengthBytes (8 * message.length)

/-- The blocks of sixteen words of a padded message. -/
def blocks (words : List UInt32) : List (List UInt32) :=
  (List.range (words.length / 16)).map fun i => (words.drop (16 * i)).take 16

/-- The digest of a message, as five words. -/
def digest (message : List UInt8) : List UInt32 :=
  ((blocks (wordsOf (pad message))).foldl State.absorb State.start).words

end DirectoryRights.Sha1
