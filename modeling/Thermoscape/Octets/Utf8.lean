import Thermoscape.Octets.LittleEndian

/-!
# Thermoscape.Octets.Utf8

UTF-8 text inside byte strings.

Encoding is the standard one, character by character. Decoding accepts every
byte string: each *maximal ill-formed part*, that is the longest beginning of a
character that the bytes rule out from being continued, or a single byte that
can begin no character, is read as one replacement character.

The decoder is a machine that takes one byte at a time. Between characters it
is idle; inside a character it keeps the bits seen so far and the range in
which the next byte has to lie. The range is narrower than that of a
continuation byte only directly behind four of the lead bytes, where it keeps
out overlong forms, surrogates and numbers past the last character. A byte
outside the range ends the ill-formed part *in front of it* and is then read
as if the machine had been idle.
-/

namespace Thermoscape.Utf8

def encodeChars (cs : List Char) : Octets := cs.flatMap String.utf8EncodeChar

def encode (s : String) : Octets := encodeChars s.toList

@[simp] theorem encodeChars_nil : encodeChars [] = [] := rfl

@[simp] theorem encodeChars_cons (c : Char) (cs : List Char) :
    encodeChars (c :: cs) = String.utf8EncodeChar c ++ encodeChars cs := rfl

@[simp] theorem encodeChars_append (cs ds : List Char) :
    encodeChars (cs ++ ds) = encodeChars cs ++ encodeChars ds := by
  simp [encodeChars]

/-! ### The decoding machine -/

/-- A character that has begun: its bits so far, how many bytes are to come
after the next one, and the range of the next one. -/
structure Begun where
  value : Nat
  later : Nat
  low : UInt8
  high : UInt8
  deriving DecidableEq

/-- What stands in for bytes that are not text. -/
def replacement : Char := '\uFFFD'

/-- What a byte between two characters gives: a character of its own, the
beginning of one, or a replacement. -/
def start (b : UInt8) : List Char × Option Begun :=
  if b < 0x80 then ([Char.ofNat b.toNat], none)
  else if b < 0xC2 then ([replacement], none)
  else if b < 0xE0 then ([], some ⟨b.toNat - 0xC0, 0, 0x80, 0xBF⟩)
  else if b = 0xE0 then ([], some ⟨0x0, 1, 0xA0, 0xBF⟩)
  else if b = 0xED then ([], some ⟨0xD, 1, 0x80, 0x9F⟩)
  else if b < 0xF0 then ([], some ⟨b.toNat - 0xE0, 1, 0x80, 0xBF⟩)
  else if b = 0xF0 then ([], some ⟨0x0, 2, 0x90, 0xBF⟩)
  else if b < 0xF4 then ([], some ⟨b.toNat - 0xF0, 2, 0x80, 0xBF⟩)
  else if b = 0xF4 then ([], some ⟨0x4, 2, 0x80, 0x8F⟩)
  else ([replacement], none)

/-- What a byte gives inside a character: the character when it was the last
one, and a replacement for the character when the byte cannot continue it. -/
def Begun.proceed (s : Begun) (b : UInt8) : List Char × Option Begun :=
  if s.low ≤ b ∧ b ≤ s.high then
    let value := s.value * 64 + (b.toNat - 0x80)
    match s.later with
    | 0 => ([Char.ofNat value], none)
    | later + 1 => ([], some ⟨value, later, 0x80, 0xBF⟩)
  else
    let (cs, s') := start b
    (replacement :: cs, s')

def feed : Option Begun → UInt8 → List Char × Option Begun
  | none, b => start b
  | some s, b => s.proceed b

/-- The characters that a byte string gives from a state of the machine. A
character that is still open at the end is replaced. -/
def decodeFrom : Option Begun → Octets → List Char
  | none, [] => []
  | some _, [] => [replacement]
  | s, b :: bs => (feed s b).1 ++ decodeFrom (feed s b).2 bs

def decode (bs : Octets) : String := String.ofList (decodeFrom none bs)

@[simp] theorem decodeFrom_none_nil : decodeFrom none [] = [] := rfl

@[simp] theorem decodeFrom_some_nil (s : Begun) : decodeFrom (some s) [] = [replacement] := rfl

theorem decodeFrom_cons (s : Option Begun) (b : UInt8) (bs : Octets) :
    decodeFrom s (b :: bs) = (feed s b).1 ++ decodeFrom (feed s b).2 bs := by
  cases s <;> rfl

end Thermoscape.Utf8
