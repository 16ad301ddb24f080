import Thermoscape.Number.Binary32
import Thermoscape.Number.Binary64
import Thermoscape.Octets.Utf8

/-!
# Thermoscape.Octets.Builder

A growing buffer that typed values are written to, one behind the other.

The buffer is an array, so that writing at its end is cheap; what it means is
the byte string `toOctets`. Each operation is pinned by what it appends to that
view, and none looks at what is already there. Numbers are little-endian,
floating point numbers are stored as their bits, a truth value is one byte, a
text is its length in bytes as a 32-bit word and then its UTF-8 bytes.
-/

namespace Thermoscape

/-- The bytes written so far. -/
structure Builder where
  buffer : Array UInt8

namespace Builder

/-- The byte string that has been written. -/
def toOctets (b : Builder) : Octets := b.buffer.toList

/-- A buffer with nothing in it and room for `capacity` bytes. -/
def withCapacity (capacity : Nat) : Builder := ⟨Array.emptyWithCapacity capacity⟩

def empty : Builder := withCapacity 0

def size (b : Builder) : Nat := b.buffer.size

def isEmpty (b : Builder) : Bool := b.size = 0

/-- Appends bytes as they are. -/
def raw (b : Builder) (bs : Octets) : Builder := ⟨b.buffer ++ bs⟩

/-- Appends the low bytes of a number. -/
def word (b : Builder) (width n : Nat) : Builder := b.raw (LittleEndian.encode width n)

def word8 (b : Builder) (n : UInt8) : Builder := b.word 1 n.toNat

def word16 (b : Builder) (n : UInt16) : Builder := b.word 2 n.toNat

def word32 (b : Builder) (n : UInt32) : Builder := b.word 4 n.toNat

def word64 (b : Builder) (n : UInt64) : Builder := b.word 8 n.toNat

def real32 (b : Builder) (x : Binary32) : Builder := b.word32 x.bits

def real64 (b : Builder) (x : Binary64) : Builder := b.word64 x.bits

/-- Appends a truth value: 1 for true and 0 for false. -/
def flag (b : Builder) (p : Bool) : Builder := b.word8 (if p then 1 else 0)

/-- The most bytes of a text that its length word can announce. -/
def maxTextLength : Nat := UInt32.size - 1

/-- Appends a text behind its length. Bytes past what the length word can
announce are left out. -/
def text (b : Builder) (s : String) : Builder :=
  let bytes := (Utf8.encode s).take maxTextLength
  (b.word 4 bytes.length).raw bytes

/-! ### What the operations append -/

@[simp] theorem toOctets_withCapacity (capacity : Nat) :
    (withCapacity capacity).toOctets = [] := rfl

@[simp] theorem toOctets_empty : empty.toOctets = [] := rfl

@[simp] theorem length_toOctets (b : Builder) : b.toOctets.length = b.size := by
  simp [toOctets, size]

@[simp] theorem toOctets_raw (b : Builder) (bs : Octets) :
    (b.raw bs).toOctets = b.toOctets ++ bs := by
  simp [toOctets, raw]

@[simp] theorem toOctets_word (b : Builder) (width n : Nat) :
    (b.word width n).toOctets = b.toOctets ++ LittleEndian.encode width n := by
  simp [word]

@[simp] theorem toOctets_word8 (b : Builder) (n : UInt8) :
    (b.word8 n).toOctets = b.toOctets ++ LittleEndian.encode 1 n.toNat := by
  simp [word8]

@[simp] theorem toOctets_word16 (b : Builder) (n : UInt16) :
    (b.word16 n).toOctets = b.toOctets ++ LittleEndian.encode 2 n.toNat := by
  simp [word16]

@[simp] theorem toOctets_word32 (b : Builder) (n : UInt32) :
    (b.word32 n).toOctets = b.toOctets ++ LittleEndian.encode 4 n.toNat := by
  simp [word32]

@[simp] theorem toOctets_word64 (b : Builder) (n : UInt64) :
    (b.word64 n).toOctets = b.toOctets ++ LittleEndian.encode 8 n.toNat := by
  simp [word64]

@[simp] theorem toOctets_real32 (b : Builder) (x : Binary32) :
    (b.real32 x).toOctets = b.toOctets ++ LittleEndian.encode 4 x.bits.toNat := by
  simp [real32]

@[simp] theorem toOctets_real64 (b : Builder) (x : Binary64) :
    (b.real64 x).toOctets = b.toOctets ++ LittleEndian.encode 8 x.bits.toNat := by
  simp [real64]

/-- A text that its length word can announce is written whole. -/
theorem toOctets_text (b : Builder) {s : String} (h : (Utf8.encode s).length ≤ maxTextLength) :
    (b.text s).toOctets
      = b.toOctets ++ LittleEndian.encode 4 (Utf8.encode s).length ++ Utf8.encode s := by
  simp only [text, List.take_of_length_le h, toOctets_raw, toOctets_word]

end Builder

end Thermoscape
