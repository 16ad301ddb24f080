/-!
# Thermoscape.Octets.LittleEndian

Byte strings and the fixed-width words in them, least significant byte first.

A word of any width is a natural number below the `capacity` of that width, so
one pair of functions serves all widths: `LittleEndian.encode` lays out the low bytes of a
number and `LittleEndian.decode` adds them up again. `decode_encode` and
`encode_decode` say that they are inverse to each other on the numbers that
the width can hold and on the strings of that width.
-/

namespace Thermoscape

/-- A byte string. -/
abbrev Octets := List UInt8

namespace LittleEndian

/-- The `width` low bytes of `n`, least significant first. -/
def encode : (width n : Nat) → Octets
  | 0, _ => []
  | width + 1, n => UInt8.ofNat n :: encode width (n / 256)

/-- How many numbers the words of a width can tell apart. -/
def capacity : (width : Nat) → Nat
  | 0 => 1
  | width + 1 => 256 * capacity width

/-- The number whose bytes are given, least significant first. -/
def decode : Octets → Nat
  | [] => 0
  | b :: bs => b.toNat + 256 * decode bs

@[simp] theorem decode_nil : decode [] = 0 := rfl

@[simp] theorem decode_cons (b : UInt8) (bs : Octets) :
    decode (b :: bs) = b.toNat + 256 * decode bs := rfl

@[simp] theorem capacity_succ (width : Nat) :
    capacity (width + 1) = 256 * capacity width := rfl

@[simp] theorem length_encode (width n : Nat) : (encode width n).length = width := by
  induction width generalizing n with
  | zero => rfl
  | succ width ih => simp [encode, ih]

/-- A number survives the layout up to what the width cannot hold. -/
theorem decode_encode_mod (width n : Nat) : decode (encode width n) = n % capacity width := by
  induction width generalizing n with
  | zero => simp [encode, capacity, Nat.mod_one]
  | succ width ih =>
    have low : (UInt8.ofNat n).toNat = n % 256 := by simp [UInt8.toNat_ofNat']
    rw [encode, decode_cons, ih, low, capacity_succ, Nat.mod_mul]

/-- A number that fits the width is read back as it was. -/
theorem decode_encode {width n : Nat} (h : n < capacity width) :
    decode (encode width n) = n := by
  rw [decode_encode_mod, Nat.mod_eq_of_lt h]

/-- A byte string stands for a number that its width can hold. -/
theorem decode_lt (bs : Octets) : decode bs < capacity bs.length := by
  induction bs with
  | nil => simp [capacity]
  | cons b bs ih =>
    have hb : b.toNat < 256 := b.toNat_lt
    rw [decode_cons, List.length_cons, capacity_succ]
    omega

/-- Every byte string is the layout of the number it stands for. -/
theorem encode_decode (bs : Octets) : encode bs.length (decode bs) = bs := by
  induction bs with
  | nil => rfl
  | cons b bs ih =>
    have hb : b.toNat < 256 := b.toNat_lt
    have hdiv : (b.toNat + 256 * decode bs) / 256 = decode bs := by omega
    have hlow : UInt8.ofNat (b.toNat + 256 * decode bs) = b := by
      apply UInt8.toNat.inj
      rw [UInt8.toNat_ofNat']
      omega
    rw [List.length_cons, decode_cons, encode, hdiv, ih, hlow]

end LittleEndian

end Thermoscape
