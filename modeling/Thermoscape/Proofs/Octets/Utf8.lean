import Thermoscape.Octets.Utf8

/-!
# Thermoscape.Proofs.Octets.Utf8

**Decoding is the identity on text.** The machine reads the bytes of a
character as that character and is idle again behind them, whatever follows
(`decodeFrom_encodeChar`). By induction over a text nothing in it is replaced
(`decode_encode`).

The length of a character decides the path through the machine: a lead byte
opens the character with its high bits, and each further byte adds six bits. The
only bytes whose range is narrower than that of a continuation byte are those
behind the lead bytes of the shortest and the longest three- and four-byte
characters; `start_three` and `start_four` say that the second byte of a
character always lies in the range that its own lead byte asks for.
-/

namespace Thermoscape.Utf8

/-! ### One byte of an open character -/

/-- The byte that carries six bits of a character behind its lead byte. -/
def continuation (n : Nat) : UInt8 := UInt8.ofNat (n % 0x40 + 0x80)

theorem toNat_continuation (n : Nat) : (continuation n).toNat = n % 0x40 + 0x80 := by
  rw [continuation, UInt8.toNat_ofNat']
  omega

theorem le_continuation (n : Nat) : 0x80 ≤ continuation n := by
  rw [UInt8.le_iff_toNat_le, toNat_continuation]
  exact Nat.le_add_left _ _

theorem continuation_le (n : Nat) : continuation n ≤ 0xBF := by
  have : n % 0x40 < 0x40 := Nat.mod_lt _ (by decide)
  rw [UInt8.le_iff_toNat_le, toNat_continuation]
  show n % 0x40 + 0x80 ≤ 0xBF
  omega

/-- A byte that opens a character gives nothing by itself. -/
theorem decodeFrom_open {b : UInt8} {s : Begun} (h : start b = ([], some s)) (bs : Octets) :
    decodeFrom none (b :: bs) = decodeFrom (some s) bs := by
  simp [decodeFrom_cons, feed, h]

/-- A byte before the last one adds its bits. -/
theorem decodeFrom_more {value later n : Nat} {low high : UInt8}
    (hlow : low ≤ continuation n) (hhigh : continuation n ≤ high) (bs : Octets) :
    decodeFrom (some ⟨value, later + 1, low, high⟩) (continuation n :: bs)
      = decodeFrom (some ⟨value * 64 + n % 64, later, 0x80, 0xBF⟩) bs := by
  simp [decodeFrom_cons, feed, Begun.proceed, hlow, hhigh, toNat_continuation]

/-- The last byte of a character completes it. -/
theorem decodeFrom_last {value n : Nat} {low high : UInt8}
    (hlow : low ≤ continuation n) (hhigh : continuation n ≤ high) (bs : Octets) :
    decodeFrom (some ⟨value, 0, low, high⟩) (continuation n :: bs)
      = Char.ofNat (value * 64 + n % 64) :: decodeFrom none bs := by
  simp [decodeFrom_cons, feed, Begun.proceed, hlow, hhigh, toNat_continuation]

/-! ### The bytes of a character -/

/-- The lead byte of a two-byte character keeps the bits above the last six. -/
theorem start_two {v : Nat} (h : 0x80 ≤ v) (h' : v ≤ 0x7FF) :
    start (UInt8.ofNat (v / 64 % 0x20 + 0xC0)) = ([], some ⟨v / 64, 0, 0x80, 0xBF⟩) := by
  have lead : (UInt8.ofNat (v / 64 % 0x20 + 0xC0)).toNat = v / 64 + 0xC0 := by
    rw [UInt8.toNat_ofNat']
    omega
  simp only [start, UInt8.lt_iff_toNat_lt, lead, UInt8.reduceToNat]
  rw [if_neg (by omega), if_neg (by omega), if_pos (by omega), Nat.add_sub_cancel]

/-- The lead byte of a three-byte character keeps the bits above the last
twelve, and lets through the byte that carries the next six. -/
theorem start_three {v : Nat} (h : 0x800 ≤ v) (h' : v ≤ 0xFFFF)
    (hs : v < 0xD800 ∨ 0xDFFF < v) :
    ∃ low high, start (UInt8.ofNat (v / 4096 % 0x10 + 0xE0)) = ([], some ⟨v / 4096, 1, low, high⟩)
      ∧ low ≤ continuation (v / 64) ∧ continuation (v / 64) ≤ high := by
  have lead : (UInt8.ofNat (v / 4096 % 0x10 + 0xE0)).toNat = v / 4096 + 0xE0 := by
    rw [UInt8.toNat_ofNat']
    omega
  simp only [start, UInt8.lt_iff_toNat_lt, ← UInt8.toNat_inj, lead, UInt8.reduceToNat]
  rw [if_neg (by omega), if_neg (by omega), if_neg (by omega)]
  -- Only behind 0xE0 and 0xED is the range of the second byte narrower.
  by_cases shortest : v / 4096 = 0
  · refine ⟨0xA0, 0xBF, ?_, ?_, continuation_le _⟩
    · rw [if_pos (by omega), shortest]
    · rw [UInt8.le_iff_toNat_le, toNat_continuation]
      show 0xA0 ≤ v / 64 % 0x40 + 0x80
      omega
  by_cases surrogate : v / 4096 = 0xD
  · refine ⟨0x80, 0x9F, ?_, le_continuation _, ?_⟩
    · rw [if_neg (by omega), if_pos (by omega), surrogate]
    · rw [UInt8.le_iff_toNat_le, toNat_continuation]
      show v / 64 % 0x40 + 0x80 ≤ 0x9F
      omega
  · refine ⟨0x80, 0xBF, ?_, le_continuation _, continuation_le _⟩
    rw [if_neg (by omega), if_neg (by omega), if_pos (by omega), Nat.add_sub_cancel]

/-- The lead byte of a four-byte character keeps the bits above the last
eighteen, and lets through the byte that carries the next six. -/
theorem start_four {v : Nat} (h : 0x10000 ≤ v) (h' : v ≤ 0x10FFFF) :
    ∃ low high, start (UInt8.ofNat (v / 262144 % 0x08 + 0xF0))
        = ([], some ⟨v / 262144, 2, low, high⟩)
      ∧ low ≤ continuation (v / 4096) ∧ continuation (v / 4096) ≤ high := by
  have lead : (UInt8.ofNat (v / 262144 % 0x08 + 0xF0)).toNat = v / 262144 + 0xF0 := by
    rw [UInt8.toNat_ofNat']
    omega
  simp only [start, UInt8.lt_iff_toNat_lt, ← UInt8.toNat_inj, lead, UInt8.reduceToNat]
  rw [if_neg (by omega), if_neg (by omega), if_neg (by omega), if_neg (by omega),
    if_neg (by omega), if_neg (by omega)]
  -- Here it is narrower behind 0xF0, and behind 0xF4, where the last character ends.
  by_cases shortest : v / 262144 = 0
  · refine ⟨0x90, 0xBF, ?_, ?_, continuation_le _⟩
    · rw [if_pos (by omega), shortest]
    · rw [UInt8.le_iff_toNat_le, toNat_continuation]
      show 0x90 ≤ v / 4096 % 0x40 + 0x80
      omega
  by_cases longest : v / 262144 = 4
  · refine ⟨0x80, 0x8F, ?_, le_continuation _, ?_⟩
    · rw [if_neg (by omega), if_neg (by omega), if_pos (by omega), longest]
    · rw [UInt8.le_iff_toNat_le, toNat_continuation]
      show v / 4096 % 0x40 + 0x80 ≤ 0x8F
      omega
  · refine ⟨0x80, 0xBF, ?_, le_continuation _, continuation_le _⟩
    rw [if_neg (by omega), if_pos (by omega), Nat.add_sub_cancel]

/-- **One character.** Its bytes are read as the character, and the machine is
idle behind them. -/
theorem decodeFrom_encodeChar (c : Char) (bs : Octets) :
    decodeFrom none (String.utf8EncodeChar c ++ bs) = c :: decodeFrom none bs := by
  have valid : c.val.toNat < 0xD800 ∨ 0xDFFF < c.val.toNat ∧ c.val.toNat < 0x110000 := c.valid
  have same : Char.ofNat c.val.toNat = c := Char.ofNat_toNat c
  unfold String.utf8EncodeChar
  generalize c.val.toNat = v at valid same
  dsimp only
  -- The case split of the encoder: one, two, three or four bytes.
  split
  · next one =>
    have lead : (UInt8.ofNat v).toNat = v := by
      rw [UInt8.toNat_ofNat']
      omega
    have small : UInt8.ofNat v < 0x80 := by
      rw [UInt8.lt_iff_toNat_lt, lead]
      show v < 0x80
      omega
    rw [List.singleton_append, decodeFrom_cons, feed, start, if_pos small, lead, same]
    rfl
  split
  · next one two =>
    have bits : v / 64 * 64 + v % 64 = v := by omega
    change decodeFrom none (_ :: continuation v :: bs) = _
    rw [decodeFrom_open (start_two (by omega) two),
      decodeFrom_last (le_continuation _) (continuation_le _), bits, same]
  split
  · next one two three =>
    have bits : (v / 4096 * 64 + v / 64 % 64) * 64 + v % 64 = v := by omega
    obtain ⟨low, high, opened, hlow, hhigh⟩ := start_three (by omega) three (by omega)
    change decodeFrom none (_ :: continuation (v / 64) :: continuation v :: bs) = _
    rw [decodeFrom_open opened, decodeFrom_more hlow hhigh,
      decodeFrom_last (le_continuation _) (continuation_le _), bits, same]
  · next one two three =>
    have bits : ((v / 262144 * 64 + v / 4096 % 64) * 64 + v / 64 % 64) * 64 + v % 64 = v := by
      omega
    obtain ⟨low, high, opened, hlow, hhigh⟩ := start_four (v := v) (by omega) (by omega)
    change decodeFrom none
      (_ :: continuation (v / 4096) :: continuation (v / 64) :: continuation v :: bs) = _
    rw [decodeFrom_open opened, decodeFrom_more hlow hhigh,
      decodeFrom_more (le_continuation _) (continuation_le _),
      decodeFrom_last (le_continuation _) (continuation_le _), bits, same]

/-! ### Texts -/

/-- The characters of a text come back, in front of whatever follows it. -/
theorem decodeFrom_encodeChars (cs : List Char) (bs : Octets) :
    decodeFrom none (encodeChars cs ++ bs) = cs ++ decodeFrom none bs := by
  induction cs with
  | nil => rfl
  | cons c cs ih =>
      rw [encodeChars_cons, List.append_assoc, decodeFrom_encodeChar, ih, List.cons_append]

/-- **Nothing in a text is replaced.** -/
@[simp] theorem decode_encode (s : String) : decode (encode s) = s := by
  have chars := decodeFrom_encodeChars s.toList []
  rw [List.append_nil, decodeFrom_none_nil, List.append_nil] at chars
  rw [decode, encode, chars, String.ofList_toList]

end Thermoscape.Utf8
