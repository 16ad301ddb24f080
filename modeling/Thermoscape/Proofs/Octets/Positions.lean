import Thermoscape.Octets.Value
import Thermoscape.Proofs.Octets.Reading

/-!
# Thermoscape.Proofs.Octets.Positions

**Reading by place.** `Reading` says which values a reader gives and what bytes it
gives them from. Here the question is asked the other way round: the bytes are
fixed, the cursor stands at a place in them, and the answer is computed from the
bytes at that place. `slice` and `wordAt` look at a byte string directly, without
any reader.

`ReadM.Fixed` says that a reader takes a fixed number of bytes: it gives a value of
exactly these, or reports how many there are and stays. A sequence that begins with
such a reader goes on behind its bytes (`Fixed.bind_within`), so a format of
fixed-width fields is followed from place to place. A text is the one reader whose
width stands in the bytes themselves (`text_within`). Over all kinds of values,
`value_within` says which bytes a value is read from, or which are missing.
-/

namespace Thermoscape

open LittleEndian (encode decode capacity)

/-! ### Bytes at a place -/

/-- The `n` bytes from a place on, or as many as there are. -/
def slice (offset n : Nat) (bytes : Octets) : Octets := (bytes.drop offset).take n

/-- The number in the `width` bytes from a place on. -/
def wordAt (width offset : Nat) (bytes : Octets) : Nat := decode (slice offset width bytes)

theorem decode_slice (width offset : Nat) (bytes : Octets) :
    decode (slice offset width bytes) = wordAt width offset bytes := rfl

theorem length_slice {offset n : Nat} {bytes : Octets} (h : n ≤ bytes.length - offset) :
    (slice offset n bytes).length = n := by
  rw [slice, List.length_take, List.length_drop, Nat.min_eq_left h]

/-- What stands between two parts of a string is found by their lengths. -/
theorem slice_append (before bytes after : Octets) :
    slice before.length bytes.length (before ++ bytes ++ after) = bytes := by
  simp [slice]

theorem wordAt_append (before after : Octets) {width n : Nat} (h : n < capacity width) :
    wordAt width before.length (before ++ encode width n ++ after) = n := by
  have found := slice_append before (encode width n) after
  rw [LittleEndian.length_encode] at found
  rw [wordAt, found, LittleEndian.decode_encode h]

/-- The word that stands behind a part of a known length. -/
theorem wordAt_of_eq {bytes : Octets} {width n offset : Nat} (before after : Octets)
    (h : bytes = before ++ encode width n ++ after) (hoffset : before.length = offset)
    (hn : n < capacity width) : wordAt width offset bytes = n := by
  rw [h, ← hoffset]
  exact wordAt_append before after hn

/-- Places may be counted from a later beginning. -/
theorem wordAt_add (width offset offset' : Nat) (bytes : Octets) :
    wordAt width (offset + offset') bytes = wordAt width offset' (bytes.drop offset) := by
  rw [wordAt, wordAt, slice, slice, List.drop_drop]

/-- A word that is all there is a number that its width can hold. -/
theorem wordAt_lt {width offset : Nat} {bytes : Octets} (h : width ≤ bytes.length - offset) :
    wordAt width offset bytes < capacity width := by
  have bound := LittleEndian.decode_lt (slice offset width bytes)
  rwa [length_slice h] at bound

namespace Cursor

theorem start_eq_within (bytes : Octets) : start bytes = within bytes 0 := rfl

theorem remaining_within (bytes : Octets) (offset : Nat) :
    (within bytes offset).remaining = bytes.length - offset := by
  simp [remaining, within]

/-- Bytes that are there can be moved over. -/
theorem within_crosses_slice {offset n : Nat} {bytes : Octets} (h : n ≤ bytes.length - offset) :
    (within bytes offset).Crosses (slice offset n bytes) (within bytes (offset + n)) := by
  refine ⟨?_, ?_⟩
  · simp only [within, slice, ← List.drop_drop, List.take_append_drop]
  · rw [length_slice h]
    rfl

end Cursor

/-! ### Readers of a fixed number of bytes -/

namespace ReadM

open Cursor (within)

variable {ε α β : Type} [ReportsDecodeError ε]

/-- The complaint that `needed` bytes are not there at a place. -/
def shortAt (bytes : Octets) (offset needed : Nat) : ε :=
  ReportsDecodeError.report (.pastEnd offset needed (bytes.length - offset))

/-- The reader gives `value` of the next `width` bytes, or says that they are not
all there and stays. -/
def Fixed (r : ReadM ε α) (width : Nat) (value : Octets → α) : Prop :=
  ∀ bytes offset, r (within bytes offset)
    = if width ≤ bytes.length - offset then
        .ok (value (slice offset width bytes)) (within bytes (offset + width))
      else .error (shortAt bytes offset width) (within bytes offset)

theorem fixed_take (n : Nat) : (take n : ReadM ε Octets).Fixed n id := by
  intro bytes offset
  by_cases h : n ≤ bytes.length - offset
  · rw [if_pos h]
    exact take_eq_ok_iff.mpr ⟨length_slice h, Cursor.within_crosses_slice h⟩
  · have short : (within bytes offset).remaining < n := by
      rw [Cursor.remaining_within]
      omega
    rw [if_neg h, take_of_remaining_lt short, Cursor.remaining_within]
    rfl

theorem Fixed.map {r : ReadM ε α} {width : Nat} {value : Octets → α} (h : r.Fixed width value)
    (f : α → β) : (f <$> r).Fixed width (fun bytes => f (value bytes)) := by
  intro bytes offset
  show EStateM.map f r _ = _
  rw [EStateM.map, h bytes offset]
  by_cases there : width ≤ bytes.length - offset
  · rw [if_pos there, if_pos there]
  · rw [if_neg there, if_neg there]

theorem fixed_word8 :
    (word8 : ReadM ε UInt8).Fixed 1 (fun bytes => UInt8.ofNat (decode bytes)) :=
  ((fixed_take 1).map _).map _

theorem fixed_word16 :
    (word16 : ReadM ε UInt16).Fixed 2 (fun bytes => UInt16.ofNat (decode bytes)) :=
  ((fixed_take 2).map _).map _

theorem fixed_word32 :
    (word32 : ReadM ε UInt32).Fixed 4 (fun bytes => UInt32.ofNat (decode bytes)) :=
  ((fixed_take 4).map _).map _

theorem fixed_word64 :
    (word64 : ReadM ε UInt64).Fixed 8 (fun bytes => UInt64.ofNat (decode bytes)) :=
  ((fixed_take 8).map _).map _

theorem fixed_real32 :
    (real32 : ReadM ε Binary32).Fixed 4 (fun bytes => ⟨UInt32.ofNat (decode bytes)⟩) :=
  fixed_word32.map _

theorem fixed_real64 :
    (real64 : ReadM ε Binary64).Fixed 8 (fun bytes => ⟨UInt64.ofNat (decode bytes)⟩) :=
  fixed_word64.map _

/-- A sequence goes on behind the bytes of its first reader. -/
theorem Fixed.bind_within {r : ReadM ε α} {width : Nat} {value : Octets → α}
    (h : r.Fixed width value) (f : α → ReadM ε β) (bytes : Octets) (offset : Nat) :
    (r >>= f) (within bytes offset)
      = if width ≤ bytes.length - offset then
          f (value (slice offset width bytes)) (within bytes (offset + width))
        else .error (shortAt bytes offset width) (within bytes offset) := by
  show EStateM.bind r f _ = _
  rw [EStateM.bind, h bytes offset]
  by_cases there : width ≤ bytes.length - offset
  · rw [if_pos there, if_pos there]
  · rw [if_neg there, if_neg there]

theorem toNat_word16 {offset : Nat} {bytes : Octets} (h : 2 ≤ bytes.length - offset) :
    (UInt16.ofNat (wordAt 2 offset bytes)).toNat = wordAt 2 offset bytes :=
  UInt16.toNat_ofNat_of_lt' (wordAt_lt h)

theorem toNat_word32 {offset : Nat} {bytes : Octets} (h : 4 ≤ bytes.length - offset) :
    (UInt32.ofNat (wordAt 4 offset bytes)).toNat = wordAt 4 offset bytes :=
  UInt32.toNat_ofNat_of_lt' (wordAt_lt h)

/-- A text is as long as the word in front of it says. Whichever of the two is cut
off, reading stays in front of both. -/
theorem text_within (bytes : Octets) (offset : Nat) :
    (text : ReadM ε String) (within bytes offset)
      = if 4 ≤ bytes.length - offset then
          if wordAt 4 offset bytes ≤ bytes.length - (offset + 4) then
            .ok (Utf8.decode (slice (offset + 4) (wordAt 4 offset bytes) bytes))
              (within bytes (offset + 4 + wordAt 4 offset bytes))
          else .error (shortAt bytes (offset + 4) (wordAt 4 offset bytes)) (within bytes offset)
        else .error (shortAt bytes offset 4) (within bytes offset) := by
  rw [text, atomic, fixed_word32.bind_within]
  by_cases there : 4 ≤ bytes.length - offset
  · have length : (UInt32.ofNat (decode (slice offset 4 bytes))).toNat = wordAt 4 offset bytes :=
      toNat_word32 there
    rw [if_pos there, if_pos there, length, (fixed_take _).map]
    by_cases body : wordAt 4 offset bytes ≤ bytes.length - (offset + 4)
    · rw [if_pos body, if_pos body]
      rfl
    · rw [if_neg body, if_neg body]
  · rw [if_neg there, if_neg there]

end ReadM

/-! ### Values -/

namespace Kind

/-- The number of bytes of a value at a place. Only a text says so in the bytes. -/
def widthAt (bytes : Octets) (offset : Nat) : Kind → Nat
  | word8 => 1
  | word16 => 2
  | word32 => 4
  | word64 => 8
  | real32 => 4
  | real64 => 8
  | flag => 1
  | text => 4 + wordAt 4 offset bytes
  | raw length => length

/-- What the bytes of a value stand for. -/
def valueOf (bytes : Octets) : Kind → Value
  | word8 => .word8 (UInt8.ofNat (decode bytes))
  | word16 => .word16 (UInt16.ofNat (decode bytes))
  | word32 => .word32 (UInt32.ofNat (decode bytes))
  | word64 => .word64 (UInt64.ofNat (decode bytes))
  | real32 => .real32 ⟨UInt32.ofNat (decode bytes)⟩
  | real64 => .real64 ⟨UInt64.ofNat (decode bytes)⟩
  | flag => .flag (UInt8.ofNat (decode bytes) != 0)
  | text => .text (Utf8.decode (bytes.drop 4))
  | raw _ => .raw bytes

/-- Where bytes are missing when a value is not all there, and how many are needed there:
a text of which the length is there lacks bytes behind the length. -/
def missingAt (bytes : Octets) (offset : Nat) : Kind → Nat × Nat
  | text =>
    if 4 ≤ bytes.length - offset then (offset + 4, wordAt 4 offset bytes) else (offset, 4)
  | k => (offset, k.widthAt bytes offset)

/-- The bytes that are missing are really missing, at the end of the string. -/
theorem missingAt_spec {k : Kind} {bytes : Octets} {offset : Nat} (hoffset : offset ≤ bytes.length)
    (h : bytes.length - offset < k.widthAt bytes offset) :
    (k.missingAt bytes offset).1 ≤ bytes.length
      ∧ bytes.length - (k.missingAt bytes offset).1 < (k.missingAt bytes offset).2 := by
  cases k with
  | text =>
      simp only [widthAt] at h
      by_cases there : 4 ≤ bytes.length - offset
      · simp only [missingAt, if_pos there]
        omega
      · simp only [missingAt, if_neg there]
        omega
  | _ => exact ⟨hoffset, h⟩

end Kind

/-- **A value by place**: it is what its bytes stand for, or some of them are missing. -/
theorem ReadM.value_within {ε : Type} [ReportsDecodeError ε] (k : Kind) (bytes : Octets)
    (offset : Nat) :
    (ReadM.value k : ReadM ε Value) (Cursor.within bytes offset)
      = if k.widthAt bytes offset ≤ bytes.length - offset then
          .ok (k.valueOf (slice offset (k.widthAt bytes offset) bytes))
            (Cursor.within bytes (offset + k.widthAt bytes offset))
        else .error (shortAt bytes (k.missingAt bytes offset).1 (k.missingAt bytes offset).2)
          (Cursor.within bytes offset) := by
  cases k with
  | word8 => exact (fixed_word8.map _) bytes offset
  | word16 => exact (fixed_word16.map _) bytes offset
  | word32 => exact (fixed_word32.map _) bytes offset
  | word64 => exact (fixed_word64.map _) bytes offset
  | real32 => exact (fixed_real32.map _) bytes offset
  | real64 => exact (fixed_real64.map _) bytes offset
  | flag => exact ((fixed_word8.map _).map _) bytes offset
  | raw length => exact ((fixed_take length).map _) bytes offset
  | text =>
      show EStateM.map Value.text text _ = _
      rw [EStateM.map, text_within]
      have width : Kind.text.widthAt bytes offset = 4 + wordAt 4 offset bytes := rfl
      by_cases there : 4 ≤ bytes.length - offset
      · by_cases body : wordAt 4 offset bytes ≤ bytes.length - (offset + 4)
        · have fits : Kind.text.widthAt bytes offset ≤ bytes.length - offset := by omega
          rw [if_pos there, if_pos body, if_pos fits, width]
          simp [Kind.valueOf, slice, List.drop_take, Nat.add_assoc]
        · have lacks : ¬ Kind.text.widthAt bytes offset ≤ bytes.length - offset := by omega
          have missing : Kind.text.missingAt bytes offset = (offset + 4, wordAt 4 offset bytes) :=
            if_pos there
          rw [if_pos there, if_neg body, if_neg lacks, missing]
      · have lacks : ¬ Kind.text.widthAt bytes offset ≤ bytes.length - offset := by omega
        have missing : Kind.text.missingAt bytes offset = (offset, 4) := if_neg there
        rw [if_neg there, if_neg lacks, missing]

/-! ### Headers -/

/-- A header is decided by its six bytes, the mark before the version. -/
theorem Header.read_start {ε : Type} [ReportsDecodeError ε] (bytes : Octets) :
    (Header.read : ReadM ε UInt16) (Cursor.start bytes)
      = if 4 ≤ bytes.length then
          if UInt32.ofNat (wordAt 4 0 bytes) ≠ magic then
            .error (ReportsDecodeError.report (.wrongMagic (UInt32.ofNat (wordAt 4 0 bytes))))
              (Cursor.within bytes 4)
          else if 2 ≤ bytes.length - 4 then
            if currentVersion < UInt16.ofNat (wordAt 2 4 bytes) then
              .error (ReportsDecodeError.report
                (.newerVersion (UInt16.ofNat (wordAt 2 4 bytes)) currentVersion))
                (Cursor.within bytes 6)
            else .ok (UInt16.ofNat (wordAt 2 4 bytes)) (Cursor.within bytes 6)
          else .error (ReadM.shortAt bytes 4 2) (Cursor.within bytes 4)
        else .error (ReadM.shortAt bytes 0 4) (Cursor.within bytes 0) := by
  rw [Header.read_eq, Cursor.start_eq_within, ReadM.fixed_word32.bind_within, Nat.sub_zero]
  by_cases mark : 4 ≤ bytes.length
  · rw [if_pos mark, if_pos mark, decode_slice]
    by_cases wrong : UInt32.ofNat (wordAt 4 0 bytes) ≠ magic
    · rw [if_pos wrong, if_pos wrong]
      rfl
    · rw [if_neg wrong, if_neg wrong, ReadM.fixed_word16.bind_within, decode_slice]
      by_cases version : 2 ≤ bytes.length - 4
      · rw [if_pos version, if_pos version]
        by_cases newer : currentVersion < UInt16.ofNat (wordAt 2 4 bytes)
        · rw [if_pos newer, if_pos newer]
          rfl
        · rw [if_neg newer, if_neg newer]
          rfl
      · rw [if_neg version, if_neg version]
  · rw [if_neg mark, if_neg mark]

end Thermoscape
