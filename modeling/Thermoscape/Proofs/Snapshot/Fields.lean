import Thermoscape.Proofs.Octets.Positions
import Thermoscape.Proofs.Snapshot.Grammar

/-!
# Thermoscape.Proofs.Snapshot.Fields

**Where the fields of a file stand.** `Stored` says that a byte string begins with a
header, a name and a snapshot, laid out one behind the other; nothing is asked of the
numbers of items, so it holds of whatever is written, also of what cannot be read
back. The lemmas about it find each word that decides about a file by its place: the
header and the length of the name from the beginning, the rest from where the name
ends.
-/

namespace Thermoscape

open LittleEndian (encode)

/-- Where the name of a file ends, by its declared length. -/
def nameEnd (bytes : Octets) : Nat := 10 + wordAt 4 6 bytes

/-- The bytes that the name of a file is stored as. -/
def storedName (bytes : Octets) : Octets := slice 10 (wordAt 4 6 bytes) bytes

/-- The byte string is the layout of a header, of a name and of a snapshot, and goes on
with `after`. -/
structure Stored (bytes : Octets) (version : UInt16) (name : Octets) (s : Snapshot)
    (after : Octets) : Prop where
  bytes_eq : bytes = Header.layout version ++ s.layout name ++ after
  name_lt : name.length < UInt32.size

theorem WireForm.stored {bytes name after : Octets} {version : UInt16} {s : Snapshot}
    (h : WireForm bytes version name s after) : Stored bytes version name s after :=
  ⟨h.eq_layout, h.name_lt⟩

/-- Whatever is written is stored, under the bytes of its name that are kept. -/
theorem Snapshot.stored_payload (s : Snapshot) (version : UInt16) (after : Octets) :
    Stored (Header.layout version ++ s.payload ++ after) version (Builder.kept s.name) s after :=
  ⟨by rw [payload_eq], Builder.length_kept_lt s.name⟩

namespace Stored

variable {bytes name after : Octets} {version : UInt16} {s : Snapshot}

/-! ### From the beginning -/

/-- The header is there. -/
theorem header_le_length (h : Stored bytes version name s after) : 6 ≤ bytes.length := by
  rw [h.bytes_eq]
  simp only [Header.layout, List.length_append, LittleEndian.length_encode]
  omega

theorem wordAt_magic (h : Stored bytes version name s after) : wordAt 4 0 bytes = 0x45564F53 :=
  wordAt_of_eq [] (encode 2 version.toNat ++ s.layout name ++ after)
    (by simp [h.bytes_eq, Header.layout, Header.magic]) rfl (by decide)

theorem wordAt_version (h : Stored bytes version name s after) :
    wordAt 2 4 bytes = version.toNat :=
  wordAt_of_eq (encode 4 Header.magic.toNat) (s.layout name ++ after)
    (by simp [h.bytes_eq, Header.layout]) rfl version.toNat_lt

theorem wordAt_nameLength (h : Stored bytes version name s after) :
    wordAt 4 6 bytes = name.length :=
  wordAt_of_eq (Header.layout version) (name ++ s.body ++ after)
    (by simp [h.bytes_eq, Snapshot.layout, nameLayout]) rfl h.name_lt

theorem nameEnd_eq (h : Stored bytes version name s after) : nameEnd bytes = 10 + name.length := by
  rw [nameEnd, h.wordAt_nameLength]

theorem storedName_eq (h : Stored bytes version name s after) : storedName bytes = name := by
  have found := slice_append (Header.layout version ++ encode 4 name.length) name (s.body ++ after)
  rw [storedName, h.wordAt_nameLength, h.bytes_eq, Snapshot.layout, nameLayout]
  simpa [Header.layout] using found

/-! ### Behind the name -/

/-- Behind the name stands the rest of the snapshot. -/
theorem drop_nameEnd (h : Stored bytes version name s after) :
    bytes.drop (nameEnd bytes) = s.body ++ after := by
  have before : nameEnd bytes = (Header.layout version ++ nameLayout name).length := by
    rw [h.nameEnd_eq]
    simp only [Header.layout, nameLayout, List.length_append, LittleEndian.length_encode]
    omega
  rw [before, h.bytes_eq, Snapshot.layout]
  simp

theorem wordAt_width (h : Stored bytes version name s after) :
    wordAt 4 (nameEnd bytes + 12) bytes = s.extent.width.toNat := by
  rw [wordAt_add, h.drop_nameEnd]
  exact wordAt_of_eq (encode 8 s.timestamp.toNat ++ encode 4 s.formatVersion.toNat) _
    (by simp only [Snapshot.body, List.append_assoc]; rfl) rfl s.extent.width.toNat_lt

theorem wordAt_height (h : Stored bytes version name s after) :
    wordAt 4 (nameEnd bytes + 16) bytes = s.extent.height.toNat := by
  rw [wordAt_add, h.drop_nameEnd]
  exact wordAt_of_eq (encode 8 s.timestamp.toNat ++ encode 4 s.formatVersion.toNat
    ++ encode 4 s.extent.width.toNat) _
    (by simp only [Snapshot.body, List.append_assoc]; rfl) rfl s.extent.height.toNat_lt

/-- The number of temperatures is stored as far as its word can hold it. -/
theorem wordAt_count (h : Stored bytes version name s after) :
    wordAt 4 (nameEnd bytes + 36) bytes = s.temperatures.length % UInt32.size := by
  rw [wordAt_add, h.drop_nameEnd]
  exact wordAt_of_eq (encode 8 s.timestamp.toNat ++ encode 4 s.formatVersion.toNat
    ++ encode 4 s.extent.width.toNat ++ encode 4 s.extent.height.toNat
    ++ encode 8 s.time.bits.toNat ++ encode 8 s.ambient.bits.toNat) _
    (by
      have low := LittleEndian.encode_mod 4 s.temperatures.length
      simp only [Snapshot.body, countedLayout, ← low, List.append_assoc]
      rfl)
    rfl (Nat.mod_lt _ (by decide))

end Stored

end Thermoscape
