import Thermoscape.Octets.Value
import Thermoscape.Proofs.Octets.Reading
import Thermoscape.Proofs.Octets.Utf8

/-!
# Thermoscape.Proofs.Octets.Sequence

**Values that are written one behind the other are read back one behind the other.**
`Value.layout` gives the bytes of a value by itself. Writing appends them, whatever
has been written before, and reading by the kind of the value takes exactly them,
whatever follows; so by induction over a sequence no value runs into the next.

Two kinds are not read back from every layout. A text has to be short enough for
its length to be announced, which is the one condition of this module. A flag is
read as true from any byte but 0, so its reader accepts more than the writer
writes, and what is proved of a value is one direction only: its own bytes are
read as the value.
-/

namespace Thermoscape

open LittleEndian (encode)

/-! ### The bytes of a value -/

namespace Value

def layout : Value → Octets
  | word8 n => encode 1 n.toNat
  | word16 n => encode 2 n.toNat
  | word32 n => encode 4 n.toNat
  | word64 n => encode 8 n.toNat
  | real32 x => encode 4 x.bits.toNat
  | real64 x => encode 8 x.bits.toNat
  | flag p => encode 1 (if p then 1 else 0)
  | text s => encode 4 (Utf8.encode s).length ++ Utf8.encode s
  | raw bytes => bytes

/-- The value is not a text that is too long for its length to be announced. -/
def Storable : Value → Prop
  | text s => (Utf8.encode s).length ≤ Builder.maxTextLength
  | _ => True

theorem storable_of_text {v : Value}
    (h : ∀ s, v = text s → (Utf8.encode s).length ≤ Builder.maxTextLength) : v.Storable := by
  cases v with
  | text s => exact h s rfl
  | _ => trivial

end Value

/-! ### Writing -/

/-- Writing a value appends its bytes, whatever the buffer holds. -/
theorem Builder.toOctets_value (b : Builder) {v : Value} (hv : v.Storable) :
    (b.value v).toOctets = b.toOctets ++ v.layout := by
  cases v with
  | text s => rw [value, toOctets_text b hv, Value.layout, List.append_assoc]
  | flag p => cases p <;> exact toOctets_word8 b _
  | _ => simp [value, Value.layout]

theorem Builder.toOctets_values (b : Builder) {vs : List Value} (hvs : ∀ v ∈ vs, v.Storable) :
    (b.values vs).toOctets = b.toOctets ++ vs.flatMap Value.layout := by
  induction vs generalizing b with
  | nil => simp [values]
  | cons v vs ih =>
      have rest := ih (b.value v) fun w hw => hvs w (List.mem_cons_of_mem v hw)
      rw [values] at rest
      rw [values, List.foldl_cons, rest, toOctets_value b (hvs v List.mem_cons_self),
        List.flatMap_cons, List.append_assoc]

/-! ### Reading -/

section Reading

variable {ε : Type} [ReportsDecodeError ε]

/-- The bytes of a value are read as the value. -/
theorem ReadM.value_eq_ok {v : Value} (hv : v.Storable) {c c' : Cursor}
    (h : c.Crosses v.layout c') : (ReadM.value v.kind : ReadM ε Value) c = .ok v c' := by
  cases v with
  | word8 n => exact map_eq_ok_iff.mpr ⟨n, word8_eq_ok_iff.mpr h, rfl⟩
  | word16 n => exact map_eq_ok_iff.mpr ⟨n, word16_eq_ok_iff.mpr h, rfl⟩
  | word32 n => exact map_eq_ok_iff.mpr ⟨n, word32_eq_ok_iff.mpr h, rfl⟩
  | word64 n => exact map_eq_ok_iff.mpr ⟨n, word64_eq_ok_iff.mpr h, rfl⟩
  | real32 x => exact map_eq_ok_iff.mpr ⟨x, real32_eq_ok_iff.mpr h, rfl⟩
  | real64 x => exact map_eq_ok_iff.mpr ⟨x, real64_eq_ok_iff.mpr h, rfl⟩
  | flag p =>
      -- Of the bytes that are read as true, the one that is written.
      have read : (flag : ReadM ε Bool) c = .ok p c' := by
        cases p with
        | false => exact map_eq_ok_iff.mpr ⟨0, word8_eq_ok_iff.mpr h, rfl⟩
        | true => exact map_eq_ok_iff.mpr ⟨1, word8_eq_ok_iff.mpr h, rfl⟩
      exact map_eq_ok_iff.mpr ⟨p, read, rfl⟩
  | text s =>
      have hlt : (Utf8.encode s).length < UInt32.size := Nat.lt_of_le_of_lt hv (by decide)
      have read : (text : ReadM ε String) c = .ok s c' :=
        text_eq_ok_iff.mpr ⟨Utf8.encode s, hlt, Utf8.decode_encode s, h⟩
      exact map_eq_ok_iff.mpr ⟨s, read, rfl⟩
  | raw bytes => exact map_eq_ok_iff.mpr ⟨bytes, take_eq_ok_iff.mpr ⟨rfl, h⟩, rfl⟩

/-- The bytes of a sequence are read as the sequence. -/
theorem ReadM.values_eq_ok {vs : List Value} (hvs : ∀ v ∈ vs, v.Storable) {c c' : Cursor}
    (h : c.Crosses (vs.flatMap Value.layout) c') :
    (ReadM.values (vs.map Value.kind) : ReadM ε (List Value)) c = .ok vs c' := by
  induction vs generalizing c with
  | nil =>
      obtain rfl := Cursor.crosses_nil_iff.mp h
      rfl
  | cons v vs ih =>
      rw [List.flatMap_cons] at h
      obtain ⟨m, hvalue, hrest⟩ := Cursor.crosses_append_iff.mp h
      have first := value_eq_ok (ε := ε) (hvs v List.mem_cons_self) hvalue
      have others := ih (fun w hw => hvs w (List.mem_cons_of_mem v hw)) hrest
      exact bind_eq_ok_iff.mpr
        ⟨v, m, first, bind_eq_ok_iff.mpr ⟨vs, c', others, pure_eq_ok_iff.mpr ⟨rfl, rfl⟩⟩⟩

/-! ### Behind a header -/

/-- What is enclosed stands behind the mark and the current version. -/
theorem Header.enclose_eq {payload : Builder → Builder} {bytes : Octets}
    (h : ∀ b, (payload b).toOctets = b.toOctets ++ bytes) :
    Header.enclose payload = encode 4 magic.toNat ++ encode 2 currentVersion.toNat ++ bytes := by
  rw [enclose, h, opened, write, Builder.toOctets_word16, Builder.toOctets_word32,
    Builder.toOctets_empty, List.nil_append]

/-- A payload is read where the header ends, and is told the version. -/
theorem Header.readEnclosed_eq_ok {α : Type} {payload : UInt16 → ReadM ε α} {version : UInt16}
    {c m c' : Cursor} {a : α} (hheader : (Header.read : ReadM ε UInt16) c = .ok version m)
    (hpayload : payload version m = .ok a c') :
    Header.readEnclosed payload c = .ok (version, a) c' :=
  bind_eq_ok_iff.mpr ⟨version, m, hheader,
    bind_eq_ok_iff.mpr ⟨a, c', hpayload, pure_eq_ok_iff.mpr ⟨rfl, rfl⟩⟩⟩

/-- **Sequences are read back as they were written.** Behind anything, whatever the
buffer was made with, the bytes of a sequence are those of its values in order. In
front of anything they are read back value for value, and reading ends where they
end. Behind a header the same holds from its end on: the payload is read from byte
6, and both it and the caller are told version 1. -/
theorem values_read_back {vs : List Value}
    (h : ∀ s, Value.text s ∈ vs → (Utf8.encode s).length ≤ UInt32.size - 1) :
    let bytes := vs.flatMap Value.layout
    let kinds := vs.map Value.kind
    let enclosed := Header.enclose (·.values vs)
    (∀ (b : Builder) (after : Octets),
      let written := (b.values vs).toOctets
      written = b.toOctets ++ bytes
      ∧ (ReadM.values kinds : ReadM ε (List Value))
            (Cursor.within (written ++ after) b.toOctets.length)
          = .ok vs (Cursor.within (written ++ after) (b.toOctets.length + bytes.length)))
    ∧ enclosed = encode 4 0x45564F53 ++ encode 2 1 ++ bytes
    ∧ ∀ after : Octets,
      (Header.read : ReadM ε UInt16) (Cursor.start (enclosed ++ after))
          = .ok 1 (Cursor.within (enclosed ++ after) 6)
      ∧ Header.readEnclosed (fun version => Prod.mk version <$> (ReadM.values kinds : ReadM ε _))
            (Cursor.start (enclosed ++ after))
          = .ok (1, 1, vs) (Cursor.within (enclosed ++ after) (6 + bytes.length)) := by
  intro bytes kinds enclosed
  have storable : ∀ v ∈ vs, v.Storable := by
    intro v hv
    exact Value.storable_of_text fun s hs => h s (hs ▸ hv)
  have written : ∀ b : Builder, (b.values vs).toOctets = b.toOctets ++ bytes :=
    fun b => b.toOctets_values storable
  have shape : enclosed = encode 4 0x45564F53 ++ encode 2 1 ++ bytes := Header.enclose_eq written
  refine ⟨?_, shape, ?_⟩
  · intro b after
    refine ⟨written b, ?_⟩
    rw [written b]
    exact ReadM.values_eq_ok storable (Cursor.within_crosses b.toOctets bytes after)
  · intro after
    have header : (Header.read : ReadM ε UInt16) (Cursor.start (enclosed ++ after))
        = .ok 1 (Cursor.within (enclosed ++ after) 6) := by
      have crosses := Cursor.within_crosses [] (encode 4 0x45564F53 ++ encode 2 1) (bytes ++ after)
      rw [List.nil_append, ← List.append_assoc, ← shape] at crosses
      exact (Header.inverts_read _ _ _).mpr ⟨by decide, crosses⟩
    have payload := Cursor.within_crosses (encode 4 0x45564F53 ++ encode 2 1) bytes after
    rw [← shape] at payload
    exact ⟨header, Header.readEnclosed_eq_ok header
      (map_eq_ok_iff.mpr ⟨vs, ReadM.values_eq_ok storable payload, rfl⟩)⟩

/-- A signalling NaN between a flag, an empty text, a text that is not ASCII and raw
bytes that look like the length of a text. -/
theorem values_read_back_mixed :
    let vs : List Value := [.flag true, .text "", .real64 ⟨0x7ff0000000000001⟩, .text "é😀",
      .raw [1, 0, 0, 0], .word16 0xFFFE, .flag false, .real32 ⟨0x80000000⟩, .word8 7]
    (∀ s, Value.text s ∈ vs → (Utf8.encode s).length ≤ UInt32.size - 1)
      ∧ (ReadM.values (vs.map Value.kind) : ReadM DecodeError (List Value))
            (Cursor.within ((((Builder.withCapacity 3).raw [9]).values vs).toOctets ++ [5]) 1)
          = .ok vs (Cursor.within
              ((((Builder.withCapacity 3).raw [9]).values vs).toOctets ++ [5]) 36) := by
  intro vs
  have short : ∀ s, Value.text s ∈ vs → (Utf8.encode s).length ≤ UInt32.size - 1 := by
    intro s hs
    have : s = "" ∨ s = "é😀" := by simpa [vs] using hs
    rcases this with rfl | rfl
    · decide
    · decide
  exact ⟨short, ((values_read_back short).1 ((Builder.withCapacity 3).raw [9]) [5]).2⟩

end Reading

end Thermoscape
