import Thermoscape.Proofs.Octets.Reading
import Thermoscape.Snapshot.Layout

/-!
# Thermoscape.Proofs.Snapshot.Wire

**The bytes of a snapshot, said once.** `Snapshot.layout` lists the fields of the
format in order, with the bytes of the name given apart from the snapshot: other
bytes than those of a text are allowed in a file and are read with replacements.
The writer and the reader are two separate programs, and both are tied to this
list:

* what is written behind anything is the layout (`toOctets_write`), without any
  condition on the snapshot;
* reading succeeds exactly on the layout of snapshots whose counts fit the words
  of the format (`readWith_eq_ok_iff`, `Loaded.read_eq_ok_iff`).

The early check for room does not appear in what is accepted: `Admits` is all that
the reader needs of it, which a check that never fails satisfies as well.
-/

namespace Thermoscape

/-! ### The layout -/

/-- The bytes of a temperature. -/
def temperatureLayout (t : Binary64) : Octets := LittleEndian.encode 8 t.bits.toNat

/-- The bytes of a creature. -/
def Creature.layout (c : Creature) : Octets :=
  LittleEndian.encode 4 c.x.bits.toNat ++ LittleEndian.encode 4 c.y.bits.toNat
    ++ LittleEndian.encode 4 c.energy.bits.toNat ++ LittleEndian.encode 4 c.dna.length ++ c.dna

/-- The bytes of counted items. -/
def countedLayout {α : Type} (layout : α → Octets) (as : List α) : Octets :=
  LittleEndian.encode 4 as.length ++ as.flatMap layout

/-- The bytes of a name behind their number. -/
def nameLayout (name : Octets) : Octets := LittleEndian.encode 4 name.length ++ name

/-- The bytes of a header. -/
def Header.layout (version : UInt16) : Octets :=
  LittleEndian.encode 4 Header.magic.toNat ++ LittleEndian.encode 2 version.toNat

namespace Snapshot

/-- The bytes of a snapshot behind its name. -/
def body (s : Snapshot) : Octets :=
  LittleEndian.encode 8 s.timestamp.toNat ++ LittleEndian.encode 4 s.formatVersion.toNat
    ++ LittleEndian.encode 4 s.extent.width.toNat ++ LittleEndian.encode 4 s.extent.height.toNat
    ++ LittleEndian.encode 8 s.time.bits.toNat ++ LittleEndian.encode 8 s.ambient.bits.toNat
    ++ countedLayout temperatureLayout s.temperatures ++ countedLayout Creature.layout s.creatures

/-- The bytes of a snapshot whose name is stored as the given bytes. -/
def layout (s : Snapshot) (name : Octets) : Octets := nameLayout name ++ s.body

/-- The numbers of items are those that the words of the format can announce,
and there is a temperature for every cell. -/
structure Fits (s : Snapshot) : Prop where
  temperatures_eq : s.temperatures.length = s.extent.count
  count_lt : s.extent.count < UInt32.size
  creatures_lt : s.creatures.length < UInt32.size
  dna_lt : ∀ c ∈ s.creatures, c.dna.length < UInt32.size

end Snapshot

/-! ### Writing -/

/-- Laying out a number only looks at what the width can hold. -/
theorem LittleEndian.encode_mod (width n : Nat) :
    encode width (n % capacity width) = encode width n := by
  have h := encode_decode (encode width n)
  rwa [length_encode, decode_encode_mod] at h

theorem LittleEndian.encode_word32 (n : Nat) :
    encode 4 (UInt32.ofNat n).toNat = encode 4 n := by
  rw [UInt32.toNat_ofNat', ← encode_mod 4 n]
  rfl

namespace Builder

/-- The bytes of a text that are written. -/
def kept (s : String) : Octets := (Utf8.encode s).take maxTextLength

/-- A text that its length can announce is kept whole. -/
theorem kept_eq {s : String} (h : (Utf8.encode s).length ≤ maxTextLength) :
    kept s = Utf8.encode s :=
  List.take_of_length_le h

theorem length_kept_lt (s : String) : (kept s).length < UInt32.size := by
  have : (kept s).length ≤ maxTextLength := by
    rw [kept, List.length_take]
    exact Nat.min_le_left _ _
  exact Nat.lt_of_le_of_lt this (by decide)

theorem toOctets_text_kept (b : Builder) (s : String) :
    (b.text s).toOctets = b.toOctets ++ nameLayout (kept s) := by
  simp [text, kept, nameLayout, List.append_assoc]

/-- Writing items one after the other writes their layouts one after the other. -/
theorem toOctets_foldl {α : Type} {write : Builder → α → Builder} {layout : α → Octets}
    (h : ∀ b a, (write b a).toOctets = b.toOctets ++ layout a) (as : List α) (b : Builder) :
    (as.foldl write b).toOctets = b.toOctets ++ as.flatMap layout := by
  induction as generalizing b with
  | nil => simp
  | cons a as ih => rw [List.foldl_cons, ih, h, List.flatMap_cons, List.append_assoc]

end Builder

theorem Header.toOctets_write (b : Builder) (version : UInt16) :
    (Header.write b version).toOctets = b.toOctets ++ Header.layout version := by
  rw [write, Builder.toOctets_word16, Builder.toOctets_word32, layout, List.append_assoc]

theorem Creature.toOctets_write (b : Builder) (c : Creature) :
    (c.write b).toOctets = b.toOctets ++ c.layout := by
  simp only [write, layout, Builder.toOctets_raw, Builder.toOctets_word32,
    Builder.toOctets_real32, LittleEndian.encode_word32, List.append_assoc]

namespace Snapshot

/-- **What is written** is the layout, behind whatever has been written before. -/
theorem toOctets_write (b : Builder) (s : Snapshot) :
    (s.write b).toOctets = b.toOctets ++ s.layout (Builder.kept s.name) := by
  have temperatures := @Builder.toOctets_foldl _ _ temperatureLayout Builder.toOctets_real64
  have creatures := Builder.toOctets_foldl Creature.toOctets_write
  simp only [write, creatures, temperatures, Builder.toOctets_word32, Builder.toOctets_word64,
    Builder.toOctets_real64, Builder.toOctets_text_kept, LittleEndian.encode_word32, layout, body,
    countedLayout, List.append_assoc]

theorem payload_eq (s : Snapshot) : s.payload = s.layout (Builder.kept s.name) := by
  rw [payload, toOctets_write, Builder.toOctets_empty, List.nil_append]

/-- With a temperature for every cell the bytes of a snapshot are its payload
behind a header of the current version. -/
theorem toBytes_eq {s : Snapshot} (h : s.temperatures.length = s.extent.count) :
    s.toBytes = .ok (Header.layout Header.currentVersion ++ s.payload) := by
  have bytes : Header.enclose s.write = Header.layout Header.currentVersion ++ s.payload := by
    rw [Header.enclose, toOctets_write, payload_eq, Header.opened, Header.toOctets_write,
      Builder.toOctets_empty, List.nil_append]
  rw [toBytes, validate, if_pos h.symm, ← bytes]
  rfl

/-! ### Reading counted items -/

/-- What the reader of counted items needs of a check for room: it reads nothing,
and it passes whenever the items may all be there. -/
structure Admits (room : Nat → Nat → ReadM SaveError Unit) : Prop where
  stays : ∀ {count length c c'}, room count length c = .ok () c' → c' = c
  passes : ∀ {count length c}, count * length ≤ c.remaining → room count length c = .ok () c

/-- The check for room decides by the number of bytes left, and reads none of them. -/
theorem ensureRoom_eq (count length : Nat) (c : Cursor) :
    ensureRoom count length c
      = if c.remaining < min (count * length) maxByteCount then
          .error (.undecodable (.pastEnd c.offset (min (count * length) maxByteCount) c.remaining)) c
        else .ok () c := by
  show (if c.remaining < min (count * length) maxByteCount
    then ReadM.shortOf (min (count * length) maxByteCount) else pure ()) c = _
  split
  · rfl
  · rfl

theorem ensureRoom_eq_ok_iff {count length : Nat} {c c' : Cursor} :
    ensureRoom count length c = .ok () c'
      ↔ min (count * length) maxByteCount ≤ c.remaining ∧ c' = c := by
  rw [ensureRoom_eq, ← Nat.not_lt]
  by_cases h : c.remaining < min (count * length) maxByteCount
  · simp [h]
  · simp [h, eq_comm]

theorem ensureRoom_eq_error_iff {count length : Nat} {c c' : Cursor} {e : SaveError} :
    ensureRoom count length c = .error e c'
      ↔ c.remaining < min (count * length) maxByteCount
        ∧ e = .undecodable (.pastEnd c.offset (min (count * length) maxByteCount) c.remaining)
        ∧ c' = c := by
  rw [ensureRoom_eq]
  by_cases h : c.remaining < min (count * length) maxByteCount
  · simp [h, eq_comm]
  · simp [h]

theorem admits_ensureRoom : Admits ensureRoom where
  stays h := (ensureRoom_eq_ok_iff.mp h).2
  passes h := ensureRoom_eq_ok_iff.mpr ⟨Nat.le_trans (Nat.min_le_left _ _) h, rfl⟩

/-- Items that each take some bytes take at least that many times their number. -/
theorem length_flatMap_ge {α : Type} {layout : α → Octets} {length : Nat} {as : List α}
    (h : ∀ a ∈ as, length ≤ (layout a).length) :
    as.length * length ≤ (as.flatMap layout).length := by
  induction as with
  | nil => simp
  | cons a as ih =>
      have head := h a List.mem_cons_self
      have tail := ih fun b hb => h b (List.mem_cons_of_mem a hb)
      rw [List.length_cons, Nat.succ_mul, List.flatMap_cons, List.length_append]
      omega

/-- Counted items are read from their number and their layouts. The check for
room cannot stand in the way. -/
theorem inverts_readCounted {α : Type} {room : Nat → Nat → ReadM SaveError Unit}
    {item : ReadM SaveError α} {check : Nat → ReadM SaveError Unit} {p : α → Prop}
    {layout : α → Octets} {q : Nat → Prop} {length : Nat} (hroom : Admits room)
    (hitem : item.Inverts p layout) (hlength : ∀ a, length ≤ (layout a).length)
    (hcheck : ∀ n c c', check n c = .ok () c' ↔ q n ∧ c' = c) :
    (readCounted room length item check).Inverts
      (fun as => as.length < UInt32.size ∧ q as.length ∧ ∀ a ∈ as, p a)
      (countedLayout layout) := by
  intro c as c'
  simp only [readCounted, bind_eq_ok_iff, countedLayout]
  constructor
  · intro hread
    obtain ⟨count, m, hcount, ⟨⟩, m₁, hchecked, ⟨⟩, m₂, hadmitted, hitems⟩ := hread
    obtain ⟨hq, rfl⟩ := (hcheck _ _ _).mp hchecked
    obtain rfl := hroom.stays hadmitted
    obtain ⟨⟨hnumber, hp⟩, hcross⟩ := (hitem.times _ _ _ _).mp hitems
    rw [← hnumber] at hq
    refine ⟨⟨hnumber ▸ count.toNat_lt, hq, hp⟩, ?_⟩
    rw [hnumber]
    exact (ReadM.word32_eq_ok_iff.mp hcount).trans hcross
  · intro hlaid
    obtain ⟨⟨hlt, hq, hp⟩, hcross⟩ := hlaid
    obtain ⟨m, hcount, hitems⟩ := Cursor.crosses_append_iff.mp hcross
    have hnumber : (UInt32.ofNat as.length).toNat = as.length := UInt32.toNat_ofNat_of_lt' hlt
    -- What stands behind the count takes at least the room that is asked for.
    have enough : as.length * length ≤ m.remaining :=
      Nat.le_trans (length_flatMap_ge fun a _ => hlength a) hitems.length_le_remaining
    refine ⟨_, m, ReadM.word32_ofNat_eq_ok hlt hcount, ?_⟩
    rw [hnumber]
    exact ⟨(), m, (hcheck _ _ _).mpr ⟨hq, rfl⟩, (), m, hroom.passes enough,
      (hitem.times _ _ _ _).mpr ⟨⟨rfl, hp⟩, hitems⟩⟩

/-- A temperature is read from its bits. -/
theorem inverts_temperature :
    (ReadM.real64 : ReadM SaveError Binary64).Inverts (fun _ => True) temperatureLayout := by
  intro c t c'
  rw [ReadM.real64_eq_ok_iff, temperatureLayout, true_and]

/-- A creature is read from its fields and a genome of the announced length. -/
theorem inverts_readCreature :
    readCreature.Inverts (fun c => c.dna.length < UInt32.size) Creature.layout := by
  intro c creature c'
  simp only [readCreature, bind_eq_ok_iff, pure_eq_ok_iff]
  constructor
  · intro hread
    obtain ⟨x, m₁, hx, y, m₂, hy, energy, m₃, henergy, length, m₄, hlength, dna, m₅, hdna, rfl,
      rfl⟩ := hread
    obtain ⟨hnumber, hcross⟩ := ReadM.take_eq_ok_iff.mp hdna
    have hlength := ReadM.word32_eq_ok_iff.mp hlength
    rw [← hnumber] at hlength
    refine ⟨hnumber ▸ length.toNat_lt, ?_⟩
    exact ReadM.real32_eq_ok_iff.mp hx |>.trans (ReadM.real32_eq_ok_iff.mp hy)
      |>.trans (ReadM.real32_eq_ok_iff.mp henergy) |>.trans hlength |>.trans hcross
  · intro hlaid
    obtain ⟨hlt, hcross⟩ := hlaid
    simp only [Creature.layout, Cursor.crosses_append_iff] at hcross
    obtain ⟨m₄, ⟨m₃, ⟨m₂, ⟨m₁, hx, hy⟩, henergy⟩, hlength⟩, hdna⟩ := hcross
    have hnumber : (UInt32.ofNat creature.dna.length).toNat = creature.dna.length :=
      UInt32.toNat_ofNat_of_lt' hlt
    exact ⟨_, m₁, ReadM.real32_eq_ok_iff.mpr hx, _, m₂, ReadM.real32_eq_ok_iff.mpr hy,
      _, m₃, ReadM.real32_eq_ok_iff.mpr henergy, _, m₄, ReadM.word32_ofNat_eq_ok hlt hlength,
      _, c', ReadM.take_eq_ok_iff.mpr ⟨hnumber.symm, hdna⟩, rfl, rfl⟩

theorem checkCellCount_eq_ok_iff {e : Extent} {found : Nat} {c c' : Cursor} :
    checkCellCount e found c = .ok () c' ↔ found = e.count ∧ c' = c := by
  rw [checkCellCount, refuse_eq_ok_iff, pure_eq_ok_iff, Decidable.not_not]
  simp

theorem leastCreatureLength_le (c : Creature) : leastCreatureLength ≤ c.layout.length := by
  simp only [Creature.layout, List.length_append, LittleEndian.length_encode, leastCreatureLength]
  omega

theorem temperatureLength_le (t : Binary64) :
    temperatureLength ≤ (temperatureLayout t).length :=
  Nat.le_of_eq (LittleEndian.length_encode 8 t.bits.toNat).symm

/-- The temperatures of a field are read when there is one for every cell. -/
theorem inverts_readTemperatures {room : Nat → Nat → ReadM SaveError Unit} (hroom : Admits room)
    (e : Extent) :
    (readCounted room temperatureLength ReadM.real64 (checkCellCount e)).Inverts
      (fun ts => ts.length < UInt32.size ∧ ts.length = e.count ∧ ∀ t ∈ ts, True)
      (countedLayout temperatureLayout) :=
  inverts_readCounted (q := fun n => n = e.count) hroom inverts_temperature temperatureLength_le
    (fun _ _ _ => checkCellCount_eq_ok_iff)

theorem inverts_readCreatures {room : Nat → Nat → ReadM SaveError Unit} (hroom : Admits room) :
    (readCounted room leastCreatureLength readCreature fun _ => pure ()).Inverts
      (fun cs => cs.length < UInt32.size ∧ True ∧ ∀ c ∈ cs, c.dna.length < UInt32.size)
      (countedLayout Creature.layout) :=
  inverts_readCounted (q := fun _ => True) hroom inverts_readCreature leastCreatureLength_le
    (fun _ _ _ => by simp [pure_eq_ok_iff])

/-! ### Reading a snapshot -/

/-- **What is read**, whatever admitting check for room is made: the layout of the
snapshots whose counts fit, under any bytes that decode to the name. -/
theorem readWith_eq_ok_iff {room : Nat → Nat → ReadM SaveError Unit} (hroom : Admits room)
    {c c' : Cursor} {s : Snapshot} :
    readWith room c = .ok s c'
      ↔ s.Fits ∧ ∃ name : Octets, name.length < UInt32.size ∧ Utf8.decode name = s.name
        ∧ c.Crosses (s.layout name) c' := by
  have temperatures := inverts_readTemperatures hroom
  have creatures := inverts_readCreatures hroom
  simp only [readWith, bind_eq_ok_iff, pure_eq_ok_iff]
  constructor
  · intro hread
    obtain ⟨name, m₁, hname, timestamp, m₂, htimestamp, formatVersion, m₃, hversion, width, m₄,
      hwidth, height, m₅, hheight, time, m₆, htime, ambient, m₇, hambient, ts, m₈, hts, cs, m₉,
      hcs, rfl, rfl⟩ := hread
    obtain ⟨bytes, hlt, hdecode, hcross⟩ := ReadM.text_eq_ok_iff.mp hname
    obtain ⟨⟨htslt, htseq, -⟩, htscross⟩ := (temperatures _ _ _ _).mp hts
    obtain ⟨⟨hcslt, -, hdna⟩, hcscross⟩ := (creatures _ _ _).mp hcs
    refine ⟨⟨htseq, htseq ▸ htslt, hcslt, hdna⟩, bytes, hlt, hdecode, hcross.trans ?_⟩
    exact ReadM.word64_eq_ok_iff.mp htimestamp |>.trans (ReadM.word32_eq_ok_iff.mp hversion)
      |>.trans (ReadM.word32_eq_ok_iff.mp hwidth) |>.trans (ReadM.word32_eq_ok_iff.mp hheight)
      |>.trans (ReadM.real64_eq_ok_iff.mp htime) |>.trans (ReadM.real64_eq_ok_iff.mp hambient)
      |>.trans htscross |>.trans hcscross
  · intro hlaid
    obtain ⟨fits, bytes, hlt, hdecode, hcross⟩ := hlaid
    obtain ⟨m₁, hname, hbody⟩ := Cursor.crosses_append_iff.mp hcross
    -- The fields come apart from the last one on, since the layout nests to the left.
    simp only [body, Cursor.crosses_append_iff] at hbody
    obtain ⟨m₈, ⟨m₇, ⟨m₆, ⟨m₅, ⟨m₄, ⟨m₃, ⟨m₂, htimestamp, hversion⟩, hwidth⟩, hheight⟩, htime⟩,
      hambient⟩, htscross⟩, hcscross⟩ := hbody
    have htslt : s.temperatures.length < UInt32.size := fits.temperatures_eq ▸ fits.count_lt
    exact ⟨_, m₁, ReadM.text_eq_ok_iff.mpr ⟨bytes, hlt, hdecode, hname⟩,
      _, m₂, ReadM.word64_eq_ok_iff.mpr htimestamp, _, m₃, ReadM.word32_eq_ok_iff.mpr hversion,
      _, m₄, ReadM.word32_eq_ok_iff.mpr hwidth, _, m₅, ReadM.word32_eq_ok_iff.mpr hheight,
      _, m₆, ReadM.real64_eq_ok_iff.mpr htime, _, m₇, ReadM.real64_eq_ok_iff.mpr hambient,
      _, m₈, (temperatures s.extent _ _ _).mpr ⟨⟨htslt, fits.temperatures_eq, by simp⟩, htscross⟩,
      _, c', (creatures _ _ _).mpr ⟨⟨fits.creatures_lt, trivial, fits.dna_lt⟩, hcscross⟩, rfl, rfl⟩

end Snapshot

/-! ### Reading a file -/

namespace Loaded

/-- **What is loaded**: a header that is not newer and a snapshot behind it. -/
theorem read_eq_ok_iff {c c' : Cursor} {l : Loaded} :
    read c = .ok l c'
      ↔ l.version ≤ Header.currentVersion ∧ l.snapshot.Fits
        ∧ ∃ name : Octets, name.length < UInt32.size ∧ Utf8.decode name = l.snapshot.name
          ∧ c.Crosses (Header.layout l.version ++ l.snapshot.layout name) c' := by
  simp only [read, Header.readEnclosed, Snapshot.read, bind_eq_ok_iff, pure_eq_ok_iff,
    Snapshot.readWith_eq_ok_iff Snapshot.admits_ensureRoom]
  constructor
  · intro hread
    obtain ⟨⟨_, _⟩, m, ⟨version, m₁, hheader, s, m₂, ⟨fits, name, hlt, hdecode, hcross⟩, h, rfl⟩,
      rfl, rfl⟩ := hread
    cases h
    obtain ⟨hle, hheader⟩ := (Header.inverts_read _ _ _).mp hheader
    exact ⟨hle, fits, name, hlt, hdecode, hheader.trans hcross⟩
  · intro hlaid
    obtain ⟨hle, fits, name, hlt, hdecode, hcross⟩ := hlaid
    obtain ⟨m, hheader, hcross⟩ := Cursor.crosses_append_iff.mp hcross
    exact ⟨(l.version, l.snapshot), c',
      ⟨l.version, m, (Header.inverts_read _ _ _).mpr ⟨hle, hheader⟩, l.snapshot, c',
        ⟨fits, name, hlt, hdecode, hcross⟩, rfl, rfl⟩, rfl, rfl⟩

theorem ofBytes_eq_ok_iff {bytes : Octets} {l : Loaded} :
    ofBytes bytes = .ok l ↔ ∃ c, read (Cursor.start bytes) = .ok l c := by
  unfold ofBytes
  cases read (Cursor.start bytes) with
  | ok l' c => simp
  | error e c => simp

theorem ofBytes_eq_error_iff {bytes : Octets} {e : SaveError} :
    ofBytes bytes = .error e ↔ ∃ c, read (Cursor.start bytes) = .error e c := by
  unfold ofBytes
  cases read (Cursor.start bytes) with
  | ok l c => simp
  | error e' c => simp

end Loaded

namespace Snapshot

theorem ofBytes_eq_ok_iff {bytes : Octets} {s : Snapshot} :
    ofBytes bytes = .ok s
      ↔ ∃ version c, Loaded.read (Cursor.start bytes) = .ok ⟨version, s⟩ c := by
  rw [ofBytes]
  constructor
  · intro h
    cases hl : Loaded.ofBytes bytes with
    | ok l =>
        rw [hl] at h
        cases h
        obtain ⟨c, hc⟩ := Loaded.ofBytes_eq_ok_iff.mp hl
        exact ⟨l.version, c, hc⟩
    | error e =>
        rw [hl] at h
        cases h
  · intro hread
    obtain ⟨version, c, h⟩ := hread
    rw [Loaded.ofBytes_eq_ok_iff.mpr ⟨c, h⟩]
    rfl

theorem ofBytes_eq_error_iff {bytes : Octets} {e : SaveError} :
    ofBytes bytes = .error e ↔ ∃ c, Loaded.read (Cursor.start bytes) = .error e c := by
  rw [ofBytes, ← Loaded.ofBytes_eq_error_iff]
  cases Loaded.ofBytes bytes with
  | ok l => exact ⟨nofun, nofun⟩
  | error e' => exact ⟨fun h => by cases h; rfl, fun h => by cases h; rfl⟩

end Snapshot

end Thermoscape
