import Thermoscape.Proofs.Snapshot.Fields
import Thermoscape.Proofs.Snapshot.Truncation

/-!
# Thermoscape.Proofs.Snapshot.Outcome

**What becomes of any byte string.** Loading either succeeds, or refuses the bytes
for their content, or finds that bytes are missing. There are three refusals, each
made at one place of the format and decided by the words up to that place:
`WrongMagic`, `NewerVersion` and `WrongCount` say when, by looking at the bytes
themselves. They are tried in the order of the bytes, so that what stands behind a
refused word is never looked at.

The refusals are found by following the fields in front of them from place to
place; the readers of a fixed width fail for no content. All that is read behind
the number of temperatures fails for no content either (`ReadM.FailsShort`), which
leaves nothing but missing bytes for the rest of the file.
-/

namespace Thermoscape

open Cursor (within start)

/-! ### Reasons to refuse -/

/-- The bytes begin with a word that is not the mark of the format. -/
structure WrongMagic (bytes : Octets) (found : UInt32) : Prop where
  present : 4 ≤ bytes.length
  found_eq : found.toNat = wordAt 4 0 bytes
  found_ne : found ≠ 0x45564F53

/-- The bytes begin with the mark and a version that is newer than the current one. -/
structure NewerVersion (bytes : Octets) (found : UInt16) : Prop where
  present : 6 ≤ bytes.length
  magic_eq : wordAt 4 0 bytes = 0x45564F53
  found_eq : found.toNat = wordAt 2 4 bytes
  newer : 1 < found

/-- The bytes begin with a header that is accepted. -/
structure HeaderAccepted (bytes : Octets) : Prop where
  present : 6 ≤ bytes.length
  magic_eq : wordAt 4 0 bytes = 0x45564F53
  version_le : wordAt 2 4 bytes ≤ 1

/-- Behind a header that is accepted there is all up to the number of temperatures,
and this is not the product of the two sides. -/
structure WrongCount (bytes : Octets) (expected found : Nat) : Prop where
  header : HeaderAccepted bytes
  present : nameEnd bytes + 40 ≤ bytes.length
  expected_eq : expected
    = wordAt 4 (nameEnd bytes + 12) bytes * wordAt 4 (nameEnd bytes + 16) bytes
  found_eq : found = wordAt 4 (nameEnd bytes + 36) bytes
  found_ne : found ≠ expected

/-! ### Readers that only miss bytes -/

/-- The reader fails for no other reason than that bytes are missing. -/
def ReadM.FailsShort {α : Type} (r : ReadM SaveError α) : Prop :=
  ∀ c e c', r c = .error e c' → e.IsShort

namespace ReadM.FailsShort

variable {α β : Type}

theorem pure (a : α) : FailsShort (Pure.pure a : ReadM SaveError α) := by
  intro c e c' h
  cases h

theorem bind {x : ReadM SaveError α} {f : α → ReadM SaveError β} (hx : FailsShort x)
    (hf : ∀ a, FailsShort (f a)) : FailsShort (x >>= f) := by
  intro c e c' h
  rcases bind_eq_error_iff.mp h with h | ⟨a, m, -, h⟩
  · exact hx c e c' h
  · exact hf a m e c' h

theorem map {x : ReadM SaveError α} (hx : FailsShort x) (f : α → β) : FailsShort (f <$> x) := by
  have h := hx.bind fun a => FailsShort.pure (f a)
  rwa [bind_pure_comp] at h

theorem times {x : ReadM SaveError α} (hx : FailsShort x) (n : Nat) :
    FailsShort (ReadM.times n x) := by
  induction n with
  | zero => exact FailsShort.pure []
  | succ n ih => exact hx.bind fun a => ih.bind fun as => FailsShort.pure (a :: as)

theorem take (n : Nat) : FailsShort (ReadM.take n) := by
  intro c e c' h
  obtain ⟨-, rfl, -⟩ := take_eq_error_iff.mp h
  trivial

theorem word32 : FailsShort ReadM.word32 := ((take 4).map _).map _

theorem real32 : FailsShort ReadM.real32 := word32.map _

theorem real64 : FailsShort ReadM.real64 := (((take 8).map _).map _).map _

theorem ensureRoom (count length : Nat) : FailsShort (Snapshot.ensureRoom count length) := by
  intro c e c' h
  obtain ⟨-, rfl, -⟩ := Snapshot.ensureRoom_eq_error_iff.mp h
  trivial

theorem readCreature : FailsShort Snapshot.readCreature :=
  real32.bind fun _ => real32.bind fun _ => real32.bind fun _ => word32.bind fun length =>
    (take length.toNat).bind fun _ => FailsShort.pure _

/-- Behind the check of their number, counted items are at most too few. -/
theorem items {item : ReadM SaveError α} (hitem : FailsShort item) (count length : Nat) :
    FailsShort (Snapshot.ensureRoom count length >>= fun _ => ReadM.times count item) :=
  (ensureRoom count length).bind fun _ => hitem.times count

theorem readCreatures : FailsShort (Snapshot.readCounted Snapshot.ensureRoom
    Snapshot.leastCreatureLength Snapshot.readCreature fun _ => Pure.pure ()) :=
  word32.bind fun count => (FailsShort.pure ()).bind fun _ => items readCreature count.toNat _

end ReadM.FailsShort

/-! ### Following a refusal -/

section Refusals

variable {α β : Type} {e : SaveError} {c' : Cursor} {bytes : Octets} {offset : Nat}

/-- A refusal behind which bytes can only be missing is made in front of them. -/
theorem bind_refuses_iff_left {x : ReadM SaveError α} {f : α → ReadM SaveError β}
    (hf : ∀ a, (f a).FailsShort) (he : ¬ e.IsShort) {c : Cursor} :
    (x >>= f) c = .error e c' ↔ x c = .error e c' := by
  rw [bind_eq_error_iff]
  constructor
  · intro hparts
    rcases hparts with h | ⟨a, m, -, h⟩
    · exact h
    · exact absurd (hf a m e c' h) he
  · intro h
    exact .inl h

/-- A refusal is not made by a reader of a fixed number of bytes, but behind it. -/
theorem ReadM.Fixed.bind_refuses_iff {x : ReadM SaveError α} {width : Nat} {value : Octets → α}
    (hx : x.Fixed width value) (he : ¬ e.IsShort) {f : α → ReadM SaveError β} :
    (x >>= f) (within bytes offset) = .error e c'
      ↔ width ≤ bytes.length - offset
        ∧ f (value (slice offset width bytes)) (within bytes (offset + width)) = .error e c' := by
  rw [hx.bind_within]
  by_cases there : width ≤ bytes.length - offset
  · simp [there]
  · rw [if_neg there]
    constructor
    · intro h
      cases h
      exact absurd trivial he
    · intro h
      exact absurd h.1 there

/-- Nor is it made by the reader of a text. -/
theorem ReadM.text_bind_refuses_iff (he : ¬ e.IsShort) {f : String → ReadM SaveError β} :
    (ReadM.text >>= f) (within bytes offset) = .error e c'
      ↔ 4 ≤ bytes.length - offset
        ∧ wordAt 4 offset bytes ≤ bytes.length - (offset + 4)
        ∧ f (Utf8.decode (slice (offset + 4) (wordAt 4 offset bytes) bytes))
            (within bytes (offset + 4 + wordAt 4 offset bytes)) = .error e c' := by
  have short : ∀ o n c, (EStateM.Result.error (shortAt bytes o n) c : EStateM.Result _ _ β)
      ≠ .error e c' := by
    intro o n c h
    cases h
    exact he trivial
  show EStateM.bind ReadM.text f _ = _ ↔ _
  rw [EStateM.bind, text_within]
  by_cases there : 4 ≤ bytes.length - offset
  · rw [if_pos there]
    by_cases body : wordAt 4 offset bytes ≤ bytes.length - (offset + 4)
    · simp [there, body]
    · simp [there, body, short]
  · simp [there, short]

end Refusals

theorem Snapshot.checkCellCount_eq_error_iff {extent : Extent} {found : Nat} {c c' : Cursor}
    {e : SaveError} :
    checkCellCount extent found c = .error e c'
      ↔ found ≠ extent.count ∧ e = .cellCount extent.count found ∧ c' = c := by
  rw [checkCellCount]
  by_cases h : found = extent.count
  · rw [if_neg (not_not_intro h)]
    constructor
    · intro hok
      cases hok
    · intro hne
      exact absurd h hne.1
  · rw [if_pos h]
    constructor
    · intro herror
      cases herror
      exact ⟨h, rfl, rfl⟩
    · rintro ⟨-, rfl, rfl⟩
      rfl

/-- The number of cells by the two sides that are declared at a place. -/
theorem Extent.count_declared (bytes : Octets) (offset : Nat) (h : 8 ≤ bytes.length - offset) :
    Extent.count ⟨UInt32.ofNat (wordAt 4 offset bytes), UInt32.ofNat (wordAt 4 (offset + 4) bytes)⟩
      = wordAt 4 offset bytes * wordAt 4 (offset + 4) bytes := by
  rw [Extent.count, ReadM.toNat_word32 (by omega), ReadM.toNat_word32 (by omega)]

/-- Behind a header a snapshot is refused only for its number of temperatures. -/
theorem Snapshot.read_refuses_iff {bytes : Octets} {e : SaveError} (he : ¬ e.IsShort)
    {c' : Cursor} :
    Snapshot.read (within bytes 6) = .error e c'
      ↔ nameEnd bytes + 40 ≤ bytes.length
        ∧ wordAt 4 (nameEnd bytes + 36) bytes
            ≠ wordAt 4 (nameEnd bytes + 12) bytes * wordAt 4 (nameEnd bytes + 16) bytes
        ∧ e = .cellCount
            (wordAt 4 (nameEnd bytes + 12) bytes * wordAt 4 (nameEnd bytes + 16) bytes)
            (wordAt 4 (nameEnd bytes + 36) bytes)
        ∧ c' = within bytes (nameEnd bytes + 40) := by
  rw [Snapshot.read, readWith, ReadM.text_bind_refuses_iff he,
    ReadM.fixed_word64.bind_refuses_iff he, ReadM.fixed_word32.bind_refuses_iff he,
    ReadM.fixed_word32.bind_refuses_iff he, ReadM.fixed_word32.bind_refuses_iff he,
    ReadM.fixed_real64.bind_refuses_iff he, ReadM.fixed_real64.bind_refuses_iff he,
    bind_refuses_iff_left
      (fun _ => ReadM.FailsShort.readCreatures.bind fun _ => ReadM.FailsShort.pure _) he,
    readCounted, ReadM.fixed_word32.bind_refuses_iff he,
    bind_refuses_iff_left (fun _ => ReadM.FailsShort.items ReadM.FailsShort.real64 _ _) he,
    checkCellCount_eq_error_iff]
  -- What is left speaks of the places behind the name, one field after the other.
  have name : 6 + 4 + wordAt 4 6 bytes = nameEnd bytes := rfl
  simp only [name, decode_slice, Nat.add_assoc, Nat.reduceAdd]
  constructor
  · intro hfields
    obtain ⟨-, -, -, -, -, -, -, -, last, hcount⟩ := hfields
    rw [Extent.count_declared bytes (nameEnd bytes + 12) (by omega),
      ReadM.toNat_word32 last] at hcount
    exact ⟨by omega, hcount⟩
  · intro hcount
    obtain ⟨present, hcount⟩ := hcount
    rw [Extent.count_declared bytes (nameEnd bytes + 12) (by omega),
      ReadM.toNat_word32 (by omega)]
    refine ⟨?_, ?_, ?_, ?_, ?_, ?_, ?_, ?_, ?_, hcount⟩ <;> omega

/-! ### Headers -/

theorem Header.magic_eq_iff {bytes : Octets} (h : 4 ≤ bytes.length) :
    UInt32.ofNat (wordAt 4 0 bytes) = Header.magic ↔ wordAt 4 0 bytes = 0x45564F53 := by
  rw [← UInt32.toNat_inj, ReadM.toNat_word32 h]
  rfl

/-- A version is newer than the current one by the two bytes that it is stored in. -/
theorem Header.newer_iff {bytes : Octets} (h : 6 ≤ bytes.length) :
    Header.currentVersion < UInt16.ofNat (wordAt 2 4 bytes) ↔ 1 < wordAt 2 4 bytes := by
  rw [UInt16.lt_iff_toNat_lt, ReadM.toNat_word16 (by omega)]
  rfl

/-- **What becomes of a header**: it is refused for its mark, or for its version behind the
right mark, or it is accepted, or bytes of it are missing. -/
theorem Header.read_start_cases (bytes : Octets) :
    (∃ found, WrongMagic bytes found ∧ Header.read (start bytes)
        = .error (SaveError.undecodable (.wrongMagic found)) (within bytes 4))
    ∨ (∃ found, NewerVersion bytes found ∧ Header.read (start bytes)
        = .error (SaveError.undecodable (.newerVersion found 1)) (within bytes 6))
    ∨ (∃ version, HeaderAccepted bytes ∧ (Header.read : ReadM SaveError UInt16) (start bytes)
        = .ok version (within bytes 6))
    ∨ ∃ (e : SaveError) (c : Cursor), e.IsShort ∧ Header.read (start bytes) = .error e c := by
  rw [Header.read_start]
  by_cases mark : 4 ≤ bytes.length
  · rw [if_pos mark]
    by_cases wrong : UInt32.ofNat (wordAt 4 0 bytes) ≠ magic
    · rw [if_pos wrong]
      exact .inl ⟨_, ⟨mark, ReadM.toNat_word32 mark, wrong⟩, rfl⟩
    · have right := (magic_eq_iff mark).mp (Decidable.not_not.mp wrong)
      rw [if_neg wrong]
      by_cases version : 2 ≤ bytes.length - 4
      · have present : 6 ≤ bytes.length := by omega
        rw [if_pos version]
        by_cases newer : currentVersion < UInt16.ofNat (wordAt 2 4 bytes)
        · rw [if_pos newer]
          exact .inr (.inl ⟨_, ⟨present, right, ReadM.toNat_word16 version, newer⟩, rfl⟩)
        · rw [if_neg newer]
          rw [newer_iff present] at newer
          exact .inr (.inr (.inl ⟨_, ⟨present, right, Nat.le_of_not_lt newer⟩, rfl⟩))
      · rw [if_neg version]
        exact .inr (.inr (.inr ⟨ReadM.shortAt bytes 4 2, _, trivial, rfl⟩))
  · rw [if_neg mark]
    exact .inr (.inr (.inr ⟨ReadM.shortAt bytes 0 4, _, trivial, rfl⟩))

/-- A header is refused for its mark, or for its version behind the right mark. -/
theorem Header.read_refuses_iff {bytes : Octets} {e : SaveError} (he : ¬ e.IsShort) :
    (∃ c', Header.read (start bytes) = .error e c')
      ↔ (∃ found, WrongMagic bytes found ∧ e = .undecodable (.wrongMagic found))
        ∨ ∃ found, NewerVersion bytes found ∧ e = .undecodable (.newerVersion found 1) := by
  constructor
  · intro hread
    obtain ⟨c', h⟩ := hread
    rcases Header.read_start_cases bytes with ⟨found, wrong, hcase⟩ | ⟨found, newer, hcase⟩
      | ⟨version, -, hcase⟩ | ⟨e', c, short, hcase⟩
    all_goals
      rw [hcase] at h
      cases h
    · exact .inl ⟨found, wrong, rfl⟩
    · exact .inr ⟨found, newer, rfl⟩
    · exact absurd short he
  · rw [Header.read_start]
    intro hrefused
    rcases hrefused with ⟨found, wrong, rfl⟩ | ⟨found, newer, rfl⟩
    · have hfound : UInt32.ofNat (wordAt 4 0 bytes) = found := by
        rw [← wrong.found_eq, UInt32.ofNat_toNat]
      have hmark : found ≠ magic := wrong.found_ne
      rw [hfound, if_pos wrong.present, if_pos hmark]
      exact ⟨_, rfl⟩
    · have mark : 4 ≤ bytes.length := Nat.le_trans (by decide) newer.present
      have hfound : UInt16.ofNat (wordAt 2 4 bytes) = found := by
        rw [← newer.found_eq, UInt16.ofNat_toNat]
      have hversion : currentVersion < found := newer.newer
      rw [hfound, if_pos mark, if_neg (not_not_intro ((magic_eq_iff mark).mpr newer.magic_eq)),
        if_pos (Nat.le_sub_of_add_le newer.present), if_pos hversion]
      exact ⟨_, rfl⟩

/-- A header is passed exactly when it is accepted, and reading goes on behind it. -/
theorem Header.read_passes_iff {bytes : Octets} {c : Cursor} :
    (∃ version, (Header.read : ReadM SaveError UInt16) (start bytes) = .ok version c)
      ↔ HeaderAccepted bytes ∧ c = within bytes 6 := by
  constructor
  · intro hread
    obtain ⟨v, h⟩ := hread
    rcases Header.read_start_cases bytes with ⟨found, -, hcase⟩ | ⟨found, -, hcase⟩
      | ⟨version, accepted, hcase⟩ | ⟨e, c, -, hcase⟩
    all_goals
      rw [hcase] at h
      cases h
    exact ⟨accepted, rfl⟩
  · intro haccepted
    obtain ⟨⟨present, right, older⟩, rfl⟩ := haccepted
    have mark : 4 ≤ bytes.length := Nat.le_trans (by decide) present
    rw [Header.read_start, if_pos mark, if_neg (not_not_intro ((magic_eq_iff mark).mpr right)),
      if_pos (Nat.le_sub_of_add_le present),
      if_neg (mt (newer_iff present).mp (Nat.not_lt.mpr older))]
    exact ⟨_, rfl⟩

/-! ### Files -/

/-- A file fails in its header or behind it. -/
theorem Loaded.read_eq_error_iff {c c' : Cursor} {e : SaveError} :
    Loaded.read c = .error e c'
      ↔ (Header.read : ReadM SaveError UInt16) c = .error e c'
        ∨ ∃ version m, (Header.read : ReadM SaveError UInt16) c = .ok version m
          ∧ Snapshot.read m = .error e c' := by
  have noMore : ∀ {α β : Type} {x : ReadM SaveError α} {f : α → β} {c : Cursor},
      (x >>= fun a => pure (f a)) c = .error e c' ↔ x c = .error e c' := by
    intro α β x f c
    rw [bind_eq_error_iff, or_iff_left]
    rintro ⟨a, m, -, h⟩
    cases h
  simp only [Loaded.read, Header.readEnclosed, noMore]
  rw [bind_eq_error_iff]
  simp only [noMore]

/-- **A file is refused for three reasons only**, each decided by the bytes up to
where it is found. -/
theorem Loaded.read_refuses_iff {bytes : Octets} {e : SaveError} (he : ¬ e.IsShort) :
    (∃ c', Loaded.read (start bytes) = .error e c')
      ↔ (∃ found, WrongMagic bytes found ∧ e = .undecodable (.wrongMagic found))
        ∨ (∃ found, NewerVersion bytes found ∧ e = .undecodable (.newerVersion found 1))
        ∨ ∃ expected found, WrongCount bytes expected found ∧ e = .cellCount expected found := by
  rw [← or_assoc, ← Header.read_refuses_iff he]
  simp only [Loaded.read_eq_error_iff]
  constructor
  · intro hread
    obtain ⟨c', h | ⟨version, m, hheader, h⟩⟩ := hread
    · exact .inl ⟨c', h⟩
    · obtain ⟨accepted, rfl⟩ := Header.read_passes_iff.mp ⟨version, hheader⟩
      obtain ⟨present, hne, rfl, -⟩ := (Snapshot.read_refuses_iff he).mp h
      exact .inr ⟨_, _, ⟨accepted, present, rfl, rfl, hne⟩, rfl⟩
  · intro hrefused
    rcases hrefused with ⟨c', h⟩ | ⟨_, _, ⟨accepted, present, rfl, rfl, hne⟩, rfl⟩
    · exact ⟨c', .inl h⟩
    · obtain ⟨version, hheader⟩ := Header.read_passes_iff.mpr ⟨accepted, rfl⟩
      exact ⟨_, .inr ⟨version, _, hheader,
        (Snapshot.read_refuses_iff he).mpr ⟨present, hne, rfl, rfl⟩⟩⟩

namespace Snapshot

theorem ofBytes_refuses_iff {bytes : Octets} {e : SaveError} (he : ¬ e.IsShort) :
    ofBytes bytes = .error e
      ↔ (∃ found, WrongMagic bytes found ∧ e = .undecodable (.wrongMagic found))
        ∨ (∃ found, NewerVersion bytes found ∧ e = .undecodable (.newerVersion found 1))
        ∨ ∃ expected found, WrongCount bytes expected found ∧ e = .cellCount expected found :=
  ofBytes_eq_error_iff.trans (Loaded.read_refuses_iff he)

theorem ofBytes_eq_wrongMagic_iff {bytes : Octets} {found : UInt32} :
    ofBytes bytes = .error (.undecodable (.wrongMagic found)) ↔ WrongMagic bytes found := by
  rw [ofBytes_refuses_iff id]
  simp

theorem ofBytes_eq_newerVersion_iff {bytes : Octets} {found current : UInt16} :
    ofBytes bytes = .error (.undecodable (.newerVersion found current))
      ↔ NewerVersion bytes found ∧ current = 1 := by
  rw [ofBytes_refuses_iff id]
  simp [← and_assoc]

theorem ofBytes_eq_cellCount_iff {bytes : Octets} {expected found : Nat} :
    ofBytes bytes = .error (.cellCount expected found) ↔ WrongCount bytes expected found := by
  rw [ofBytes_refuses_iff id]
  simp

/-- What is neither loaded nor refused lacks bytes. -/
theorem exists_pastEnd_of_not_refused {bytes : Octets} (hok : ∀ s, ofBytes bytes ≠ .ok s)
    (hmagic : ∀ found, ¬ WrongMagic bytes found) (hversion : ∀ found, ¬ NewerVersion bytes found)
    (hcount : ∀ expected found, ¬ WrongCount bytes expected found) :
    ∃ offset needed available,
      ofBytes bytes = .error (.undecodable (.pastEnd offset needed available)) := by
  cases hbytes : ofBytes bytes with
  | ok s => exact absurd hbytes (hok s)
  | error e =>
      by_cases hshort : e.IsShort
      · obtain ⟨offset, needed, available, rfl⟩ := SaveError.exists_of_isShort hshort
        exact ⟨offset, needed, available, rfl⟩
      · rcases (ofBytes_refuses_iff hshort).mp hbytes with
          ⟨found, h, -⟩ | ⟨found, h, -⟩ | ⟨expected, found, h, -⟩
        · exact absurd h (hmagic found)
        · exact absurd h (hversion found)
        · exact absurd h (hcount expected found)

/-- A report of missing bytes counts what is there up to the end. -/
theorem ofBytes_pastEnd {bytes : Octets} {offset needed available : Nat}
    (h : ofBytes bytes = .error (.undecodable (.pastEnd offset needed available))) :
    offset + available = bytes.length ∧ available < needed := by
  obtain ⟨c, hread⟩ := ofBytes_eq_error_iff.mp h
  obtain ⟨hlt, htotal⟩ := ReadM.Streaming.readLoaded.short hread
  exact ⟨by simpa [Cursor.total, Cursor.remaining, start] using htotal, hlt⟩

/-- **Every byte string has exactly one outcome, decided in the order of its bytes.**
It is refused for its mark, for its version or for its number of temperatures exactly
when the bytes say so, whatever follows them. If it does not load and none of the three
holds, bytes are missing, and the report counts those that are there. It fails for no
other reason, and never when it begins with a whole file. -/
theorem ofBytes_outcome (bytes : Octets) :
    (∀ found, ofBytes bytes = .error (.undecodable (.wrongMagic found))
      ↔ WrongMagic bytes found)
    ∧ (∀ found current, ofBytes bytes = .error (.undecodable (.newerVersion found current))
      ↔ NewerVersion bytes found ∧ current = 1)
    ∧ (∀ expected found, ofBytes bytes = .error (.cellCount expected found)
      ↔ WrongCount bytes expected found)
    ∧ ((∃ offset needed available,
        ofBytes bytes = .error (.undecodable (.pastEnd offset needed available)))
      ↔ (∀ s, ofBytes bytes ≠ .ok s) ∧ (∀ found, ¬ WrongMagic bytes found)
        ∧ (∀ found, ¬ NewerVersion bytes found)
        ∧ ∀ expected found, ¬ WrongCount bytes expected found)
    ∧ (∀ offset needed available,
        ofBytes bytes = .error (.undecodable (.pastEnd offset needed available)) →
          offset ≤ bytes.length ∧ available = bytes.length - offset ∧ available < needed)
    ∧ (∀ path fault, ofBytes bytes ≠ .error (.file path fault))
    ∧ (∀ snapshot grid, ofBytes bytes ≠ .error (.extentMismatch snapshot grid))
    ∧ ∀ p version name s, p <+: bytes → WireForm p version name s [] → ofBytes bytes = .ok s := by
  refine ⟨fun _ => ofBytes_eq_wrongMagic_iff, fun _ _ => ofBytes_eq_newerVersion_iff,
    fun _ _ => ofBytes_eq_cellCount_iff, ⟨?_, ?_⟩, ?_, ?_, ?_, ?_⟩
  · intro hshort
    obtain ⟨offset, needed, available, h⟩ := hshort
    -- Each of the other outcomes would be another answer to the same bytes.
    refine ⟨fun s hs => ?_, fun found hf => ?_, fun found hf => ?_, fun expected found hf => ?_⟩
    · cases h.symm.trans hs
    · cases h.symm.trans (ofBytes_eq_wrongMagic_iff.mpr hf)
    · cases h.symm.trans (ofBytes_eq_newerVersion_iff.mpr ⟨hf, rfl⟩)
    · cases h.symm.trans (ofBytes_eq_cellCount_iff.mpr hf)
  · intro hnone
    obtain ⟨hok, hmagic, hversion, hcount⟩ := hnone
    exact exists_pastEnd_of_not_refused hok hmagic hversion hcount
  · intro offset needed available h
    have := ofBytes_pastEnd h
    omega
  · intro path fault h
    simp [ofBytes_refuses_iff (e := .file path fault) id] at h
  · intro snapshot grid h
    simp [ofBytes_refuses_iff (e := .extentMismatch snapshot grid) id] at h
  · intro p version name s hbegins hform
    obtain ⟨after, rfl⟩ := hbegins
    exact ofBytes_eq_ok_iff.mpr
      ⟨version, _, ReadM.Streaming.readLoaded.ok_extend hform.read_eq after⟩

end Snapshot

end Thermoscape
