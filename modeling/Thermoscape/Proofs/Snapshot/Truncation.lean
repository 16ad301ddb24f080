import Thermoscape.Octets.Value
import Thermoscape.Proofs.Snapshot.Wire

/-!
# Thermoscape.Proofs.Snapshot.Truncation

**Loading is decided by a beginning of the bytes.** A reader is `Streaming` when
more bytes behind its input change nothing but a complaint about missing bytes,
and when that complaint always has the right numbers: more is needed than is
there, and what is there ends where the input ends. Streaming readers are closed
under sequencing, so it is enough to look at the few readers that are not
sequences: taking bytes, checking for room, and the refusals of the format.

A cut through a file that loads then leaves only one possibility. The shorter
file cannot load, or the longer one would load without its last bytes; it cannot
be refused for its content, or the longer one would be too. So bytes are missing.
-/

namespace Thermoscape

/-- The failure says that bytes are missing. -/
def SaveError.IsShort : SaveError → Prop
  | .undecodable (.pastEnd ..) => True
  | _ => False

/-- The same place in a longer string. -/
def Cursor.extend (c : Cursor) (after : Octets) : Cursor := ⟨c.offset, c.rest ++ after⟩

/-- Moving over bytes does not depend on what follows the input. -/
theorem Cursor.Crosses.extend {c c' : Cursor} {bytes : Octets} (h : c.Crosses bytes c')
    (after : Octets) : (c.extend after).Crosses bytes (c'.extend after) :=
  ⟨by simp [Cursor.extend, h.rest_eq], h.offset_eq⟩

/-! ### Streaming readers -/

/-- What a reader owes to an input of which it may have seen only a beginning. -/
structure ReadM.Streaming {α : Type} (r : ReadM SaveError α) : Prop where
  /-- Success moves over some of the bytes. -/
  ok_crosses : ∀ {c a c'}, r c = .ok a c' → ∃ bytes, c.Crosses bytes c'
  /-- Failure moves over some of the bytes. -/
  error_crosses : ∀ {c e c'}, r c = .error e c' → ∃ bytes, c.Crosses bytes c'
  /-- What has succeeded succeeds in front of anything. -/
  ok_extend : ∀ {c a c'}, r c = .ok a c' → ∀ after, r (c.extend after) = .ok a (c'.extend after)
  /-- What has been refused for its content is refused in front of anything. -/
  error_extend : ∀ {c e c'}, r c = .error e c' → ¬ e.IsShort →
    ∀ after, r (c.extend after) = .error e (c'.extend after)
  /-- What is missing is really missing, at the end of the input. -/
  short : ∀ {c offset needed available c'},
    r c = .error (.undecodable (.pastEnd offset needed available)) c' →
      available < needed ∧ offset + available = c.total

namespace ReadM.Streaming

variable {α β : Type}

theorem pure (a : α) : Streaming (Pure.pure a : ReadM SaveError α) where
  ok_crosses := by
    intro c b c' h
    exact ⟨[], Cursor.crosses_nil_iff.mpr (pure_eq_ok_iff.mp h).2⟩
  error_crosses := by
    intro c e c' h
    cases h
  ok_extend := by
    intro c b c' h after
    cases h
    rfl
  error_extend := by
    intro c e c' h
    cases h
  short := by
    intro c offset needed available c' h
    cases h

/-- A refusal for the content of the input looks at no further bytes. -/
theorem throw {e : SaveError} (he : ¬ e.IsShort) :
    Streaming (MonadExcept.throw e : ReadM SaveError α) where
  ok_crosses := by
    intro c a c' h
    cases h
  error_crosses := by
    intro c e' c' h
    cases h
    exact ⟨[], Cursor.crosses_nil_iff.mpr rfl⟩
  ok_extend := by
    intro c a c' h
    cases h
  error_extend := by
    intro c e' c' h _ after
    cases h
    rfl
  short := by
    intro c offset needed available c' h
    cases h
    exact absurd trivial he

/-- **Sequences of streaming readers are streaming.** -/
theorem bind {x : ReadM SaveError α} {f : α → ReadM SaveError β} (hx : Streaming x)
    (hf : ∀ a, Streaming (f a)) : Streaming (x >>= f) where
  ok_crosses := by
    intro c b c' h
    obtain ⟨a, m, ha, hb⟩ := bind_eq_ok_iff.mp h
    obtain ⟨xs, hxs⟩ := hx.ok_crosses ha
    obtain ⟨ys, hys⟩ := (hf a).ok_crosses hb
    exact ⟨xs ++ ys, hxs.trans hys⟩
  error_crosses := by
    intro c e c' h
    rcases bind_eq_error_iff.mp h with h | ⟨a, m, ha, hb⟩
    · exact hx.error_crosses h
    · obtain ⟨xs, hxs⟩ := hx.ok_crosses ha
      obtain ⟨ys, hys⟩ := (hf a).error_crosses hb
      exact ⟨xs ++ ys, hxs.trans hys⟩
  ok_extend := by
    intro c b c' h after
    obtain ⟨a, m, ha, hb⟩ := bind_eq_ok_iff.mp h
    exact bind_eq_ok_iff.mpr ⟨a, _, hx.ok_extend ha after, (hf a).ok_extend hb after⟩
  error_extend := by
    intro c e c' h he after
    rcases bind_eq_error_iff.mp h with h | ⟨a, m, ha, hb⟩
    · exact bind_eq_error_iff.mpr (.inl (hx.error_extend h he after))
    · exact bind_eq_error_iff.mpr
        (.inr ⟨a, _, hx.ok_extend ha after, (hf a).error_extend hb he after⟩)
  short := by
    intro c offset needed available c' h
    rcases bind_eq_error_iff.mp h with h | ⟨a, m, ha, hb⟩
    · exact hx.short h
    · obtain ⟨xs, hxs⟩ := hx.ok_crosses ha
      -- The second reader goes on in the same string, whose end has not moved.
      obtain ⟨hlt, htotal⟩ := (hf a).short hb
      exact ⟨hlt, htotal.trans hxs.total_eq⟩

theorem map {x : ReadM SaveError α} (hx : Streaming x) (f : α → β) : Streaming (f <$> x) := by
  have h := hx.bind fun a => Streaming.pure (f a)
  rwa [bind_pure_comp] at h

/-- Going back to the beginning after a failure changes no answer. -/
theorem atomic {x : ReadM SaveError α} (hx : Streaming x) : Streaming (ReadM.atomic x) where
  ok_crosses := by
    intro c a c' h
    exact hx.ok_crosses (atomic_eq_ok_iff.mp h)
  error_crosses := by
    intro c e c' h
    obtain ⟨m, -, rfl⟩ := atomic_eq_error_iff.mp h
    exact ⟨[], Cursor.crosses_nil_iff.mpr rfl⟩
  ok_extend := by
    intro c a c' h after
    exact atomic_eq_ok_iff.mpr (hx.ok_extend (atomic_eq_ok_iff.mp h) after)
  error_extend := by
    intro c e c' h he after
    obtain ⟨m, hm, rfl⟩ := atomic_eq_error_iff.mp h
    exact atomic_eq_error_iff.mpr ⟨_, hx.error_extend hm he after, rfl⟩
  short := by
    intro c offset needed available c' h
    obtain ⟨m, hm, -⟩ := atomic_eq_error_iff.mp h
    exact hx.short hm

theorem times {x : ReadM SaveError α} (hx : Streaming x) (n : Nat) :
    Streaming (ReadM.times n x) := by
  induction n with
  | zero => exact Streaming.pure []
  | succ n ih => exact hx.bind fun a => ih.bind fun as => Streaming.pure (a :: as)

/-! ### The readers that look at the input -/

/-- Taking bytes is streaming: the only complaint is that they are missing. -/
theorem take (n : Nat) : Streaming (ReadM.take n) where
  ok_crosses := by
    intro c bytes c' h
    exact ⟨bytes, (take_eq_ok_iff.mp h).2⟩
  error_crosses := by
    intro c e c' h
    obtain ⟨-, -, rfl⟩ := take_eq_error_iff.mp h
    exact ⟨[], Cursor.crosses_nil_iff.mpr rfl⟩
  ok_extend := by
    intro c bytes c' h after
    obtain ⟨hlength, hcross⟩ := take_eq_ok_iff.mp h
    exact take_eq_ok_iff.mpr ⟨hlength, hcross.extend after⟩
  error_extend := by
    intro c e c' h he
    obtain ⟨-, rfl, -⟩ := take_eq_error_iff.mp h
    exact absurd trivial he
  short := by
    intro c offset needed available c' h
    obtain ⟨hlt, he, -⟩ := take_eq_error_iff.mp h
    cases he
    exact ⟨hlt, rfl⟩

theorem word (width : Nat) : Streaming (ReadM.word width) := (take width).map _

theorem word8 : Streaming ReadM.word8 := (word 1).map _

theorem word16 : Streaming ReadM.word16 := (word 2).map _

theorem word32 : Streaming ReadM.word32 := (word 4).map _

theorem word64 : Streaming ReadM.word64 := (word 8).map _

theorem real32 : Streaming ReadM.real32 := word32.map _

theorem real64 : Streaming ReadM.real64 := word64.map _

theorem text : Streaming ReadM.text :=
  (word32.bind fun length => (take length.toNat).map Utf8.decode).atomic

theorem value (k : Kind) : Streaming (ReadM.value k) := by
  cases k with
  | word8 => exact word8.map _
  | word16 => exact word16.map _
  | word32 => exact word32.map _
  | word64 => exact word64.map _
  | real32 => exact real32.map _
  | real64 => exact real64.map _
  | flag => exact (word8.map _).map _
  | text => exact text.map _
  | raw length => exact (take length).map _

/-- A refusal under a condition is streaming if going on is. -/
theorem guarded {p : Prop} [Decidable p] {e : SaveError} {x : ReadM SaveError α}
    (he : ¬ e.IsShort) (hx : Streaming x) :
    Streaming (if p then MonadExcept.throw e else x) := by
  by_cases h : p
  · rw [if_pos h]
    exact throw he
  · rw [if_neg h]
    exact hx

/-- The check for room is streaming: with more bytes there is more room. -/
theorem ensureRoom (count length : Nat) : Streaming (Snapshot.ensureRoom count length) where
  ok_crosses := by
    intro c a c' h
    exact ⟨[], Cursor.crosses_nil_iff.mpr (Snapshot.admits_ensureRoom.stays h)⟩
  error_crosses := by
    intro c e c' h
    obtain ⟨-, -, rfl⟩ := Snapshot.ensureRoom_eq_error_iff.mp h
    exact ⟨[], Cursor.crosses_nil_iff.mpr rfl⟩
  ok_extend := by
    intro c a c' h after
    obtain ⟨hroom, rfl⟩ := Snapshot.ensureRoom_eq_ok_iff.mp h
    refine Snapshot.ensureRoom_eq_ok_iff.mpr ⟨Nat.le_trans hroom ?_, rfl⟩
    simp [Cursor.remaining, Cursor.extend]
  error_extend := by
    intro c e c' h he
    obtain ⟨-, rfl, -⟩ := Snapshot.ensureRoom_eq_error_iff.mp h
    exact absurd trivial he
  short := by
    intro c offset needed available c' h
    obtain ⟨hlt, he, -⟩ := Snapshot.ensureRoom_eq_error_iff.mp h
    cases he
    exact ⟨hlt, rfl⟩

/-! ### The readers of the format -/

theorem readCounted {item : ReadM SaveError α} {check : Nat → ReadM SaveError Unit}
    (hitem : Streaming item) (hcheck : ∀ n, Streaming (check n)) (length : Nat) :
    Streaming (Snapshot.readCounted Snapshot.ensureRoom length item check) :=
  word32.bind fun count => (hcheck count.toNat).bind fun _ =>
    (ensureRoom count.toNat length).bind fun _ => hitem.times count.toNat

theorem readCreature : Streaming Snapshot.readCreature :=
  real32.bind fun _ => real32.bind fun _ => real32.bind fun _ => word32.bind fun length =>
    (take length.toNat).bind fun _ => Streaming.pure _

theorem checkCellCount (e : Extent) (found : Nat) : Streaming (Snapshot.checkCellCount e found) :=
  guarded id (Streaming.pure ())

theorem readSnapshot : Streaming Snapshot.read :=
  text.bind fun _ => word64.bind fun _ => word32.bind fun _ => word32.bind fun _ =>
    word32.bind fun _ => real64.bind fun _ => real64.bind fun _ =>
      (readCounted real64 (checkCellCount _) _).bind fun _ =>
        (readCounted readCreature (fun _ => Streaming.pure ()) _).bind fun _ => Streaming.pure _

theorem readHeader : Streaming (Header.read : ReadM SaveError UInt16) := by
  rw [Header.read_eq]
  exact word32.bind fun _ => guarded id (word16.bind fun _ => guarded id (Streaming.pure _))

/-- **Loading is streaming.** -/
theorem readLoaded : Streaming Loaded.read :=
  (readHeader.bind fun _ => readSnapshot.bind fun _ => Streaming.pure _).bind
    fun _ => Streaming.pure _

end ReadM.Streaming

/-! ### Cutting a file -/

theorem SaveError.exists_of_isShort {e : SaveError} (h : e.IsShort) :
    ∃ offset needed available, e = .undecodable (.pastEnd offset needed available) := by
  cases e with
  | undecodable cause =>
      cases cause with
      | pastEnd offset needed available => exact ⟨offset, needed, available, rfl⟩
      | wrongMagic found => exact absurd h id
      | newerVersion found current => exact absurd h id
  | file path fault => exact absurd h id
  | cellCount expected found => exact absurd h id
  | extentMismatch snapshot grid => exact absurd h id

/-- A file that is cut where loading has not come to its end yet lacks bytes. -/
theorem Loaded.isShort_of_cut {p after : Octets} {l : Loaded} {c : Cursor}
    (h : Loaded.read (Cursor.start (p ++ after)) = .ok l c) (hcut : p.length < c.offset) :
    ∃ e c', Loaded.read (Cursor.start p) = .error e c' ∧ e.IsShort := by
  have longer : Cursor.start (p ++ after) = (Cursor.start p).extend after := rfl
  cases hp : Loaded.read (Cursor.start p) with
  | ok l' c' =>
      -- Then the longer string is read up to the same place, which lies before the cut.
      have same := ReadM.Streaming.readLoaded.ok_extend hp after
      rw [← longer, h] at same
      obtain ⟨xs, hxs⟩ := ReadM.Streaming.readLoaded.ok_crosses hp
      have hoffset : c.offset = c'.offset := by
        cases same
        rfl
      have hle : xs.length ≤ p.length := hxs.length_le_remaining
      have hend : c'.offset = 0 + xs.length := hxs.offset_eq
      omega
  | error e c' =>
      -- A refusal for the content would stand in the way of the longer string too.
      refine ⟨e, c', rfl, Classical.byContradiction fun he => ?_⟩
      have same := ReadM.Streaming.readLoaded.error_extend hp he after
      rw [← longer, h] at same
      cases same

namespace Snapshot

/-- **Loading is determined by a prefix, and every truncation is caught.** What a
beginning of the bytes already decides, success or refusal, is decided for all of
them; and a beginning that is too short for what was read is reported as such,
with the bytes that are there counted right. -/
theorem ofBytes_of_isPrefix {p bytes : Octets} (h : p <+: bytes) :
    (∀ s, ofBytes p = .ok s → ofBytes bytes = .ok s)
    ∧ (∀ e, ofBytes p = .error e →
        (∀ offset needed available, e ≠ .undecodable (.pastEnd offset needed available)) →
        ofBytes bytes = .error e)
    ∧ ∀ s, ofBytes bytes = .ok s →
        ∃ version n, Loaded.read (Cursor.start bytes) = .ok ⟨version, s⟩ (Cursor.within bytes n)
          ∧ (p.length < n → ∃ offset needed available,
              ofBytes p = .error (.undecodable (.pastEnd offset needed available))
                ∧ available < needed ∧ offset + available = p.length) := by
  obtain ⟨after, rfl⟩ := h
  refine ⟨?_, ?_, ?_⟩
  · intro s hs
    obtain ⟨version, c, hc⟩ := ofBytes_eq_ok_iff.mp hs
    exact ofBytes_eq_ok_iff.mpr ⟨version, _, ReadM.Streaming.readLoaded.ok_extend hc after⟩
  · intro e he hcontent
    obtain ⟨c, hc⟩ := ofBytes_eq_error_iff.mp he
    have notShort : ¬ e.IsShort := by
      intro hshort
      obtain ⟨offset, needed, available, rfl⟩ := SaveError.exists_of_isShort hshort
      exact hcontent offset needed available rfl
    exact ofBytes_eq_error_iff.mpr ⟨_, ReadM.Streaming.readLoaded.error_extend hc notShort after⟩
  · intro s hs
    obtain ⟨version, c, hc⟩ := ofBytes_eq_ok_iff.mp hs
    obtain ⟨xs, hxs⟩ := ReadM.Streaming.readLoaded.ok_crosses hc
    obtain rfl := hxs.eq_within
    refine ⟨version, xs.length, hc, fun hcut => ?_⟩
    obtain ⟨e, c', hp, hshort⟩ := Loaded.isShort_of_cut hc hcut
    obtain ⟨offset, needed, available, rfl⟩ := SaveError.exists_of_isShort hshort
    obtain ⟨hlt, htotal⟩ := ReadM.Streaming.readLoaded.short hp
    refine ⟨offset, needed, available, ofBytes_eq_error_iff.mpr ⟨c', hp⟩, hlt, ?_⟩
    simpa [Cursor.total, Cursor.remaining, Cursor.start] using htotal

/-- A file of an earlier version under a name that is no text, cut inside its only
temperature. -/
theorem ofBytes_of_isPrefix_cut :
    let s : Snapshot :=
      { name := "\uFFFD", timestamp := 7, formatVersion := 1, extent := ⟨1, 1⟩
        time := .zero, ambient := .one, temperatures := [.negativeZero], creatures := [] }
    let bytes := Header.layout 0 ++ s.layout [0xFF] ++ [9]
    bytes.take 55 <+: bytes ∧ ofBytes bytes = .ok s
      ∧ ∃ offset needed available,
          ofBytes (bytes.take 55) = .error (.undecodable (.pastEnd offset needed available))
            ∧ available < needed ∧ offset + available = 55 := by
  intro s bytes
  have isBeginning : bytes.take 55 <+: bytes := List.take_prefix 55 bytes
  have loads : Loaded.read (Cursor.start bytes) = .ok ⟨0, s⟩ ⟨63, [9]⟩ :=
    Loaded.read_eq_ok_iff.mpr ⟨by decide, ⟨rfl, by decide, by decide, by decide⟩, [0xFF],
      by decide, by decide, rfl, rfl⟩
  have accepted : ofBytes bytes = .ok s := ofBytes_eq_ok_iff.mpr ⟨0, _, loads⟩
  obtain ⟨version, n, hread, hcut⟩ := (ofBytes_of_isPrefix isBeginning).2.2 s accepted
  have hn : n = 63 := by
    rw [loads] at hread
    cases hread
    rfl
  exact ⟨isBeginning, accepted, hcut (hn ▸ by decide)⟩

end Snapshot

end Thermoscape
