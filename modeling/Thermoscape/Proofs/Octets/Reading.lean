import Thermoscape.Octets.Header

/-!
# Thermoscape.Proofs.Octets.Reading

**What a reader accepts.** A successful reader has moved its cursor over some
bytes (`Cursor.Crosses`), and what it gives is determined by them. For most
readers the converse holds as well, so that they are fully described by the
layout of their values: `ReadM.Inverts r p layout` says that `r` gives `a` exactly
when `a` satisfies `p` and the cursor has moved over `layout a`. Being an
equivalence, it is at once completeness (what is laid out is read back, in
front of anything) and soundness (nothing else is read).

Sequences are taken apart with `bind_eq_ok_iff` and put together with
`Cursor.crosses_append_iff`; no proof about a composite reader looks inside the
readers that it is made of.
-/

namespace Thermoscape

/-! ### Successful actions

Stated for every state, since actions on a world in its surroundings are of the
same kind. -/

section Actions

variable {ε σ α β : Type}

theorem pure_eq_ok_iff {a b : α} {s s' : σ} :
    (pure a : EStateM ε σ α) s = .ok b s' ↔ b = a ∧ s' = s := by
  constructor
  · intro h
    cases h
    exact ⟨rfl, rfl⟩
  · intro heq
    obtain ⟨rfl, rfl⟩ := heq
    rfl

/-- A sequence succeeds when both of its parts do, one behind the other. -/
theorem bind_eq_ok_iff {x : EStateM ε σ α} {f : α → EStateM ε σ β} {b : β} {s s' : σ} :
    (x >>= f) s = .ok b s' ↔ ∃ a m, x s = .ok a m ∧ f a m = .ok b s' := by
  show EStateM.bind x f s = .ok b s' ↔ _
  unfold EStateM.bind
  cases x s with
  | ok a m =>
      constructor
      · intro h
        exact ⟨a, m, rfl, h⟩
      · intro hparts
        obtain ⟨_, _, h, h'⟩ := hparts
        cases h
        exact h'
  | error e m => simp

/-- A sequence fails where its first part does, or where its second part does
behind the first. -/
theorem bind_eq_error_iff {x : EStateM ε σ α} {f : α → EStateM ε σ β} {e : ε} {s s' : σ} :
    (x >>= f) s = .error e s'
      ↔ x s = .error e s' ∨ ∃ a m, x s = .ok a m ∧ f a m = .error e s' := by
  show EStateM.bind x f s = .error e s' ↔ _
  unfold EStateM.bind
  cases x s with
  | ok a m =>
      constructor
      · intro h
        exact .inr ⟨a, m, rfl, h⟩
      · intro hparts
        rcases hparts with h | ⟨_, _, h, h'⟩
        · cases h
        · cases h
          exact h'
  | error e' m => simp

theorem map_eq_ok_iff {x : EStateM ε σ α} {f : α → β} {b : β} {s s' : σ} :
    (f <$> x) s = .ok b s' ↔ ∃ a, x s = .ok a s' ∧ f a = b := by
  show EStateM.map f x s = .ok b s' ↔ _
  unfold EStateM.map
  cases x s with
  | ok a m =>
      constructor
      · intro h
        cases h
        exact ⟨a, rfl, rfl⟩
      · intro hmapped
        obtain ⟨_, h, rfl⟩ := hmapped
        cases h
        rfl
  | error e m => simp

/-- A refusal under a condition is passed exactly when the condition does not hold. -/
theorem refuse_eq_ok_iff {p : Prop} [Decidable p] {e : ε} {x : EStateM ε σ α} {a : α} {s s' : σ} :
    (if p then throw e else x : EStateM ε σ α) s = .ok a s' ↔ ¬ p ∧ x s = .ok a s' := by
  by_cases h : p
  · rw [if_pos h]
    constructor
    · intro hok
      cases hok
    · intro hok
      exact absurd h hok.1
  · rw [if_neg h]
    simp [h]

end Actions

/-! ### Moving over bytes -/

/-- Reading on from `c` over exactly `bytes` leads to `c'`. -/
structure Cursor.Crosses (c : Cursor) (bytes : Octets) (c' : Cursor) : Prop where
  rest_eq : c.rest = bytes ++ c'.rest
  offset_eq : c'.offset = c.offset + bytes.length

namespace Cursor

/-- A place in a byte string, by the number of bytes in front of it. -/
def within (bytes : Octets) (offset : Nat) : Cursor := ⟨offset, bytes.drop offset⟩

/-- From the end of one part of a string to the end of the next part. -/
theorem within_crosses (before bytes after : Octets) :
    (within (before ++ bytes ++ after) before.length).Crosses bytes
      (within (before ++ bytes ++ after) (before.length + bytes.length)) := by
  refine ⟨?_, rfl⟩
  simp [within, List.append_assoc, List.drop_append]

theorem crosses_of_append (offset : Nat) (bytes rest : Octets) :
    Crosses ⟨offset, bytes ++ rest⟩ bytes ⟨offset + bytes.length, rest⟩ :=
  ⟨rfl, rfl⟩

@[simp] theorem crosses_nil_iff {c c' : Cursor} : c.Crosses [] c' ↔ c' = c := by
  constructor
  · intro hcross
    obtain ⟨hrest, hoffset⟩ := hcross
    cases c
    cases c'
    simp_all
  · rintro rfl
    exact ⟨rfl, rfl⟩

/-- Moving over a concatenation is moving over its parts in turn. -/
theorem crosses_append_iff {c c' : Cursor} {xs ys : Octets} :
    c.Crosses (xs ++ ys) c' ↔ ∃ m, c.Crosses xs m ∧ m.Crosses ys c' := by
  constructor
  · intro hcross
    obtain ⟨hrest, hoffset⟩ := hcross
    refine ⟨⟨c.offset + xs.length, ys ++ c'.rest⟩, ⟨?_, rfl⟩, ⟨rfl, ?_⟩⟩
    · rw [hrest, List.append_assoc]
    · rw [hoffset, List.length_append, Nat.add_assoc]
  · intro hparts
    obtain ⟨m, ⟨hrest, hoffset⟩, ⟨hrest', hoffset'⟩⟩ := hparts
    refine ⟨?_, ?_⟩
    · rw [hrest, hrest', List.append_assoc]
    · rw [hoffset', hoffset, List.length_append, Nat.add_assoc]

theorem Crosses.trans {c m c' : Cursor} {xs ys : Octets} (h : c.Crosses xs m)
    (h' : m.Crosses ys c') : c.Crosses (xs ++ ys) c' :=
  crosses_append_iff.mpr ⟨m, h, h'⟩

/-- From the beginning of a string a cursor comes to a place within it. -/
theorem Crosses.eq_within {bytes xs : Octets} {c : Cursor} (h : (start bytes).Crosses xs c) :
    c = within bytes xs.length := by
  obtain ⟨offset, rest⟩ := c
  have hrest : bytes = xs ++ rest := h.rest_eq
  have hoffset : offset = 0 + xs.length := h.offset_eq
  simp [within, hrest, hoffset]

/-- Moving never changes the length of the whole. -/
theorem Crosses.total_eq {c c' : Cursor} {bytes : Octets} (h : c.Crosses bytes c') :
    c'.total = c.total := by
  simp only [total, remaining, h.rest_eq, h.offset_eq, List.length_append]
  omega

/-- The bytes to be crossed were there. -/
theorem Crosses.length_le_remaining {c c' : Cursor} {bytes : Octets} (h : c.Crosses bytes c') :
    bytes.length ≤ c.remaining := by
  simp [remaining, h.rest_eq]

end Cursor

/-! ### Readers as inverses of layouts -/

namespace ReadM

variable {ε α β : Type}

/-- The reader gives exactly the values that satisfy `p`, each from the bytes
that `layout` puts it in. -/
def Inverts (r : ReadM ε α) (p : α → Prop) (layout : α → Octets) : Prop :=
  ∀ c a c', r c = .ok a c' ↔ p a ∧ c.Crosses (layout a) c'

/-- Reading one value after the other reads their layouts one after the other. -/
theorem Inverts.times {r : ReadM ε α} {p : α → Prop} {layout : α → Octets}
    (h : r.Inverts p layout) (n : Nat) :
    (times n r).Inverts (fun as => as.length = n ∧ ∀ a ∈ as, p a) (·.flatMap layout) := by
  induction n with
  | zero =>
      intro c as c'
      rw [ReadM.times, pure_eq_ok_iff]
      constructor
      · intro hread
        obtain ⟨rfl, rfl⟩ := hread
        simp
      · intro hlaid
        obtain ⟨⟨hlength, -⟩, hcross⟩ := hlaid
        obtain rfl := List.length_eq_zero_iff.mp hlength
        exact ⟨rfl, Cursor.crosses_nil_iff.mp hcross⟩
  | succ n ih =>
      intro c as c'
      simp only [ReadM.times, bind_eq_ok_iff, pure_eq_ok_iff]
      constructor
      · intro hread
        obtain ⟨a, m, ha, as', m', has, rfl, rfl⟩ := hread
        obtain ⟨hpa, hcross⟩ := (h c a m).mp ha
        obtain ⟨⟨hlength, hpas⟩, hcross'⟩ := (ih m as' c').mp has
        refine ⟨⟨by simp [hlength], ?_⟩, Cursor.crosses_append_iff.mpr ⟨m, hcross, hcross'⟩⟩
        rintro b (_ | ⟨_, hb⟩)
        · exact hpa
        · exact hpas b hb
      · intro hlaid
        obtain ⟨⟨hlength, hp⟩, hcross⟩ := hlaid
        cases as with
        | nil => simp at hlength
        | cons a as =>
            obtain ⟨m, hcross, hcross'⟩ := Cursor.crosses_append_iff.mp hcross
            refine ⟨a, m, (h c a m).mpr ⟨hp a (by simp), hcross⟩, as, c', ?_, rfl, rfl⟩
            exact (ih m as c').mpr ⟨⟨by simpa using hlength, fun b hb => hp b (by simp [hb])⟩, hcross'⟩

theorem atomic_eq_ok_iff {r : ReadM ε α} {c c' : Cursor} {a : α} :
    atomic r c = .ok a c' ↔ r c = .ok a c' := by
  unfold atomic
  cases r c with
  | ok b m => simp
  | error e m => simp

theorem atomic_eq_error_iff {r : ReadM ε α} {c c' : Cursor} {e : ε} :
    atomic r c = .error e c' ↔ ∃ m, r c = .error e m ∧ c' = c := by
  unfold atomic
  cases r c with
  | ok b m => simp
  | error e' m => simp [eq_comm]

variable [ReportsDecodeError ε]

/-- Taking succeeds exactly when the bytes are there. -/
theorem take_eq_ok_iff {n : Nat} {c c' : Cursor} {bytes : Octets} :
    (take n : ReadM ε Octets) c = .ok bytes c' ↔ bytes.length = n ∧ c.Crosses bytes c' := by
  constructor
  · intro h
    -- The reader measures what it has split off, which is short when the rest is.
    by_cases hshort : c.remaining < n
    · rw [take_of_remaining_lt hshort] at h
      cases h
    · have hlength : (c.rest.take n).length = n := List.length_take_of_le (Nat.le_of_not_lt hshort)
      simp only [take, List.splitAt_eq, if_pos hlength] at h
      cases h
      exact ⟨hlength, (List.take_append_drop n c.rest).symm, by rw [hlength]⟩
  · intro hlaid
    obtain ⟨rfl, hrest, hoffset⟩ := hlaid
    obtain ⟨offset, rest⟩ := c
    obtain ⟨offset', rest'⟩ := c'
    dsimp only at hrest hoffset
    subst hrest hoffset
    exact take_append offset bytes rest'

/-- Taking fails exactly when the bytes are not there, and reads none of them. -/
theorem take_eq_error_iff {n : Nat} {c c' : Cursor} {e : ε} :
    (take n : ReadM ε Octets) c = .error e c'
      ↔ c.remaining < n ∧ e = ReportsDecodeError.report (.pastEnd c.offset n c.remaining)
        ∧ c' = c := by
  by_cases hshort : c.remaining < n
  · rw [take_of_remaining_lt hshort]
    simp [hshort, eq_comm]
  · have hlength : (c.rest.take n).length = n := List.length_take_of_le (Nat.le_of_not_lt hshort)
    have hok : (take n : ReadM ε Octets) c = .ok (c.rest.take n) ⟨c.offset + n, c.rest.drop n⟩ :=
      take_eq_ok_iff.mpr ⟨hlength, (List.take_append_drop n c.rest).symm, by rw [hlength]⟩
    rw [hok]
    simp [hshort]

/-- A type that stands for exactly the numbers below the capacity of a width is
read from their layout. -/
theorem map_word_eq_ok_iff (width : Nat) {ofNat : Nat → β} {toNat : β → Nat}
    (hlt : ∀ b, toNat b < LittleEndian.capacity width) (hleft : ∀ b, ofNat (toNat b) = b)
    (hright : ∀ n < LittleEndian.capacity width, toNat (ofNat n) = n) {c c' : Cursor} {b : β} :
    (ofNat <$> word width : ReadM ε β) c = .ok b c'
      ↔ c.Crosses (LittleEndian.encode width (toNat b)) c' := by
  simp only [map_eq_ok_iff, word, take_eq_ok_iff]
  constructor
  · intro hread
    obtain ⟨_, ⟨bytes, ⟨hlength, hcross⟩, rfl⟩, rfl⟩ := hread
    -- Bytes of a known number are the layout of what they stand for.
    have hdecode := LittleEndian.decode_lt bytes
    rw [hlength] at hdecode
    rw [hright _ hdecode, ← hlength, LittleEndian.encode_decode]
    exact hcross
  · intro hcross
    refine ⟨toNat b, ⟨_, ⟨LittleEndian.length_encode .., hcross⟩, ?_⟩, hleft b⟩
    exact LittleEndian.decode_encode (hlt b)

theorem word8_eq_ok_iff {c c' : Cursor} {n : UInt8} :
    (word8 : ReadM ε UInt8) c = .ok n c' ↔ c.Crosses (LittleEndian.encode 1 n.toNat) c' :=
  map_word_eq_ok_iff 1 (fun b => b.toNat_lt) (fun _ => UInt8.ofNat_toNat)
    (fun _ h => UInt8.toNat_ofNat_of_lt' h)

theorem word16_eq_ok_iff {c c' : Cursor} {n : UInt16} :
    (word16 : ReadM ε UInt16) c = .ok n c' ↔ c.Crosses (LittleEndian.encode 2 n.toNat) c' :=
  map_word_eq_ok_iff 2 (fun b => b.toNat_lt) (fun _ => UInt16.ofNat_toNat)
    (fun _ h => UInt16.toNat_ofNat_of_lt' h)

theorem word32_eq_ok_iff {c c' : Cursor} {n : UInt32} :
    (word32 : ReadM ε UInt32) c = .ok n c' ↔ c.Crosses (LittleEndian.encode 4 n.toNat) c' :=
  map_word_eq_ok_iff 4 (fun b => b.toNat_lt) (fun _ => UInt32.ofNat_toNat)
    (fun _ h => UInt32.toNat_ofNat_of_lt' h)

theorem word64_eq_ok_iff {c c' : Cursor} {n : UInt64} :
    (word64 : ReadM ε UInt64) c = .ok n c' ↔ c.Crosses (LittleEndian.encode 8 n.toNat) c' :=
  map_word_eq_ok_iff 8 (fun b => b.toNat_lt) (fun _ => UInt64.ofNat_toNat)
    (fun _ h => UInt64.toNat_ofNat_of_lt' h)

/-- A number in single precision is read from its bits, whatever they are. -/
theorem real32_eq_ok_iff {c c' : Cursor} {x : Binary32} :
    (real32 : ReadM ε Binary32) c = .ok x c'
      ↔ c.Crosses (LittleEndian.encode 4 x.bits.toNat) c' := by
  rw [real32, map_eq_ok_iff, ← word32_eq_ok_iff (ε := ε)]
  constructor
  · intro hread
    obtain ⟨bits, h, rfl⟩ := hread
    exact h
  · intro h
    exact ⟨x.bits, h, rfl⟩

/-- A number in double precision is read from its bits, whatever they are. -/
theorem real64_eq_ok_iff {c c' : Cursor} {x : Binary64} :
    (real64 : ReadM ε Binary64) c = .ok x c'
      ↔ c.Crosses (LittleEndian.encode 8 x.bits.toNat) c' := by
  rw [real64, map_eq_ok_iff, ← word64_eq_ok_iff (ε := ε)]
  constructor
  · intro hread
    obtain ⟨bits, h, rfl⟩ := hread
    exact h
  · intro h
    exact ⟨x.bits, h, rfl⟩

/-- A count is read from its low bytes. -/
theorem word32_ofNat_eq_ok {c c' : Cursor} {n : Nat} (hlt : n < UInt32.size)
    (h : c.Crosses (LittleEndian.encode 4 n) c') :
    (word32 : ReadM ε UInt32) c = .ok (UInt32.ofNat n) c' := by
  rw [word32_eq_ok_iff, UInt32.toNat_ofNat_of_lt' hlt]
  exact h

/-- A text is read from any bytes behind their length; only these decide it. -/
theorem text_eq_ok_iff {c c' : Cursor} {s : String} :
    (text : ReadM ε String) c = .ok s c'
      ↔ ∃ bytes : Octets, bytes.length < UInt32.size ∧ Utf8.decode bytes = s
        ∧ c.Crosses (LittleEndian.encode 4 bytes.length ++ bytes) c' := by
  simp only [text, atomic_eq_ok_iff, bind_eq_ok_iff, map_eq_ok_iff, take_eq_ok_iff,
    Cursor.crosses_append_iff]
  constructor
  · intro hread
    obtain ⟨length, m, hlength, bytes, ⟨hbytes, hcross⟩, rfl⟩ := hread
    refine ⟨bytes, hbytes ▸ length.toNat_lt, rfl, m, ?_, hcross⟩
    rw [hbytes]
    exact word32_eq_ok_iff.mp hlength
  · intro hlaid
    obtain ⟨bytes, hlt, rfl, m, hcount, hcross⟩ := hlaid
    have hlength : (UInt32.ofNat bytes.length).toNat = bytes.length :=
      UInt32.toNat_ofNat_of_lt' hlt
    exact ⟨_, m, word32_ofNat_eq_ok hlt hcount, bytes, ⟨hlength.symm, hcross⟩, rfl⟩

end ReadM

/-! ### Headers -/

variable {ε α : Type} [ReportsDecodeError ε]

/-- The two checks of a header, one behind the other. -/
theorem Header.read_eq : (Header.read : ReadM ε UInt16)
    = ReadM.word32 >>= fun found =>
      if found ≠ Header.magic then throw (ReportsDecodeError.report (.wrongMagic found))
      else ReadM.word16 >>= fun version =>
        if Header.currentVersion < version then
          throw (ReportsDecodeError.report (.newerVersion version Header.currentVersion))
        else pure version :=
  rfl

/-- A header is read from the mark and any version that is not newer. -/
theorem Header.inverts_read : (Header.read : ReadM ε UInt16).Inverts (· ≤ Header.currentVersion)
    (fun v => LittleEndian.encode 4 Header.magic.toNat ++ LittleEndian.encode 2 v.toNat) := by
  intro c v c'
  simp only [Header.read_eq, bind_eq_ok_iff, refuse_eq_ok_iff, pure_eq_ok_iff,
    ReadM.word32_eq_ok_iff, ReadM.word16_eq_ok_iff, Cursor.crosses_append_iff]
  constructor
  · intro hread
    obtain ⟨found, m, hfound, hmagic, version, m', hversion, hnewer, rfl, rfl⟩ := hread
    obtain rfl := Decidable.not_not.mp hmagic
    exact ⟨UInt16.not_lt.mp hnewer, m, hfound, hversion⟩
  · intro hlaid
    obtain ⟨hle, m, hmagic, hversion⟩ := hlaid
    exact ⟨_, m, hmagic, not_not_intro rfl, v, c', hversion, UInt16.not_lt.mpr hle, rfl, rfl⟩

end Thermoscape
