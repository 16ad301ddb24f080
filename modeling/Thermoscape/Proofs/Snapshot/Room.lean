import Thermoscape.Proofs.Snapshot.Outcome

/-!
# Thermoscape.Proofs.Snapshot.Room

**The check for room only hastens a refusal.** Before counted items are read, their number
times the least length of one is compared with the bytes that are left. Reading them without
the check would come to the same end, only later: every item takes at least that length, so
too few bytes for all of them run out before the last one. The two readers are the same up to
which missing bytes they report (`SameUpToShort`), and this is closed under sequencing.

What the check is for is the room that is set aside for items before they are read. Reading
is done once more with a list of what becomes of each count (`LoggedReadM`): whatever the
bytes declare, no product is too large to be computed, and no room is set aside for more
items than the bytes left could hold.
-/

namespace Thermoscape

/-! ### Results that differ in what they miss -/

/-- The two results are the same, or both say that bytes are missing. -/
inductive SameUpToShort {α : Type} :
    EStateM.Result SaveError Cursor α → EStateM.Result SaveError Cursor α → Prop
  | same (r : EStateM.Result SaveError Cursor α) : SameUpToShort r r
  | short {e e' : SaveError} {c c' : Cursor} (he : e.IsShort) (he' : e'.IsShort) :
      SameUpToShort (.error e c) (.error e' c')

namespace SameUpToShort

variable {α β : Type} {r r' : EStateM.Result SaveError Cursor α}

theorem ok_iff (h : SameUpToShort r r') (a : α) (c : Cursor) : r = .ok a c ↔ r' = .ok a c := by
  cases h with
  | same => exact Iff.rfl
  | short => simp

theorem refused_iff (h : SameUpToShort r r') {e : SaveError} (he : ¬ e.IsShort) (c : Cursor) :
    r = .error e c ↔ r' = .error e c := by
  cases h with
  | same => exact Iff.rfl
  | short h₁ h₂ =>
      constructor
      · intro heq
        cases heq
        exact absurd h₁ he
      · intro heq
        cases heq
        exact absurd h₂ he

theorem short_iff (h : SameUpToShort r r') :
    (∃ e c, e.IsShort ∧ r = .error e c) ↔ ∃ e c, e.IsShort ∧ r' = .error e c := by
  cases h with
  | same => exact Iff.rfl
  | short h₁ h₂ => exact ⟨fun _ => ⟨_, _, h₂, rfl⟩, fun _ => ⟨_, _, h₁, rfl⟩⟩

/-- **Sequences** of readers that are the same up to missing bytes are the same up to missing
bytes. -/
theorem bind {x x' : ReadM SaveError α} {f f' : α → ReadM SaveError β} {c : Cursor}
    (hx : SameUpToShort (x c) (x' c)) (hf : ∀ a m, SameUpToShort (f a m) (f' a m)) :
    SameUpToShort ((x >>= f) c) ((x' >>= f') c) := by
  show SameUpToShort (EStateM.bind x f c) (EStateM.bind x' f' c)
  rw [EStateM.bind, EStateM.bind]
  generalize x c = r at hx
  generalize x' c = r' at hx
  cases hx with
  | same =>
      cases r with
      | ok a m => exact hf a m
      | error e m => exact same _
  | short he he' => exact short he he'

end SameUpToShort

/-! ### Reading without the check -/

namespace Snapshot

variable {α : Type}

/-- Reads a snapshot without any check for room. -/
def readUnchecked : ReadM SaveError Snapshot := readWith fun _ _ => pure ()

/-- Bytes that are too few for all items run out before the last one. -/
theorem times_short {item : ReadM SaveError α} {p : α → Prop} {layout : α → Octets} {length : Nat}
    (hitem : item.Inverts p layout) (hlength : ∀ a, length ≤ (layout a).length)
    (hshort : item.FailsShort) {n : Nat} {c : Cursor} (h : c.remaining < n * length) :
    ∃ e c', e.IsShort ∧ ReadM.times n item c = .error e c' := by
  cases hread : ReadM.times n item c with
  | error e c' => exact ⟨e, c', hshort.times n c e c' hread, rfl⟩
  | ok as c' =>
      obtain ⟨⟨rfl, -⟩, hcross⟩ := (hitem.times n c as c').mp hread
      have taken := length_flatMap_ge fun a (_ : a ∈ as) => hlength a
      exact absurd (Nat.le_trans taken hcross.length_le_remaining) (Nat.not_le.mpr h)

/-- Counted items are read alike with the check and without it. -/
theorem readCounted_unchecked {item : ReadM SaveError α} {p : α → Prop} {layout : α → Octets}
    {length : Nat} (hitem : item.Inverts p layout) (hlength : ∀ a, length ≤ (layout a).length)
    (hshort : item.FailsShort) (check : Nat → ReadM SaveError Unit) (c : Cursor) :
    SameUpToShort (readCounted ensureRoom length item check c)
      (readCounted (fun _ _ => pure ()) length item check c) := by
  refine .bind (.same _) fun count _ => .bind (.same _) fun _ m => ?_
  show SameUpToShort (EStateM.bind (ensureRoom count.toNat length) _ m)
    (ReadM.times count.toNat item m)
  rw [EStateM.bind, ensureRoom_eq]
  by_cases h : m.remaining < min (count.toNat * length) maxByteCount
  · obtain ⟨e, c', he, hread⟩ := times_short hitem hlength hshort
      (Nat.lt_of_lt_of_le h (Nat.min_le_left _ _))
    rw [if_pos h, hread]
    exact .short trivial he
  · rw [if_neg h]
    exact .same _

/-- A snapshot is read alike with the check and without it. -/
theorem read_unchecked (c : Cursor) : SameUpToShort (read c) (readUnchecked c) := by
  have temperatures (e : Extent) := readCounted_unchecked inverts_temperature temperatureLength_le
    ReadM.FailsShort.real64 (checkCellCount e)
  have creatures := readCounted_unchecked inverts_readCreature leastCreatureLength_le
    ReadM.FailsShort.readCreature fun _ => pure ()
  exact .bind (.same _) fun _ _ => .bind (.same _) fun _ _ => .bind (.same _) fun _ _ =>
    .bind (.same _) fun _ _ => .bind (.same _) fun _ _ => .bind (.same _) fun _ _ =>
      .bind (.same _) fun _ _ => .bind (temperatures _ _) fun _ _ =>
        .bind (creatures _) fun _ _ => .same _

end Snapshot

/-! ### What becomes of a count -/

/-- What is counted in the bytes of a snapshot. -/
inductive Item where
  | temperature
  | creature
  deriving DecidableEq

/-- The least number of bytes that an item takes. -/
def Item.leastLength : Item → Nat
  | temperature => 8
  | creature => 16

/-- What a reader does with a count besides reading. -/
inductive CountUse where
  /-- The count is multiplied by the least length of an item. -/
  | multiplied (item : Item) (count : Nat)
  /-- Room for that many items is set aside while `remaining` bytes are left. -/
  | setAside (item : Item) (count remaining : Nat)
  deriving DecidableEq

/-- In reading from `c` on, the product is one that a count of bytes can be, and room is set
aside only for items that the bytes left can hold. -/
def CountUse.Bounded (c : Cursor) : CountUse → Prop
  | multiplied item count => count * item.leastLength ≤ Snapshot.maxByteCount
  | setAside item count remaining =>
    count * item.leastLength ≤ remaining ∧ remaining ≤ c.remaining

/-- What is bounded by the bytes behind a place is bounded by those behind an earlier one. -/
theorem CountUse.Bounded.of_crosses {c m : Cursor} {bytes : Octets} {u : CountUse}
    (h : u.Bounded m) (hcross : c.Crosses bytes m) : u.Bounded c := by
  cases u with
  | multiplied item count => exact h
  | setAside item count remaining =>
      refine ⟨h.1, Nat.le_trans h.2 ?_⟩
      simp [Cursor.remaining, hcross.rest_eq]

/-- Reads, and lists what is done with counts. -/
def LoggedReadM (α : Type) : Type :=
  Cursor → EStateM.Result SaveError Cursor α × List CountUse

namespace LoggedReadM

variable {α β : Type}

instance : Monad LoggedReadM where
  pure a := fun c => (.ok a c, [])
  bind x f := fun c =>
    match x c with
    | (.ok a m, uses) => ((f a m).1, uses ++ (f a m).2)
    | (.error e m, uses) => (.error e m, uses)

theorem bind_apply (x : LoggedReadM α) (f : α → LoggedReadM β) (c : Cursor) :
    (x >>= f) c
      = match x c with
        | (.ok a m, uses) => ((f a m).1, uses ++ (f a m).2)
        | (.error e m, uses) => (.error e m, uses) := rfl

/-- Reads without a use of a count. -/
def plain (r : ReadM SaveError α) : LoggedReadM α := fun c => (r c, [])

def ensureRoom (item : Item) (count : Nat) : LoggedReadM Unit := fun c =>
  (Snapshot.ensureRoom count item.leastLength c, [.multiplied item count])

def setAside (item : Item) (count : Nat) : LoggedReadM Unit := fun c =>
  (.ok () c, [.setAside item count c.remaining])

/-- Sets room aside for items that may all be there. -/
def reserve (item : Item) (count : Nat) : LoggedReadM Unit := do
  ensureRoom item count
  setAside item count

def counted (item : Item) (r : ReadM SaveError α) (check : Nat → ReadM SaveError Unit) :
    LoggedReadM (List α) := do
  let count ← plain ReadM.word32
  plain (check count.toNat)
  reserve item count.toNat
  plain (ReadM.times count.toNat r)

def snapshot : LoggedReadM Snapshot := do
  let name ← plain ReadM.text
  let timestamp ← plain ReadM.word64
  let formatVersion ← plain ReadM.word32
  let width ← plain ReadM.word32
  let height ← plain ReadM.word32
  let time ← plain ReadM.real64
  let ambient ← plain ReadM.real64
  let extent : Extent := ⟨width, height⟩
  let temperatures ← counted .temperature ReadM.real64 (Snapshot.checkCellCount extent)
  let creatures ← counted .creature Snapshot.readCreature fun _ => pure ()
  return { name, timestamp, formatVersion, extent, time, ambient, temperatures, creatures }

/-- The logged reader does what the reader does, and makes bounded use of counts. -/
structure Logs (x : LoggedReadM α) (r : ReadM SaveError α) : Prop where
  result_eq : ∀ c, (x c).1 = r c
  bounded : ∀ c, ∀ u ∈ (x c).2, u.Bounded c

namespace Logs

theorem plain (r : ReadM SaveError α) : Logs (LoggedReadM.plain r) r :=
  ⟨fun _ => rfl, fun _ => nofun⟩

theorem pure (a : α) : Logs (Pure.pure a) (Pure.pure a) := ⟨fun _ => rfl, fun _ => nofun⟩

/-- **Sequences** make bounded use of counts when their parts do, since reading only moves on. -/
theorem bind {x : LoggedReadM α} {r : ReadM SaveError α} {f : α → LoggedReadM β}
    {k : α → ReadM SaveError β} (hx : Logs x r) (hr : r.Streaming) (hf : ∀ a, Logs (f a) (k a)) :
    Logs (x >>= f) (r >>= k) where
  result_eq := by
    intro c
    show _ = EStateM.bind r k c
    rw [bind_apply, EStateM.bind, ← hx.result_eq c]
    rcases x c with ⟨_ | _, uses⟩
    · exact (hf _).result_eq _
    · rfl
  bounded := by
    intro c u hu
    have result := hx.result_eq c
    have uses := hx.bounded c
    rw [bind_apply] at hu
    generalize x c = logged at result uses hu
    obtain ⟨_ | _, _⟩ := logged
    · obtain ⟨bytes, hcross⟩ := hr.ok_crosses result.symm
      rcases List.mem_append.mp hu with hu | hu
      · exact uses u hu
      · exact ((hf _).bounded _ u hu).of_crosses hcross
    · exact uses u hu

/-- A count of 32 bits is multiplied without excess, and room is set aside when the check has
been passed. -/
theorem reserve (item : Item) (count : UInt32) :
    Logs (LoggedReadM.reserve item count.toNat)
      (Snapshot.ensureRoom count.toNat item.leastLength) := by
  have product : count.toNat * item.leastLength ≤ Snapshot.maxByteCount := by
    have hcount : count.toNat < UInt32.size := count.toNat_lt
    have hitem : item.leastLength ≤ 16 := by cases item <;> decide
    calc count.toNat * item.leastLength
        ≤ UInt32.size * 16 := Nat.mul_le_mul (Nat.le_of_lt hcount) hitem
      _ ≤ Snapshot.maxByteCount := by decide
  refine ⟨fun c => ?_, fun c u hu => ?_⟩
  · rw [LoggedReadM.reserve, bind_apply, LoggedReadM.ensureRoom]
    cases Snapshot.ensureRoom count.toNat item.leastLength c with
    | ok _ m => rfl
    | error e m => rfl
  · rw [LoggedReadM.reserve, bind_apply, LoggedReadM.ensureRoom] at hu
    cases hroom : Snapshot.ensureRoom count.toNat item.leastLength c with
    | ok _ m =>
        obtain ⟨enough, rfl⟩ := Snapshot.ensureRoom_eq_ok_iff.mp hroom
        rw [Nat.min_eq_left product] at enough
        rw [hroom] at hu
        rcases List.mem_cons.mp hu with rfl | hu
        · exact product
        · obtain rfl := List.mem_singleton.mp hu
          exact ⟨enough, Nat.le_refl _⟩
    | error e m =>
        rw [hroom] at hu
        obtain rfl := List.mem_singleton.mp hu
        exact product

theorem counted (item : Item) {r : ReadM SaveError α} {check : Nat → ReadM SaveError Unit}
    (hcheck : ∀ n, (check n).Streaming) :
    Logs (LoggedReadM.counted item r check)
      (Snapshot.readCounted Snapshot.ensureRoom item.leastLength r check) :=
  (plain _).bind .word32 fun count => (plain _).bind (hcheck count.toNat) fun _ =>
    (reserve item count).bind (.ensureRoom count.toNat item.leastLength) fun _ => plain _

theorem snapshot : Logs LoggedReadM.snapshot Snapshot.read :=
  (plain _).bind .text fun _ => (plain _).bind .word64 fun _ => (plain _).bind .word32 fun _ =>
    (plain _).bind .word32 fun _ => (plain _).bind .word32 fun _ => (plain _).bind .real64 fun _ =>
      (plain _).bind .real64 fun _ =>
        (counted .temperature (.checkCellCount _)).bind
          (.readCounted .real64 (.checkCellCount _) _) fun _ =>
            (counted .creature fun _ => .pure ()).bind
              (.readCounted .readCreature (fun _ => .pure ()) _) fun _ => pure _

end Logs

/-! ### The list behind a snapshot that is read -/

theorem uses_bind {x : LoggedReadM α} {r : ReadM SaveError α} (hx : Logs x r) {c m : Cursor} {a : α}
    (h : r c = .ok a m) (f : α → LoggedReadM β) : ((x >>= f) c).2 = (x c).2 ++ (f a m).2 := by
  have result := (hx.result_eq c).trans h
  rw [bind_apply]
  generalize x c = logged at result
  obtain ⟨_, uses⟩ := logged
  obtain rfl : _ = EStateM.Result.ok a m := result
  rfl

/-- Reading that makes no use of a count adds nothing to the list. -/
theorem uses_plain_bind {r : ReadM SaveError α} {c m : Cursor} {a : α} (h : r c = .ok a m)
    (f : α → LoggedReadM β) : ((plain r >>= f) c).2 = (f a m).2 :=
  uses_bind (.plain r) h f

/-- For counted items that are read, room was set aside for as many. -/
theorem uses_counted (item : Item) {r : ReadM SaveError α} {p : α → Prop} {layout : α → Octets}
    (hr : r.Inverts p layout) {check : Nat → ReadM SaveError Unit} {c c' : Cursor} {as : List α}
    (h : Snapshot.readCounted Snapshot.ensureRoom item.leastLength r check c = .ok as c') :
    ∃ left, (counted item r check c).2
      = [.multiplied item as.length, .setAside item as.length left] := by
  simp only [Snapshot.readCounted, bind_eq_ok_iff] at h
  obtain ⟨count, m, hcount, ⟨⟩, m₁, hchecked, ⟨⟩, m₂, hroom, hitems⟩ := h
  obtain ⟨⟨number, -⟩, -⟩ := (hr.times _ _ _ _).mp hitems
  obtain rfl := Snapshot.admits_ensureRoom.stays hroom
  refine ⟨m₂.remaining, ?_⟩
  -- What the check admits is logged twice, and reading the items is not logged.
  rw [counted, uses_plain_bind hcount, uses_plain_bind hchecked,
    uses_bind (.reserve item count) hroom, reserve, bind_apply, ensureRoom, hroom, number]
  rfl

/-- For a snapshot that is read, room was set aside for its temperatures and its creatures. -/
theorem uses_snapshot {c c' : Cursor} {s : Snapshot} (h : Snapshot.read c = .ok s c') :
    ∃ left left', (snapshot c).2
      = [.multiplied .temperature s.temperatures.length,
          .setAside .temperature s.temperatures.length left,
          .multiplied .creature s.creatures.length,
          .setAside .creature s.creatures.length left'] := by
  simp only [Snapshot.read, Snapshot.readWith, bind_eq_ok_iff, pure_eq_ok_iff] at h
  obtain ⟨name, m₁, hname, timestamp, m₂, htimestamp, version, m₃, hversion, width, m₄, hwidth,
    height, m₅, hheight, time, m₆, htime, ambient, m₇, hambient, ts, m₈, hts, cs, m₉, hcs, rfl,
    rfl⟩ := h
  obtain ⟨left, temperatures⟩ := uses_counted .temperature Snapshot.inverts_temperature hts
  obtain ⟨left', creatures⟩ := uses_counted .creature Snapshot.inverts_readCreature hcs
  refine ⟨left, left', ?_⟩
  rw [snapshot, uses_plain_bind hname, uses_plain_bind htimestamp, uses_plain_bind hversion,
    uses_plain_bind hwidth, uses_plain_bind hheight, uses_plain_bind htime,
    uses_plain_bind hambient, uses_bind (.counted .temperature (.checkCellCount _)) hts,
    uses_bind (.counted .creature fun _ => .pure ()) hcs, temperatures, creatures]
  rfl

end LoggedReadM

/-- **The check for room changes nothing that is accepted.** From every place in every byte
string, reading with the check and reading without it give the same snapshot and end at the
same place, or refuse the bytes alike for their content, or both report missing bytes.

Reading with a list of what becomes of the counts gives the same again. In this list no
product exceeds what a count of bytes can be, and room is set aside only for temperatures of
8 bytes and creatures of at least 16 that the bytes left at that moment can hold; a snapshot
that is read has been given room for all that it holds and for nothing else. -/
theorem Snapshot.room_checked_in_advance (c : Cursor) :
    let uses := (LoggedReadM.snapshot c).2
    (∀ s c', Snapshot.read c = .ok s c' ↔ Snapshot.readUnchecked c = .ok s c')
      ∧ (∀ e c', ¬ e.IsShort →
          (Snapshot.read c = .error e c' ↔ Snapshot.readUnchecked c = .error e c'))
      ∧ ((∃ e c', e.IsShort ∧ Snapshot.read c = .error e c')
          ↔ ∃ e c', e.IsShort ∧ Snapshot.readUnchecked c = .error e c')
      ∧ (LoggedReadM.snapshot c).1 = Snapshot.read c
      ∧ (∀ item count, .multiplied item count ∈ uses →
          count * item.leastLength ≤ UInt64.size - 1)
      ∧ (∀ item count remaining, .setAside item count remaining ∈ uses →
          count * item.leastLength ≤ remaining ∧ remaining ≤ c.remaining)
      ∧ ∀ s c', Snapshot.read c = .ok s c' →
          ∃ left left', uses
            = [.multiplied .temperature s.temperatures.length,
                .setAside .temperature s.temperatures.length left,
                .multiplied .creature s.creatures.length,
                .setAside .creature s.creatures.length left'] := by
  intro uses
  have same := Snapshot.read_unchecked c
  have bounded := LoggedReadM.Logs.snapshot.bounded c
  exact ⟨same.ok_iff, fun e c' he => same.refused_iff he c', same.short_iff,
    LoggedReadM.Logs.snapshot.result_eq c, fun item count => bounded (.multiplied item count),
    fun item count remaining => bounded (.setAside item count remaining),
    fun _ _ h => LoggedReadM.uses_snapshot h⟩

/-- Behind two other bytes, a file of one cell announces as many creatures as a count can, and
has three bytes left for them. Room is set aside for the temperature only. -/
theorem Snapshot.room_checked_in_advance_flood :
    let bytes : Octets := [9, 9] ++ LittleEndian.encode 4 0 ++ LittleEndian.encode 8 7
      ++ LittleEndian.encode 4 1 ++ LittleEndian.encode 4 1 ++ LittleEndian.encode 4 1
      ++ LittleEndian.encode 8 0 ++ LittleEndian.encode 8 0
      ++ LittleEndian.encode 4 1 ++ LittleEndian.encode 8 5
      ++ LittleEndian.encode 4 4294967295 ++ [1, 2, 3]
    let c := Cursor.within bytes 2
    (LoggedReadM.snapshot c).2
        = [.multiplied .temperature 1, .setAside .temperature 1 15,
          .multiplied .creature 4294967295]
      ∧ 4294967295 * Item.creature.leastLength ≤ UInt64.size - 1
      ∧ 1 * Item.temperature.leastLength ≤ 15 ∧ 15 ≤ c.remaining
      ∧ (∃ e c', e.IsShort ∧ Snapshot.read c = .error e c')
      ∧ ∃ e c', e.IsShort ∧ Snapshot.readUnchecked c = .error e c' := by
  intro bytes c
  obtain ⟨-, -, short, -, products, rooms, -⟩ := Snapshot.room_checked_in_advance c
  have uses : (LoggedReadM.snapshot c).2
      = [.multiplied .temperature 1, .setAside .temperature 1 15,
          .multiplied .creature 4294967295] := by
    decide +kernel
  have room := rooms .temperature 1 15 (by simp [uses])
  have refused : ∃ e c', e.IsShort ∧ Snapshot.read c = .error e c' :=
    ⟨.undecodable (.pastEnd 58 68719476720 3), Cursor.within bytes 58, trivial, rfl⟩
  exact ⟨uses, products .creature 4294967295 (by simp [uses]), room.1, room.2, refused,
    short.mp refused⟩

end Thermoscape
