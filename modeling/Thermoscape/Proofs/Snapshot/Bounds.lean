import Thermoscape.Proofs.Field.Guarded
import Thermoscape.Proofs.Octets.Positions
import Thermoscape.Proofs.Snapshot.Truncation

/-!
# Thermoscape.Proofs.Snapshot.Bounds

**Reading never leaves the bytes.** A cursor of the library holds the bytes that are left,
so it cannot point beyond them. Here reading is done once more with the whole byte string
and a position in it, under guard: the bytes left are a difference that must not be below
zero, the end of what is taken is a sum that has to fit into 64 bits, and the stretch
between position and end has to be there.

A guarded reader agrees with a reader of the library when it gives the same answer at the
same place and no guard is hit, from every position in the bytes (`Agrees`). Agreement is
closed under sequencing since a streaming reader leads from a position in the bytes to one
that is not before it (`Streaming.stays_within`). So only taking bytes and checking for room
compute with positions, and these check first.

Operations may follow each other in any order, and reading goes on behind a failure
(`reading_stays_within`). A value is read from exactly the bytes at its position, or not at
all; a header or a snapshot that fails may have been read in part.
-/

namespace Thermoscape

open Cursor (within)

/-! ### Positions in a byte string -/

/-- Moving on inside a byte string leads to a later place in it. -/
theorem Cursor.Crosses.of_within {bytes xs : Octets} {offset : Nat} {c : Cursor}
    (hoffset : offset ≤ bytes.length) (h : (within bytes offset).Crosses xs c) :
    c = within bytes (offset + xs.length) ∧ offset + xs.length ≤ bytes.length := by
  obtain ⟨offset', rest⟩ := c
  have hrest : bytes.drop offset = xs ++ rest := h.rest_eq
  have hoffset' : offset' = offset + xs.length := h.offset_eq
  have hlength := congrArg List.length hrest
  rw [List.length_drop, List.length_append] at hlength
  refine ⟨?_, by omega⟩
  rw [within, ← List.drop_drop, hrest, List.drop_left, hoffset']

/-- Where an attempt to read ends, successful or not. -/
def endOf {σ α : Type} : EStateM.Result SaveError σ α → σ
  | .ok _ c => c
  | .error _ c => c

/-- An attempt to read leads to a place in the bytes that is not before the first. -/
theorem ReadM.Streaming.stays_within {α : Type} {r : ReadM SaveError α} (h : r.Streaming)
    {bytes : Octets} {offset : Nat} (hoffset : offset ≤ bytes.length) :
    ∃ offset', offset ≤ offset' ∧ offset' ≤ bytes.length
      ∧ endOf (r (within bytes offset)) = within bytes offset' := by
  have crossed : ∃ xs, (within bytes offset).Crosses xs
      (endOf (r (within bytes offset))) := by
    cases hr : r (within bytes offset) with
    | ok a c => exact h.ok_crosses hr
    | error e c => exact h.error_crosses hr
  obtain ⟨xs, hxs⟩ := crossed
  obtain ⟨hcursor, hend⟩ := hxs.of_within hoffset
  exact ⟨_, Nat.le_add_right offset xs.length, hend, hcursor⟩

/-! ### Reading under guard -/

namespace Guarded

/-- A difference that is not below zero. -/
def difference (n m : Nat) : Guarded Nat := if m ≤ n then .ok (n - m) else .error .overflow

/-- A stretch of bytes that are all there. -/
def stretch (bytes : Octets) (start stop : Nat) : Guarded Octets :=
  if start ≤ stop ∧ stop ≤ bytes.length then .ok (Thermoscape.slice start (stop - start) bytes)
  else .error .outOfBounds

end Guarded

/-- Reads from a byte string at a position, and gives the position afterwards. -/
def GuardedReadM (α : Type) : Type :=
  Octets → Nat → Guarded (EStateM.Result SaveError Nat α)

namespace GuardedReadM

instance : Monad GuardedReadM where
  pure a := fun _ p => .ok (.ok a p)
  bind x f := fun bytes p =>
    match x bytes p with
    | .ok (.ok a p') => f a bytes p'
    | .ok (.error e p') => .ok (.error e p')
    | .error fault => .error fault

variable {α β : Type}

theorem bind_apply (x : GuardedReadM α) (f : α → GuardedReadM β) (bytes : Octets) (p : Nat) :
    (x >>= f) bytes p
      = match x bytes p with
        | .ok (.ok a p') => f a bytes p'
        | .ok (.error e p') => .ok (.error e p')
        | .error fault => .error fault := rfl

def refuse (e : SaveError) : GuardedReadM α := fun _ p => .ok (.error e p)

/-- Fails unless `needed` bytes are left. -/
def ensureLeft (needed : Nat) : GuardedReadM Unit := fun bytes p => do
  let available ← Guarded.difference bytes.length p
  if available < needed then return .error (.undecodable (.pastEnd p needed available)) p
  else return .ok () p

/-- Moves over bytes that are there. -/
def advance (n : Nat) : GuardedReadM Octets := fun bytes p => do
  let stop ← Guarded.word (p + n)
  return .ok (← Guarded.stretch bytes p stop) stop

def take (n : Nat) : GuardedReadM Octets := do
  ensureLeft n
  advance n

def atomic (r : GuardedReadM α) : GuardedReadM α := fun bytes p => do
  match ← r bytes p with
  | .ok a p' => return .ok a p'
  | .error e _ => return .error e p

def times : (n : Nat) → GuardedReadM α → GuardedReadM (List α)
  | 0, _ => pure []
  | n + 1, r => do
    let a ← r
    let as ← times n r
    pure (a :: as)

def word (width : Nat) : GuardedReadM Nat := LittleEndian.decode <$> take width

def word8 : GuardedReadM UInt8 := UInt8.ofNat <$> word 1

def word16 : GuardedReadM UInt16 := UInt16.ofNat <$> word 2

def word32 : GuardedReadM UInt32 := UInt32.ofNat <$> word 4

def word64 : GuardedReadM UInt64 := UInt64.ofNat <$> word 8

def real32 : GuardedReadM Binary32 := Binary32.mk <$> word32

def real64 : GuardedReadM Binary64 := Binary64.mk <$> word64

def flag : GuardedReadM Bool := (fun b => b != 0) <$> word8

def text : GuardedReadM String := atomic do
  let length ← word32
  Utf8.decode <$> take length.toNat

def value : Kind → GuardedReadM Value
  | .word8 => Value.word8 <$> word8
  | .word16 => Value.word16 <$> word16
  | .word32 => Value.word32 <$> word32
  | .word64 => Value.word64 <$> word64
  | .real32 => Value.real32 <$> real32
  | .real64 => Value.real64 <$> real64
  | .flag => Value.flag <$> flag
  | .text => Value.text <$> text
  | .raw length => Value.raw <$> take length

def header : GuardedReadM UInt16 := do
  let found ← word32
  if found ≠ Header.magic then refuse (.undecodable (.wrongMagic found))
  else
    let version ← word16
    if Header.currentVersion < version then
      refuse (.undecodable (.newerVersion version Header.currentVersion))
    else pure version

def ensureRoom (count itemLength : Nat) : GuardedReadM Unit :=
  ensureLeft (min (count * itemLength) Snapshot.maxByteCount)

def creature : GuardedReadM Creature := do
  let x ← real32
  let y ← real32
  let energy ← real32
  let length ← word32
  let dna ← take length.toNat
  return ⟨x, y, energy, dna⟩

def counted (itemLength : Nat) (item : GuardedReadM α) (check : Nat → GuardedReadM Unit) :
    GuardedReadM (List α) := do
  let count ← word32
  check count.toNat
  ensureRoom count.toNat itemLength
  times count.toNat item

def checkCellCount (e : Extent) (found : Nat) : GuardedReadM Unit :=
  if found ≠ e.count then refuse (.cellCount e.count found) else pure ()

def snapshot : GuardedReadM Snapshot := do
  let name ← text
  let timestamp ← word64
  let formatVersion ← word32
  let width ← word32
  let height ← word32
  let time ← real64
  let ambient ← real64
  let extent : Extent := ⟨width, height⟩
  let temperatures ← counted Snapshot.temperatureLength real64 (checkCellCount extent)
  let creatures ← counted Snapshot.leastCreatureLength creature fun _ => pure ()
  return { name, timestamp, formatVersion, extent, time, ambient, temperatures, creatures }

/-! ### Agreement -/

/-- A result with the cursor as a position. -/
def positioned : EStateM.Result SaveError Cursor α → EStateM.Result SaveError Nat α
  | .ok a c => .ok a c.offset
  | .error e c => .error e c.offset

/-- From every position in a byte string that a machine of 64 bits can hold, the guarded
reader does what the reader does. -/
def Agrees (r' : GuardedReadM α) (r : ReadM SaveError α) : Prop :=
  ∀ (bytes : Octets) (p : Nat), bytes.length < UInt64.size → p ≤ bytes.length →
    r' bytes p = .ok (positioned (r (within bytes p)))

namespace Agrees

theorem pure (a : α) : Agrees (Pure.pure a) (Pure.pure a) := fun _ _ _ _ => rfl

theorem refuse (e : SaveError) :
    Agrees (GuardedReadM.refuse e : GuardedReadM α) (MonadExcept.throw e) := fun _ _ _ _ => rfl

/-- **Sequences agree** when their parts do, since the first part ends inside the bytes. -/
theorem bind {x' : GuardedReadM α} {x : ReadM SaveError α} {f' : α → GuardedReadM β}
    {f : α → ReadM SaveError β} (hx : Agrees x' x) (hs : x.Streaming)
    (hf : ∀ a, Agrees (f' a) (f a)) : Agrees (x' >>= f') (x >>= f) := by
  intro bytes p hbytes hp
  obtain ⟨p', -, hend, hafter⟩ := hs.stays_within hp
  show (x' >>= f') bytes p = Except.ok (positioned (EStateM.bind x f (within bytes p)))
  rw [bind_apply, hx bytes p hbytes hp, EStateM.bind]
  cases hr : x (within bytes p) with
  | ok a c =>
      rw [hr] at hafter
      obtain rfl : c = within bytes p' := hafter
      exact hf a bytes p' hbytes hend
  | error e c => rfl

theorem map {x' : GuardedReadM α} {x : ReadM SaveError α} (hx : Agrees x' x) (hs : x.Streaming)
    (f : α → β) : Agrees (f <$> x') (f <$> x) := by
  have same : (x >>= fun a => Pure.pure (f a)) = f <$> x := bind_pure_comp f x
  have h := hx.bind hs fun a => Agrees.pure (f a)
  rwa [same] at h

theorem atomic {x' : GuardedReadM α} {x : ReadM SaveError α} (hx : Agrees x' x) :
    Agrees (GuardedReadM.atomic x') (ReadM.atomic x) := by
  intro bytes p hbytes hp
  rw [GuardedReadM.atomic, hx bytes p hbytes hp, ReadM.atomic]
  cases x (within bytes p) with
  | ok a c => rfl
  | error e c => rfl

theorem times {x' : GuardedReadM α} {x : ReadM SaveError α} (hx : Agrees x' x) (hs : x.Streaming)
    (n : Nat) : Agrees (GuardedReadM.times n x') (ReadM.times n x) := by
  induction n with
  | zero => exact Agrees.pure []
  | succ n ih => exact hx.bind hs fun a => ih.bind (hs.times n) fun as => Agrees.pure (a :: as)

theorem guarded {p : Prop} [Decidable p] {e : SaveError} {x' : GuardedReadM α}
    {x : ReadM SaveError α} (hx : Agrees x' x) :
    Agrees (if p then GuardedReadM.refuse e else x') (if p then MonadExcept.throw e else x) := by
  by_cases h : p
  · rw [if_pos h, if_pos h]
    exact refuse e
  · rw [if_neg h, if_neg h]
    exact hx

/-! ### The two readers that compute with positions -/

/-- What is left is known inside the bytes. -/
theorem ensureLeft_eq {bytes : Octets} {p : Nat} (hp : p ≤ bytes.length) (needed : Nat) :
    ensureLeft needed bytes p
      = .ok (if bytes.length - p < needed then
          .error (.undecodable (.pastEnd p needed (bytes.length - p))) p
        else .ok () p) := by
  have left : Guarded.difference bytes.length p = .ok (bytes.length - p) := if_pos hp
  rw [ensureLeft, left, Guarded.ok_bind]
  by_cases h : bytes.length - p < needed
  · rw [if_pos h, if_pos h]
    rfl
  · rw [if_neg h, if_neg h]
    rfl

/-- Bytes that are left can be moved over. -/
theorem advance_eq {bytes : Octets} {p n : Nat} (hbytes : bytes.length < UInt64.size)
    (h : p + n ≤ bytes.length) :
    advance n bytes p = .ok (.ok (Thermoscape.slice p n bytes) (p + n)) := by
  have stop : Guarded.word (p + n) = .ok (p + n) := Guarded.word_eq (by omega)
  have there : Guarded.stretch bytes p (p + n) = .ok (Thermoscape.slice p n bytes) := by
    rw [Guarded.stretch, if_pos ⟨Nat.le_add_right p n, h⟩, Nat.add_sub_cancel_left]
  rw [advance, stop, Guarded.ok_bind, there]
  rfl

theorem take (n : Nat) : Agrees (GuardedReadM.take n) (ReadM.take n) := by
  intro bytes p hbytes hp
  rw [GuardedReadM.take, bind_apply, ensureLeft_eq hp, ReadM.fixed_take n bytes p]
  by_cases h : bytes.length - p < n
  · rw [if_pos h, if_neg (by omega)]
    rfl
  · rw [if_neg h, if_pos (by omega)]
    exact advance_eq hbytes (by omega)

theorem ensureRoom (count length : Nat) :
    Agrees (GuardedReadM.ensureRoom count length) (Snapshot.ensureRoom count length) := by
  intro bytes p _ hp
  rw [GuardedReadM.ensureRoom, ensureLeft_eq hp, Snapshot.ensureRoom_eq, Cursor.remaining_within]
  by_cases h : bytes.length - p < min (count * length) Snapshot.maxByteCount
  · rw [if_pos h, if_pos h]
    rfl
  · rw [if_neg h, if_neg h]
    rfl

/-! ### Readers made of these -/

theorem word (width : Nat) : Agrees (GuardedReadM.word width) (ReadM.word width) :=
  (take width).map (.take width) _

theorem word8 : Agrees GuardedReadM.word8 ReadM.word8 := (word 1).map (.word 1) _

theorem word16 : Agrees GuardedReadM.word16 ReadM.word16 := (word 2).map (.word 2) _

theorem word32 : Agrees GuardedReadM.word32 ReadM.word32 := (word 4).map (.word 4) _

theorem word64 : Agrees GuardedReadM.word64 ReadM.word64 := (word 8).map (.word 8) _

theorem real32 : Agrees GuardedReadM.real32 ReadM.real32 := word32.map .word32 _

theorem real64 : Agrees GuardedReadM.real64 ReadM.real64 := word64.map .word64 _

theorem text : Agrees GuardedReadM.text ReadM.text :=
  (word32.bind .word32 fun length => (take length.toNat).map (.take length.toNat) _).atomic

theorem value (k : Kind) : Agrees (GuardedReadM.value k) (ReadM.value k) := by
  cases k with
  | word8 => exact word8.map .word8 _
  | word16 => exact word16.map .word16 _
  | word32 => exact word32.map .word32 _
  | word64 => exact word64.map .word64 _
  | real32 => exact real32.map .real32 _
  | real64 => exact real64.map .real64 _
  | flag => exact (word8.map .word8 _).map (ReadM.Streaming.word8.map _) _
  | text => exact text.map .text _
  | raw length => exact (take length).map (.take length) _

theorem header : Agrees GuardedReadM.header (Header.read : ReadM SaveError UInt16) := by
  rw [Header.read_eq]
  exact word32.bind .word32 fun _ => guarded (word16.bind .word16 fun _ => guarded (Agrees.pure _))

theorem creature : Agrees GuardedReadM.creature Snapshot.readCreature :=
  real32.bind .real32 fun _ => real32.bind .real32 fun _ => real32.bind .real32 fun _ =>
    word32.bind .word32 fun length => (take length.toNat).bind (.take length.toNat) fun _ =>
      Agrees.pure _

theorem counted {item' : GuardedReadM α} {item : ReadM SaveError α}
    {check' : Nat → GuardedReadM Unit} {check : Nat → ReadM SaveError Unit}
    (hitem : Agrees item' item) (sitem : item.Streaming) (hcheck : ∀ n, Agrees (check' n) (check n))
    (scheck : ∀ n, (check n).Streaming) (length : Nat) :
    Agrees (GuardedReadM.counted length item' check')
      (Snapshot.readCounted Snapshot.ensureRoom length item check) :=
  word32.bind .word32 fun count => (hcheck count.toNat).bind (scheck count.toNat) fun _ =>
    (ensureRoom count.toNat length).bind (.ensureRoom count.toNat length) fun _ =>
      hitem.times sitem count.toNat

theorem checkCellCount (e : Extent) (found : Nat) :
    Agrees (GuardedReadM.checkCellCount e found) (Snapshot.checkCellCount e found) :=
  guarded (Agrees.pure ())

theorem snapshot : Agrees GuardedReadM.snapshot Snapshot.read :=
  text.bind .text fun _ => word64.bind .word64 fun _ => word32.bind .word32 fun _ =>
    word32.bind .word32 fun _ => word32.bind .word32 fun _ => real64.bind .real64 fun _ =>
      real64.bind .real64 fun _ =>
        (counted real64 .real64 (checkCellCount _) (.checkCellCount _) _).bind
          (.readCounted .real64 (.checkCellCount _) _) fun _ =>
            (counted creature .readCreature (fun _ => Agrees.pure ()) (fun _ => .pure ()) _).bind
              (.readCounted .readCreature (fun _ => .pure ()) _) fun _ => Agrees.pure _

end Agrees

end GuardedReadM

/-! ### Attempts in any order -/

/-- What can be asked of a byte string. -/
inductive ReadOp where
  | value (k : Kind)
  | header
  | snapshot

/-- What an attempt gives. -/
inductive Reading where
  | value (v : Value)
  | version (n : UInt16)
  | snapshot (s : Snapshot)

namespace ReadOp

def read : ReadOp → ReadM SaveError Reading
  | value k => Reading.value <$> ReadM.value k
  | header => Reading.version <$> Header.read
  | snapshot => Reading.snapshot <$> Snapshot.read

/-- The same under guard. -/
def guarded : ReadOp → GuardedReadM Reading
  | value k => Reading.value <$> GuardedReadM.value k
  | header => Reading.version <$> GuardedReadM.header
  | snapshot => Reading.snapshot <$> GuardedReadM.snapshot

/-- The cursor after an attempt, successful or not. -/
def after (c : Cursor) (op : ReadOp) : Cursor := endOf (op.read c)

/-- The position after an attempt under guard. -/
def guardedAfter (bytes : Octets) (p : Nat) (op : ReadOp) : Guarded Nat := do
  return endOf (← op.guarded bytes p)

theorem streaming (op : ReadOp) : op.read.Streaming := by
  cases op with
  | value k => exact (ReadM.Streaming.value k).map _
  | header => exact ReadM.Streaming.readHeader.map _
  | snapshot => exact ReadM.Streaming.readSnapshot.map _

theorem agrees (op : ReadOp) : op.guarded.Agrees op.read := by
  cases op with
  | value k => exact (GuardedReadM.Agrees.value k).map (.value k) _
  | header => exact GuardedReadM.Agrees.header.map .readHeader _
  | snapshot => exact GuardedReadM.Agrees.snapshot.map .readSnapshot _

/-- **One attempt** leads on inside the bytes, under guard to the same position. -/
theorem after_within (op : ReadOp) {bytes : Octets} {p : Nat} (hp : p ≤ bytes.length) :
    ∃ p', p ≤ p' ∧ p' ≤ bytes.length ∧ after (within bytes p) op = within bytes p'
      ∧ (bytes.length < UInt64.size → guardedAfter bytes p op = .ok p') := by
  obtain ⟨p', hstart, hend, hafter⟩ := op.streaming.stays_within hp
  refine ⟨p', hstart, hend, hafter, fun hbytes => ?_⟩
  rw [guardedAfter, op.agrees bytes p hbytes hp, Guarded.ok_bind]
  have offset : (endOf (op.read (within bytes p))).offset = p' := by
    rw [hafter]
    rfl
  rw [← offset]
  cases op.read (within bytes p) with
  | ok a c => rfl
  | error e c => rfl

/-- **Any sequence of attempts** does. -/
theorem foldl_after_within (ops : List ReadOp) {bytes : Octets} {p : Nat}
    (hp : p ≤ bytes.length) :
    ∃ p', p' ≤ bytes.length ∧ ops.foldl after (within bytes p) = within bytes p'
      ∧ (bytes.length < UInt64.size → ops.foldlM (guardedAfter bytes) p = .ok p') := by
  induction ops generalizing p with
  | nil => exact ⟨p, hp, rfl, fun _ => rfl⟩
  | cons op ops ih =>
      obtain ⟨p₁, -, hp₁, hafter, hguarded⟩ := op.after_within hp
      obtain ⟨p', hp', hrest, hrestGuarded⟩ := ih hp₁
      refine ⟨p', hp', ?_, fun hbytes => ?_⟩
      · rw [List.foldl_cons, hafter, hrest]
      · rw [List.foldlM_cons, hguarded hbytes, Guarded.ok_bind, hrestGuarded hbytes]

/-- A value is read whole. -/
theorem read_value_of_le {k : Kind} {bytes : Octets} {p : Nat} (hp : p ≤ bytes.length)
    (h : p + k.widthAt bytes p ≤ bytes.length) :
    (value k).read (within bytes p)
      = .ok (.value (k.valueOf (slice p (k.widthAt bytes p) bytes)))
          (within bytes (p + k.widthAt bytes p)) := by
  have there : k.widthAt bytes p ≤ bytes.length - p := by omega
  show EStateM.map Reading.value (ReadM.value k) _ = _
  rw [EStateM.map, ReadM.value_within, if_pos there]

/-- A value of which bytes are missing is not read at all. -/
theorem read_value_of_lt {k : Kind} {bytes : Octets} {p : Nat} (hp : p ≤ bytes.length)
    (h : bytes.length < p + k.widthAt bytes p) :
    ∃ offset needed available,
      (value k).read (within bytes p)
        = .error (.undecodable (.pastEnd offset needed available)) (within bytes p)
      ∧ available < needed ∧ offset + available = bytes.length := by
  have short : bytes.length - p < k.widthAt bytes p := by omega
  obtain ⟨inside, missing⟩ := Kind.missingAt_spec hp short
  refine ⟨_, _, _, ?_, missing, Nat.add_sub_of_le inside⟩
  show EStateM.map Reading.value (ReadM.value k) _ = _
  rw [EStateM.map, ReadM.value_within, if_neg (Nat.not_le.mpr short)]
  rfl

end ReadOp

/-- **Reading never leaves the bytes.** After any attempts in any order, successful or not,
the cursor stands at a position in the bytes, and each further attempt leads to one that is
not before it. Under guard every attempt gives the same, so that what is left is never
below zero and no end is beyond 64 bits or the bytes. A value is decided at its position: if
its bytes are all there, it is what they stand for and the cursor moves behind them;
otherwise the cursor stays, and the report names a place from which fewer bytes are left up
to the end than are needed there. -/
theorem reading_stays_within (bytes : Octets) (ops : List ReadOp) :
    ∃ p, p ≤ bytes.length ∧ ops.foldl ReadOp.after (.start bytes) = within bytes p
      ∧ (∀ op : ReadOp, ∃ p', p ≤ p' ∧ p' ≤ bytes.length
          ∧ ReadOp.after (within bytes p) op = within bytes p')
      ∧ (bytes.length < UInt64.size →
          ops.foldlM (ReadOp.guardedAfter bytes) 0 = .ok p
          ∧ ∀ op : ReadOp,
              op.guarded bytes p = .ok (GuardedReadM.positioned (op.read (within bytes p))))
      ∧ ∀ k : Kind,
          let width := k.widthAt bytes p
          (p + width ≤ bytes.length →
            (ReadOp.value k).read (within bytes p)
              = .ok (.value (k.valueOf (slice p width bytes))) (within bytes (p + width)))
          ∧ (bytes.length < p + width →
              ∃ offset needed available,
                (ReadOp.value k).read (within bytes p)
                  = .error (.undecodable (.pastEnd offset needed available)) (within bytes p)
                ∧ available < needed ∧ offset + available = bytes.length) := by
  obtain ⟨p, hp, hcursor, hguarded⟩ := ReadOp.foldl_after_within ops (Nat.zero_le bytes.length)
  refine ⟨p, hp, hcursor, fun op => ?_, fun hbytes => ?_, fun k => ?_⟩
  · obtain ⟨p', hstart, hend, hafter, -⟩ := op.after_within hp
    exact ⟨p', hstart, hend, hafter⟩
  · exact ⟨hguarded hbytes, fun op => op.agrees bytes p hbytes hp⟩
  · exact ⟨ReadOp.read_value_of_le hp, ReadOp.read_value_of_lt hp⟩

/-- A text that lacks three of its five bytes stays unread, and so do more bytes than any
string has. A header is refused behind its first four bytes, and reading goes on from there:
the two bytes that are left make a word of two bytes, but not one of four. In a longer string
a text is read, and behind it words of four and of eight bytes; behind the latter, where no
second text can be read, a number. -/
theorem reading_stays_within_refusals :
    let bytes : Octets := [5, 0, 0, 0, 1, 2]
    let ops : List ReadOp := [.value .text, .value (.raw (UInt64.size - 1)), .header]
    let longer : Octets := [2, 0, 0, 0, 195, 169, 1, 2, 3, 4, 0, 0, 0, 128, 0, 0, 128, 63]
    ops.foldl ReadOp.after (.start bytes) = within bytes 4
      ∧ ops.foldlM (ReadOp.guardedAfter bytes) 0 = .ok 4
      ∧ (ReadOp.value .word16).read (within bytes 4)
          = .ok (.value (.word16 513)) (within bytes 6)
      ∧ (∃ offset needed available,
          (ReadOp.value .word32).read (within bytes 4)
            = .error (.undecodable (.pastEnd offset needed available)) (within bytes 4)
          ∧ available < needed ∧ offset + available = 6)
      ∧ (ReadOp.value .text).read (within longer 0)
          = .ok (.value (.text "é")) (within longer 6)
      ∧ (ReadOp.value .word32).read (within longer 6)
          = .ok (.value (.word32 67305985)) (within longer 10)
      ∧ (ReadOp.value .word64).read (within longer 6)
          = .ok (.value (.word64 9223372036922081793)) (within longer 14)
      ∧ (ReadOp.value .real32).read (within longer 14)
          = .ok (.value (.real32 ⟨1065353216⟩)) (within longer 18) := by
  intro bytes ops longer
  obtain ⟨p, -, hcursor, -, hguarded, hvalue⟩ := reading_stays_within bytes ops
  have refused : ops.foldl ReadOp.after (.start bytes) = within bytes 4 := by decide +kernel
  obtain rfl : p = 4 := congrArg Cursor.offset (hcursor.symm.trans refused)
  have hlonger : ∀ (before : List ReadOp) (q : Nat),
      before.foldl ReadOp.after (.start longer) = within longer q →
      ∀ k : Kind, q + k.widthAt longer q ≤ longer.length →
        (ReadOp.value k).read (within longer q)
          = .ok (.value (k.valueOf (slice q (k.widthAt longer q) longer)))
              (within longer (q + k.widthAt longer q)) := by
    intro before q hq k
    obtain ⟨q', -, hcursor', -, -, hvalue'⟩ := reading_stays_within longer before
    obtain rfl : q' = q := congrArg Cursor.offset (hcursor'.symm.trans hq)
    exact (hvalue' k).1
  refine ⟨refused, (hguarded (by decide)).1, (hvalue .word16).1 (by decide),
    (hvalue .word32).2 (by decide), ?_, ?_, ?_, ?_⟩
  · exact hlonger [] 0 rfl .text (by decide)
  · exact hlonger [.value .text] 6 (by decide +kernel) .word32 (by decide)
  · exact hlonger [.value .text] 6 (by decide +kernel) .word64 (by decide)
  · exact hlonger [.value .text, .value .word64, .value .text] 14 (by decide +kernel)
      .real32 (by decide)

end Thermoscape
