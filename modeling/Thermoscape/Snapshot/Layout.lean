import Thermoscape.Snapshot.Basic

/-!
# Thermoscape.Snapshot.Layout

The bytes of a snapshot, behind the common header:

```text
name          text
timestamp     64-bit word
version       32-bit word
width, height 32-bit words
time          double
ambient       double
count         32-bit word, then that many doubles
creatures     32-bit word, then that many of
                x, y, energy as singles, a 32-bit word, that many bytes
```

The number of temperatures is checked against the two sides as soon as it is
known, before any temperature is read. A count is also checked against the
bytes that are left, given the least that one item takes, so that no count
makes the reader prepare for more items than the bytes could hold.
-/

namespace Thermoscape

/-! ### Writing -/

def Creature.write (b : Builder) (c : Creature) : Builder :=
  ((((b.real32 c.x).real32 c.y).real32 c.energy).word32 (UInt32.ofNat c.dna.length)).raw c.dna

namespace Snapshot

/-- Appends a snapshot without a header. Nothing is checked. -/
def write (b : Builder) (s : Snapshot) : Builder :=
  let b := ((b.text s.name).word64 s.timestamp).word32 s.formatVersion
  let b := ((b.word32 s.extent.width).word32 s.extent.height).real64 s.time
  let b := (b.real64 s.ambient).word32 (UInt32.ofNat s.temperatures.length)
  let b := s.temperatures.foldl Builder.real64 b
  let b := b.word32 (UInt32.ofNat s.creatures.length)
  s.creatures.foldl Creature.write b

/-- The bytes of a snapshot without a header. -/
def payload (s : Snapshot) : Octets := (s.write .empty).toOctets

/-- The bytes of a snapshot behind a header of any version. Nothing is checked. -/
def toBytesAs (version : UInt16) (s : Snapshot) : Octets :=
  (s.write (Header.write .empty version)).toOctets

/-- The bytes of a snapshot with a temperature for every cell. -/
def toBytes (s : Snapshot) : Except SaveError Octets := do
  s.validate
  return Header.enclose s.write

/-! ### Reading -/

/-- The most that a count of bytes can be. -/
def maxByteCount : Nat := UInt64.size - 1

/-- Fails unless `count` items of at least `itemLength` bytes may be left. -/
def ensureRoom (count itemLength : Nat) : ReadM SaveError Unit := do
  let needed := min (count * itemLength) maxByteCount
  if (← get).remaining < needed then ReadM.shortOf needed

def temperatureLength : Nat := 8

/-- The number of bytes of a creature without genome. -/
def leastCreatureLength : Nat := 16

def readCreature : ReadM SaveError Creature := do
  let x ← ReadM.real32
  let y ← ReadM.real32
  let energy ← ReadM.real32
  let length ← ReadM.word32
  let dna ← ReadM.take length.toNat
  return ⟨x, y, energy, dna⟩

/-- The next count and that many items, with a check that they may all be
there. -/
def readCounted {α : Type} (room : Nat → Nat → ReadM SaveError Unit) (itemLength : Nat)
    (item : ReadM SaveError α) (check : Nat → ReadM SaveError Unit) : ReadM SaveError (List α) := do
  let count ← ReadM.word32
  check count.toNat
  room count.toNat itemLength
  ReadM.times count.toNat item

/-- Refuses a number of temperatures that is not that of the cells. -/
def checkCellCount (e : Extent) (found : Nat) : ReadM SaveError Unit :=
  if found ≠ e.count then throw (.cellCount e.count found) else pure ()

/-- The next snapshot, given how room for counted items is checked. -/
def readWith (room : Nat → Nat → ReadM SaveError Unit) : ReadM SaveError Snapshot := do
  let name ← ReadM.text
  let timestamp ← ReadM.word64
  let formatVersion ← ReadM.word32
  let width ← ReadM.word32
  let height ← ReadM.word32
  let time ← ReadM.real64
  let ambient ← ReadM.real64
  let extent : Extent := ⟨width, height⟩
  let temperatures ← readCounted room temperatureLength ReadM.real64 (checkCellCount extent)
  let creatures ← readCounted room leastCreatureLength readCreature fun _ => pure ()
  return { name, timestamp, formatVersion, extent, time, ambient, temperatures, creatures }

def read : ReadM SaveError Snapshot := readWith ensureRoom

end Snapshot

/-- A snapshot together with the version that its header declared. -/
structure Loaded where
  version : UInt16
  snapshot : Snapshot
  deriving DecidableEq

namespace Loaded

def read : ReadM SaveError Loaded := do
  let (version, snapshot) ← Header.readEnclosed fun _ => Snapshot.read
  return ⟨version, snapshot⟩

/-- The snapshot at the beginning of a byte string; what follows it is not
looked at. -/
def ofBytes (bytes : Octets) : Except SaveError Loaded :=
  match read (Cursor.start bytes) with
  | .ok loaded _ => .ok loaded
  | .error e _ => .error e

end Loaded

def Snapshot.ofBytes (bytes : Octets) : Except SaveError Snapshot :=
  Loaded.snapshot <$> Loaded.ofBytes bytes

end Thermoscape
