import Thermoscape.World.Event

/-!
# Thermoscape.World.Host

What a world is saved with: a clock to date snapshots, a disk to keep them on
and a log of what happened.

An action that fails keeps what it has done to the log up to then; the disk
changes only when a file has been written.
-/

namespace Thermoscape

/-- The surroundings of a world. -/
structure Host where
  /-- The reading of the clock, in nanoseconds since 1970. -/
  clock : UInt64
  disk : Disk := .empty
  /-- What happened, oldest first. -/
  log : List Event := []
  deriving DecidableEq

abbrev HostM (α : Type) := EStateM SaveError Host α

/-- The reading of a clock that is `nanoseconds` past the beginning of 1970. It
stops at both ends of what a reading can be. -/
def clockReading (nanoseconds : Int) : UInt64 :=
  UInt64.ofNat (min nanoseconds.toNat (UInt64.size - 1))

namespace Host

def report (events : List Event) : HostM Unit :=
  modify fun h => { h with log := h.log ++ events }

/-- A snapshot of a field, dated by the clock. -/
def snapshot (name : String) (g : Grid Binary64) (time : Binary64) : HostM Snapshot := do
  return Snapshot.capture name (← get).clock g time

/-- The bytes of a snapshot of a field. -/
def save (name : String) (g : Grid Binary64) (time : Binary64) : HostM Octets := do
  let s ← snapshot name g time
  let bytes ← ofExcept s.toBytes
  report [.encoded name s.extent bytes.length]
  return bytes

/-- The snapshot in a byte string. -/
def load (bytes : Octets) : HostM Snapshot := do
  let l ← ofExcept (Loaded.ofBytes bytes)
  report l.warnings
  report [.decoded l.snapshot.name l.snapshot.extent l.snapshot.creatures.length]
  return l.snapshot

def store (path : String) (bytes : Octets) : HostM Unit := do
  match (← get).disk.write path bytes with
  | .ok disk =>
    modify fun h => { h with disk := disk }
    report [.stored path bytes.length]
  | .error fault => throw (.file path fault)

def fetch (path : String) : HostM Octets := do
  match (← get).disk.read path with
  | .ok bytes =>
    report [.fetched path bytes.length]
    return bytes
  | .error fault => throw (.file path fault)

end Host

end Thermoscape
