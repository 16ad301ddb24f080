import Thermoscape.Snapshot.Layout

/-!
# Thermoscape.World.Event

What is reported while worlds are saved and loaded. An event is what happened;
its level, its wording and its named values are read off it.
-/

namespace Thermoscape

inductive Level where
  | debug
  | info
  | warn
  deriving DecidableEq

def Level.name : Level → String
  | debug => "DEBUG"
  | info => "INFO"
  | warn => "WARN"

inductive Event where
  /-- A snapshot of an earlier version of the format was read. -/
  | olderVersion (version current : UInt16)
  /-- A snapshot names another version of the format than its header. -/
  | versionsDisagree (header : UInt16) (snapshot : UInt32)
  /-- A snapshot was turned into bytes. -/
  | encoded (name : String) (extent : Extent) (bytes : Nat)
  /-- A snapshot was read from bytes. -/
  | decoded (name : String) (extent : Extent) (creatures : Nat)
  | stored (path : String) (bytes : Nat)
  | fetched (path : String) (bytes : Nat)
  /-- A running world was saved. -/
  | saved (name : String) (tick : UInt64) (bytes : Nat)
  /-- A running world was set back to a snapshot. -/
  | restored (name : String) (time : Binary64)
  deriving DecidableEq

inductive EventValue where
  | text (s : String)
  | number (n : Nat)
  | seconds (t : Binary64)
  deriving DecidableEq

namespace Event

def level : Event → Level
  | olderVersion .. | versionsDisagree .. => .warn
  | encoded .. | decoded .. | stored .. | fetched .. => .debug
  | saved .. | restored .. => .info

def message : Event → String
  | olderVersion .. => "decoding older save version with current layout"
  | versionsDisagree .. => "record-level format version disagrees with envelope"
  | encoded .. => "encoded save"
  | decoded .. => "decoded save"
  | stored .. => "wrote save file"
  | fetched .. => "read save file"
  | saved .. => "saved simulation"
  | restored .. => "restored simulation"

def fields : Event → List (String × EventValue)
  | olderVersion version current =>
    [("version", .number version.toNat), ("current", .number current.toNat)]
  | versionsDisagree header snapshot =>
    [("envelope", .number header.toNat), ("record", .number snapshot.toNat)]
  | encoded name extent bytes =>
    [("save_name", .text name), ("width", .number extent.width.toNat),
      ("height", .number extent.height.toNat), ("bytes", .number bytes)]
  | decoded name extent creatures =>
    [("save_name", .text name), ("width", .number extent.width.toNat),
      ("height", .number extent.height.toNat), ("creatures", .number creatures)]
  | stored path bytes => [("path", .text path), ("bytes", .number bytes)]
  | fetched path bytes => [("path", .text path), ("bytes", .number bytes)]
  | saved name tick bytes =>
    [("name", .text name), ("tick", .number tick.toNat), ("bytes", .number bytes)]
  | restored name time => [("name", .text name), ("simulation_time", .seconds time)]

end Event

/-- What is to be said about the versions of a snapshot that was read: that the
header declares an earlier one, and that the snapshot names another one. -/
def Loaded.warnings (l : Loaded) : List Event :=
  (if l.version < Header.currentVersion then
      [.olderVersion l.version Header.currentVersion] else [])
    ++ (if l.snapshot.formatVersion ≠ l.version.toUInt32 then
      [.versionsDisagree l.version l.snapshot.formatVersion] else [])

end Thermoscape
