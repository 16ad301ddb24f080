import Thermoscape.Field.Extent
import Thermoscape.Octets.DecodeError
import Thermoscape.Storage.Disk

/-!
# Thermoscape.Snapshot.Error

Why a snapshot could not be saved, loaded or restored, and the wording of it.
-/

namespace Thermoscape

inductive SaveError where
  /-- The bytes are not a snapshot. -/
  | undecodable (cause : DecodeError)
  /-- The file could not be reached. -/
  | file (path : String) (fault : FileFault)
  /-- The number of temperatures is not that of the cells. -/
  | cellCount (expected found : Nat)
  /-- The snapshot is of a field of another size. -/
  | extentMismatch (snapshot grid : Extent)
  deriving DecidableEq

instance : ReportsDecodeError SaveError := ⟨.undecodable⟩

def Extent.text (e : Extent) : String := e.width.toNat.repr ++ "x" ++ e.height.toNat.repr

def SaveError.message : SaveError → String
  | undecodable cause => "failed to load game: " ++ cause.message
  | file path fault => "file error on " ++ path ++ ": " ++ fault.message
  | cellCount expected found =>
    "temperature count mismatch: expected " ++ expected.repr ++ ", found " ++ found.repr
  | extentMismatch snapshot grid =>
    "snapshot is " ++ snapshot.text ++ " but grid is " ++ grid.text

end Thermoscape
