import Thermoscape.Number.Decimal

/-!
# Thermoscape.Octets.DecodeError

Why a byte string could not be decoded, and the wording of it.
-/

namespace Thermoscape

inductive DecodeError where
  /-- At `offset` a value needs more bytes than the string still has. -/
  | pastEnd (offset needed available : Nat)
  /-- The first word is not the mark of this format. -/
  | wrongMagic (found : UInt32)
  /-- The bytes were written by a later version of the format. -/
  | newerVersion (found current : UInt16)
  deriving DecidableEq

/-- A 32-bit word in hexadecimal, always with eight digits. -/
def hexWord (n : UInt32) : String := "0x" ++ String.ofList (paddedDigits 16 8 n.toNat)

def DecodeError.message : DecodeError → String
  | pastEnd offset needed available =>
    "read past end of buffer: needed " ++ needed.repr ++ " bytes at offset " ++ offset.repr
      ++ ", " ++ available.repr ++ " available"
  | wrongMagic found => "invalid file format: magic " ++ hexWord found
  | newerVersion found current =>
    "incompatible save version " ++ found.toNat.repr ++ " (newest supported is "
      ++ current.toNat.repr ++ ")"

/-- Error types that have a place for a decoding failure. Readers are written
once for all of them, so that a larger error type needs no conversions. -/
class ReportsDecodeError (ε : Type) where
  report : DecodeError → ε

instance : ReportsDecodeError DecodeError := ⟨id⟩

end Thermoscape
