import Thermoscape.Octets.Cursor

/-!
# Thermoscape.Octets.Header

The header in front of every saved payload: a word that marks the format and
the version of the format that the payload was written in.

Reading accepts the current version and every earlier one. The mark is checked
before the version is looked at, and a failing check leaves the cursor behind
the word it failed on.
-/

namespace Thermoscape.Header

def magic : UInt32 := 0x45564F53

/-- The version that is written, and the latest that is read. -/
def currentVersion : UInt16 := 1

def length : Nat := 6

/-- Appends a header that declares the given version. -/
def write (b : Builder) (version : UInt16) : Builder := (b.word32 magic).word16 version

/-- A buffer that holds a header of the current version. -/
def opened : Builder := write .empty currentVersion

/-- A payload behind a header of the current version. -/
def enclose (payload : Builder → Builder) : Octets := (payload opened).toOctets

variable {ε α : Type} [ReportsDecodeError ε]

/-- Reads a header and gives its version. -/
def read : ReadM ε UInt16 := do
  let found ← ReadM.word32
  if found ≠ magic then
    throw (ReportsDecodeError.report (.wrongMagic found))
  let version ← ReadM.word16
  if currentVersion < version then
    throw (ReportsDecodeError.report (.newerVersion version currentVersion))
  return version

/-- Reads a header and then a payload, which is told the version. -/
def readEnclosed (payload : UInt16 → ReadM ε α) : ReadM ε (UInt16 × α) := do
  let version ← read
  let a ← payload version
  return (version, a)

@[simp] theorem size_opened : opened.size = length := rfl

end Thermoscape.Header
