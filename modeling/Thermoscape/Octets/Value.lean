import Thermoscape.Octets.Cursor

/-!
# Thermoscape.Octets.Value

The typed values of the wire format as data, so that sequences of them can be
written and read back as lists. A `Value` knows how it is written; its `Kind`
says how it is read, which for raw bytes has to include their number because
they carry no length of their own.
-/

namespace Thermoscape

/-- A value that can be written by itself. -/
inductive Value where
  | word8 (n : UInt8)
  | word16 (n : UInt16)
  | word32 (n : UInt32)
  | word64 (n : UInt64)
  | real32 (x : Binary32)
  | real64 (x : Binary64)
  | flag (p : Bool)
  | text (s : String)
  | raw (bytes : Octets)
  deriving DecidableEq

/-- What a reader has to know to read a value. -/
inductive Kind where
  | word8
  | word16
  | word32
  | word64
  | real32
  | real64
  | flag
  | text
  | raw (length : Nat)
  deriving DecidableEq

namespace Value

/-- How the value is read back. -/
def kind : Value → Kind
  | word8 _ => .word8
  | word16 _ => .word16
  | word32 _ => .word32
  | word64 _ => .word64
  | real32 _ => .real32
  | real64 _ => .real64
  | flag _ => .flag
  | text _ => .text
  | raw bytes => .raw bytes.length

end Value

def Builder.value (b : Builder) : Value → Builder
  | .word8 n => b.word8 n
  | .word16 n => b.word16 n
  | .word32 n => b.word32 n
  | .word64 n => b.word64 n
  | .real32 x => b.real32 x
  | .real64 x => b.real64 x
  | .flag p => b.flag p
  | .text s => b.text s
  | .raw bytes => b.raw bytes

def Builder.values (b : Builder) (vs : List Value) : Builder := vs.foldl Builder.value b

variable {ε : Type} [ReportsDecodeError ε]

def ReadM.value : Kind → ReadM ε Value
  | .word8 => Value.word8 <$> word8
  | .word16 => Value.word16 <$> word16
  | .word32 => Value.word32 <$> word32
  | .word64 => Value.word64 <$> word64
  | .real32 => Value.real32 <$> real32
  | .real64 => Value.real64 <$> real64
  | .flag => Value.flag <$> flag
  | .text => Value.text <$> text
  | .raw length => Value.raw <$> take length

/-- The next values of the given kinds, up to the first that fails. -/
def ReadM.values : List Kind → ReadM ε (List Value)
  | [] => pure []
  | k :: ks => do
    let v ← value k
    let vs ← values ks
    pure (v :: vs)

end Thermoscape
