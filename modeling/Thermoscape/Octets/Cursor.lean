import Thermoscape.Octets.Builder
import Thermoscape.Octets.DecodeError

/-!
# Thermoscape.Octets.Cursor

Reading typed values from a byte string.

A cursor is how far reading has come and what is left to read. A reader is a
function on cursors that gives a value or an error *and, either way, the cursor
afterwards*: a caller may go on reading behind a failure, so where a failing
reader leaves the cursor is part of what it does. All reading goes through
`take`, which either gives exactly the bytes asked for or fails without moving.
-/

namespace Thermoscape

/-- A place in a byte string. -/
structure Cursor where
  /-- The number of bytes read so far. -/
  offset : Nat
  /-- The bytes not read yet. -/
  rest : Octets
  deriving DecidableEq

namespace Cursor

def start (bs : Octets) : Cursor := ⟨0, bs⟩

/-- The number of bytes not read yet. -/
def remaining (c : Cursor) : Nat := c.rest.length

/-- The length of the whole byte string. -/
def total (c : Cursor) : Nat := c.offset + c.remaining

end Cursor

/-- A reader of `α`, which keeps its cursor also when it fails. -/
abbrev ReadM (ε α : Type) := EStateM ε Cursor α

namespace ReadM

variable {ε α : Type}

/-- Runs a reader and goes back to where it began if it fails. -/
def atomic (r : ReadM ε α) : ReadM ε α := fun c =>
  match r c with
  | .ok a c' => .ok a c'
  | .error e _ => .error e c

/-- Reads `n` times and collects the values. -/
def times : (n : Nat) → ReadM ε α → ReadM ε (List α)
  | 0, _ => pure []
  | n + 1, r => do
    let a ← r
    let as ← times n r
    pure (a :: as)

variable [ReportsDecodeError ε]

/-- Fails because `needed` bytes are not there. -/
def shortOf (needed : Nat) : ReadM ε α := fun c =>
  .error (ReportsDecodeError.report (.pastEnd c.offset needed c.remaining)) c

/-- The next `n` bytes. -/
def take (n : Nat) : ReadM ε Octets := fun c =>
  let (bytes, rest) := c.rest.splitAt n
  if bytes.length = n then .ok bytes ⟨c.offset + n, rest⟩ else shortOf n c

/-- The number in the next `width` bytes. -/
def word (width : Nat) : ReadM ε Nat := LittleEndian.decode <$> take width

def word8 : ReadM ε UInt8 := UInt8.ofNat <$> word 1

def word16 : ReadM ε UInt16 := UInt16.ofNat <$> word 2

def word32 : ReadM ε UInt32 := UInt32.ofNat <$> word 4

def word64 : ReadM ε UInt64 := UInt64.ofNat <$> word 8

def real32 : ReadM ε Binary32 := Binary32.mk <$> word32

def real64 : ReadM ε Binary64 := Binary64.mk <$> word64

/-- The next truth value; every byte other than 0 is true. -/
def flag : ReadM ε Bool := (fun b => b != 0) <$> word8

/-- The next text: a length and that many bytes. When the bytes are not all
there, the length is not consumed either. -/
def text : ReadM ε String := atomic do
  let length ← word32
  Utf8.decode <$> take length.toNat

/-! ### Taking bytes -/

/-- Bytes that are there are taken, and nothing behind them is looked at. -/
theorem take_append (offset : Nat) (bytes rest : Octets) :
    (take bytes.length : ReadM ε Octets) ⟨offset, bytes ++ rest⟩
      = .ok bytes ⟨offset + bytes.length, rest⟩ := by
  simp [take]

/-- Asking for more than there is fails where the cursor stands. -/
theorem take_of_remaining_lt {n : Nat} {c : Cursor} (h : c.remaining < n) :
    (take n : ReadM ε Octets) c
      = .error (ReportsDecodeError.report (.pastEnd c.offset n c.remaining)) c := by
  have short : min n c.rest.length ≠ n := by
    rw [Cursor.remaining] at h
    omega
  simp [take, shortOf, short]

end ReadM

end Thermoscape
