import Thermoscape.Field.Extent
import Thermoscape.Number.Decimal

/-!
# Thermoscape.Field.Settings

What a field is made from, given setting by setting and checked at the end.

Settings may come in any order and be repeated; the last one of a kind counts.
The ambient temperature and the rate have defaults, the two sides have not. The
checks are made in a fixed order and the first that fails is reported, so a
`Config` is always a field that can be built, saved and stepped.
-/

namespace Thermoscape

inductive Side where
  | width
  | height
  deriving DecidableEq

def Side.name : Side → String
  | width => "width"
  | height => "height"

inductive Setting where
  | width (n : UInt32)
  | height (n : UInt32)
  | ambient (t : Binary64)
  | rate (r : Binary64)
  deriving DecidableEq

inductive ConfigError where
  | missing (side : Side)
  | empty (side : Side)
  | tooManyCells (extent : Extent)
  | ambientNotFinite (value : Binary64)
  | rateOutOfRange (value : Binary64)
  deriving DecidableEq

def ConfigError.message : ConfigError → String
  | missing side => side.name ++ " is required"
  | empty side => side.name ++ " must be at least 1"
  | tooManyCells extent =>
    "grid " ++ extent.width.toNat.repr ++ "x" ++ extent.height.toNat.repr
      ++ " exceeds u32::MAX cells"
  | ambientNotFinite value => "ambient temperature must be finite, got " ++ value.text
  | rateOutOfRange value => "diffusion rate must be in (0, 1), got " ++ value.text

/-- 20 degrees. -/
def defaultAmbient : Binary64 := ⟨0x4034000000000000⟩

/-- One twentieth, rounded to nearest. -/
def defaultRate : Binary64 := ⟨0x3fa999999999999a⟩

/-- The most cells of a field: what a count in a saved field can hold. -/
def maxCells : Nat := UInt32.size - 1

/-- The settings given so far. -/
structure Draft where
  width : Option UInt32 := none
  height : Option UInt32 := none
  ambient : Binary64 := defaultAmbient
  rate : Binary64 := defaultRate
  deriving DecidableEq

/-- Settings that describe a field. -/
structure Config where
  extent : Extent
  ambient : Binary64
  rate : Binary64
  width_pos : 0 < extent.width
  height_pos : 0 < extent.height
  count_le : extent.count ≤ maxCells
  ambient_finite : ambient.isFinite = true
  rate_inUnitInterval : rate.inUnitInterval = true

namespace Draft

/-- Adds a setting, in place of an earlier one of its kind. -/
def set (d : Draft) : Setting → Draft
  | .width n => { d with width := some n }
  | .height n => { d with height := some n }
  | .ambient t => { d with ambient := t }
  | .rate r => { d with rate := r }

/-- The draft that a list of settings leads to. -/
def ofSettings (settings : List Setting) : Draft := settings.foldl set {}

/-- A side that has been given, or the complaint that it has not. -/
def side (s : Side) (given : Option UInt32) : Except ConfigError UInt32 :=
  match given with
  | some n => .ok n
  | none => .error (.missing s)

def build (d : Draft) : Except ConfigError Config := do
  let width ← side .width d.width
  let height ← side .height d.height
  let extent : Extent := ⟨width, height⟩
  if hw : 0 < extent.width then
    if hh : 0 < extent.height then
      if hc : extent.count ≤ maxCells then
        if ha : d.ambient.isFinite = true then
          if hr : d.rate.inUnitInterval = true then
            return ⟨extent, d.ambient, d.rate, hw, hh, hc, ha, hr⟩
          else throw (.rateOutOfRange d.rate)
        else throw (.ambientNotFinite d.ambient)
      else throw (.tooManyCells extent)
    else throw (.empty .height)
  else throw (.empty .width)

end Draft

/-- The field settings that a list of settings describes. -/
def Config.ofSettings (settings : List Setting) : Except ConfigError Config :=
  (Draft.ofSettings settings).build

end Thermoscape
