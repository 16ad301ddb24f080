import Thermoscape.Proofs.Field.Stencil
import Thermoscape.Proofs.Snapshot.RoundTrip
import Thermoscape.Proofs.Snapshot.Safety

/-!
# Thermoscape.Proofs.Snapshot.Rebuilding

**A field made anew from a file has all that was saved, and the default rate.** Size,
ambient temperature and temperatures come back with every bit; stamps and pending values do
not, and no step looks at them. The rate is read by every step, and a snapshot has no place
for it.

So a field that was made with the default rate goes on from its file as it would have done
(`rebuild_keeps_all_but_rate`). Settings may give it any other rate between 0 and 1, and then
the first step after loading can lead elsewhere (`rebuild_loses_rate`).
-/

namespace Thermoscape.Grid

/-- Saves a field and makes a new one from the file. -/
def rebuild (name : String) (timestamp : UInt64) (time : Binary64) (g : Grid Binary64) :
    Except SaveError (Grid Binary64) := do
  let bytes ← (Snapshot.capture name timestamp g time).toBytes
  let s ← Snapshot.ofBytes bytes
  s.toGrid

/-- What comes back is a field of the default rate in which every temperature is forced. -/
theorem rebuild_eq {g : Grid Binary64} (hg : g.WellFormed) (hcount : g.extent.count ≤ maxCells)
    {name : String} (hname : (Utf8.encode name).length ≤ UInt32.size - 1) (timestamp : UInt64)
    (time : Binary64) :
    g.rebuild name timestamp time
      = .ok ((Grid.withAmbient g.extent g.ambient).setTemperatures g.temperatures) := by
  let s := Snapshot.capture name timestamp g time
  have fits : s.Fits := Snapshot.fits_capture hg hcount name timestamp time
  have saved := Snapshot.toBytes_eq fits.temperatures_eq
  have loaded := Snapshot.ofBytes_of_fits fits hname []
  rw [List.append_nil] at loaded
  have made := s.toGrid_eq
  rw [if_pos fits.temperatures_eq.symm] at made
  show (s.toBytes >>= fun bytes => Snapshot.ofBytes bytes >>= Snapshot.toGrid) = _
  rw [saved]
  show (Snapshot.ofBytes _ >>= Snapshot.toGrid) = _
  rw [loaded]
  exact made

/-- **A field made anew from its file has everything but the rate.** Whatever a field is made
from and whatever is done to it, if its cells can be counted in the file: saving, loading and
making a field succeed. The new field has the size, the ambient temperature and the
temperatures of the old one and the default rate, and goes on as the old one would at that
rate. So it has the rate of the old one exactly if that was made with the default rate, and
then both go on alike. -/
theorem rebuild_keeps_all_but_rate {o : Origin} {g₀ : Grid Binary64} (h : o.grid? = some g₀)
    (hcount : o.extent.count ≤ maxCells) (changes : List Change) {name : String}
    (hname : (Utf8.encode name).length ≤ UInt32.size - 1) (timestamp : UInt64) (time : Binary64) :
    let g := changes.foldl Grid.change g₀
    ∃ g₂, g.rebuild name timestamp time = .ok g₂
      ∧ g₂.extent = g.extent ∧ g₂.ambient = g.ambient ∧ g₂.temperatures = g.temperatures
      ∧ g₂.rate = defaultRate ∧ (g₂.rate = g.rate ↔ o.rate = defaultRate)
      ∧ (∀ ticks, (g₂.steps ticks).temperatures
          = ({ g with rate := defaultRate }.steps ticks).temperatures)
      ∧ (o.rate = defaultRate →
          ∀ ticks, (g₂.steps ticks).temperatures = (g.steps ticks).temperatures) := by
  intro g
  have sound : g.Sound o (lastTick changes) := (Sound.of_origin h).changes changes
  have blank := wellFormed_initial g.extent g.ambient defaultRate
  have rate : ((Grid.withAmbient g.extent g.ambient).setTemperatures g.temperatures).rate
      = defaultRate := rate_setTemperatures _ _
  have temperatures := temperatures_setTemperatures blank sound.wellFormed.length_temperatures
  refine ⟨_, rebuild_eq sound.wellFormed (sound.extent_eq ▸ hcount) hname timestamp time,
    extent_setTemperatures _ _, ambient_setTemperatures _ _, temperatures, rate, ?_, fun ticks => ?_,
    fun hrate ticks => ?_⟩
  · rw [rate, sound.rate_eq, eq_comm]
  · have slowed : { g with rate := defaultRate }.WellFormed := sound.wellFormed
    exact temperatures_steps_congr (blank.setTemperatures _) slowed (extent_setTemperatures _ _)
      rate temperatures ticks
  · exact temperatures_steps_congr (blank.setTemperatures _) sound.wellFormed
      (extent_setTemperatures _ _) (rate.trans (hrate.symm.trans sound.rate_eq.symm)) temperatures
      ticks

/-- A field with a NaN and a negative zero that was made without settings is rebuilt from a
file named "é" and goes on as it would have done. -/
theorem rebuild_keeps_all_but_rate_default :
    let o : Origin := .withAmbient ⟨3, 1⟩ .negativeZero
    let g := [Change.force 0 0 ⟨0x7ff0000000000001⟩, .step 1, .force 2 0 .negativeZero].foldl
      Grid.change (Grid.withAmbient ⟨3, 1⟩ .negativeZero)
    o.grid? = some (Grid.withAmbient ⟨3, 1⟩ .negativeZero) ∧ o.extent.count ≤ maxCells
      ∧ (Utf8.encode "é").length ≤ UInt32.size - 1
      ∧ ∃ g₂, g.rebuild "é" 7 .one = .ok g₂ ∧ g₂.temperatures = g.temperatures ∧ g₂.rate = g.rate
        ∧ ∀ ticks, (g₂.steps ticks).temperatures = (g.steps ticks).temperatures := by
  intro o g
  have made : o.grid? = some (Grid.withAmbient ⟨3, 1⟩ .negativeZero) := rfl
  have hcount : o.extent.count ≤ maxCells := by decide
  have hname : (Utf8.encode "é").length ≤ UInt32.size - 1 := by decide
  obtain ⟨g₂, hg₂, -, -, temperatures, -, rate, -, later⟩ :=
    rebuild_keeps_all_but_rate made hcount _ hname 7 .one
  exact ⟨made, hcount, hname, g₂, hg₂, temperatures, rate.mpr rfl, later rfl⟩

/-- **The rate is lost.** Two cells with temperatures 0 and 1 and a rate of one half meet in
the middle in one step. Rebuilt from a file they have the default rate and do not. -/
theorem rebuild_loses_rate :
    let c : Config :=
      ⟨⟨2, 1⟩, defaultAmbient, .half, by decide, by decide, by decide, by decide, by decide⟩
    let g := [Change.force 0 0 .zero, .force 1 0 .one].foldl Grid.change (Grid.ofConfig c)
    (g.step 1).temperatures = [.half, .half]
      ∧ ∃ g₂, g.rebuild "" 0 .zero = .ok g₂ ∧ g₂.temperatures = g.temperatures
        ∧ g₂.rate ≠ g.rate ∧ (g₂.step 1).temperatures ≠ (g.step 1).temperatures := by
  intro c g
  have sound : g.Sound (.config c) 0 := (Sound.of_origin (o := .config c) rfl).changes _
  have met : (g.step 1).temperatures = [.half, .half] := by decide +kernel
  have hcount : g.extent.count ≤ maxCells := sound.extent_eq ▸ c.count_le
  have hname : (Utf8.encode "").length ≤ UInt32.size - 1 := by decide
  refine ⟨met, _, rebuild_eq sound.wellFormed hcount hname 0 .zero, ?_, ?_, ?_⟩
  · decide +kernel
  · decide +kernel
  · rw [met]
    decide +kernel

end Thermoscape.Grid
