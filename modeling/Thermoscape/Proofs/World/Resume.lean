import Thermoscape.Proofs.Snapshot.RoundTrip
import Thermoscape.Proofs.World.Run

/-!
# Thermoscape.Proofs.World.Resume

**A saved world resumes exactly.** Saving never fails for a world that has grown
from settings, and what is loaded from its bytes is the snapshot that was taken.
Another world of the same size and rate that is set back to it goes on like the
saved one, bit for bit, for as long as both are treated alike.

The last part is a bisimulation. Two worlds are `Alike` when they agree in size,
rate, temperatures and time; by the stencil of a step nothing else that a world
carries has any influence on these, so that every move takes worlds that are alike
to worlds that are alike.
-/

namespace Thermoscape

/-! ### Worlds that go on alike -/

/-- The worlds agree in all that decides their further temperatures. -/
structure Simulation.Alike (a b : Simulation) : Prop where
  left_wellFormed : a.grid.WellFormed
  right_wellFormed : b.grid.WellFormed
  extent_eq : a.grid.extent = b.grid.extent
  rate_eq : a.grid.rate = b.grid.rate
  temperatures_eq : a.grid.temperatures = b.grid.temperatures
  time_eq : a.time = b.time

namespace Simulation

variable {a b : Simulation}

/-- **One move** keeps worlds alike. -/
theorem Alike.move (h : Alike a b) (m : Move) : Alike (a.move m) (b.move m) := by
  cases m with
  | step dt =>
      refine ⟨h.left_wellFormed.step _, h.right_wellFormed.step _, h.extent_eq, h.rate_eq, ?_, ?_⟩
      · show (a.grid.step _).temperatures = (b.grid.step _).temperatures
        rw [Grid.temperatures_step h.left_wellFormed, Grid.temperatures_step h.right_wellFormed,
          h.extent_eq, h.rate_eq, h.temperatures_eq]
      · show a.time + dt = b.time + dt
        rw [h.time_eq]
  | force x y t =>
      refine ⟨h.left_wellFormed.setTemperature x y t, h.right_wellFormed.setTemperature x y t,
        ?_, ?_, ?_, h.time_eq⟩
      · show (a.grid.setTemperature x y t).extent = (b.grid.setTemperature x y t).extent
        rw [Grid.extent_setTemperature, Grid.extent_setTemperature, h.extent_eq]
      · show (a.grid.setTemperature x y t).rate = (b.grid.setTemperature x y t).rate
        rw [Grid.rate_setTemperature, Grid.rate_setTemperature, h.rate_eq]
      · show (a.grid.setTemperature x y t).temperatures = (b.grid.setTemperature x y t).temperatures
        rw [Grid.temperatures_setTemperature, Grid.temperatures_setTemperature, h.extent_eq,
          h.temperatures_eq]

/-- **Any sequence of moves** keeps worlds alike. -/
theorem Alike.moves (h : Alike a b) (ms : List Move) : Alike (a.moves ms) (b.moves ms) := by
  induction ms generalizing a b with
  | nil => exact h
  | cons m ms ih => exact ih (h.move m)

/-- A move counts for both worlds or for neither. -/
theorem tick_move_sub (a b : Simulation) (m : Move) :
    (a.move m).tick - (b.move m).tick = a.tick - b.tick := by
  cases m with
  | step dt =>
      show (a.tick + 1) - (b.tick + 1) = a.tick - b.tick
      grind
  | force x y t => rfl

theorem tick_moves_sub (a b : Simulation) (ms : List Move) :
    (a.moves ms).tick - (b.moves ms).tick = a.tick - b.tick := by
  induction ms generalizing a b with
  | nil => rfl
  | cons m ms ih => exact (ih (a.move m) (b.move m)).trans (tick_move_sub a b m)

/-- A world that is set back to a snapshot of another one is like that one. -/
theorem alike_restored {name : String} {timestamp : UInt64} (ha : a.grid.WellFormed)
    (hb : b.grid.WellFormed) (hextent : b.grid.extent = a.grid.extent)
    (hrate : b.grid.rate = a.grid.rate) :
    Alike a (b.restored (Snapshot.capture name timestamp a.grid a.time)) := by
  have count : a.grid.temperatures.length = b.grid.extent.count := by
    rw [hextent]
    exact ha.length_temperatures
  exact {
    left_wellFormed := ha
    right_wellFormed := hb.setTemperatures _
    extent_eq := (hextent.symm).trans (b.grid.extent_setTemperatures _).symm
    rate_eq := (hrate.symm).trans (b.grid.rate_setTemperatures _).symm
    temperatures_eq := (Grid.temperatures_setTemperatures hb count).symm
    time_eq := rfl }

end Simulation

/-! ### Saving and loading -/

namespace Host

theorem save_eq_ok {name : String} {g : Grid Binary64} {time : Binary64} {h : Host}
    {bytes : Octets} (hbytes : (Snapshot.capture name h.clock g time).toBytes = .ok bytes) :
    Host.save name g time h
      = .ok bytes { h with log := h.log ++ [.encoded name g.extent bytes.length] } := by
  have unfolded : Host.save name g time h
      = (ofExcept (Snapshot.capture name h.clock g time).toBytes >>= fun bytes =>
          report [.encoded name g.extent bytes.length] >>= fun _ => pure bytes : HostM Octets) h :=
    rfl
  rw [unfolded, hbytes]
  rfl

/-- Loading succeeds when the bytes hold a snapshot, and reports it behind what is to be said
about its versions. -/
theorem load_eq_ok_log {bytes : Octets} {l : Loaded} (hl : Loaded.ofBytes bytes = .ok l)
    (h : Host) :
    Host.load bytes h = .ok l.snapshot { h with
      log := h.log ++ (l.warnings
        ++ [.decoded l.snapshot.name l.snapshot.extent l.snapshot.creatures.length]) } := by
  unfold Host.load
  rw [hl, ← List.append_assoc]
  rfl

theorem load_eq_ok {bytes : Octets} {l : Loaded} (hl : Loaded.ofBytes bytes = .ok l) (h : Host) :
    ∃ h', Host.load bytes h = .ok l.snapshot h' :=
  ⟨_, load_eq_ok_log hl h⟩

end Host

/-- Saving succeeds when there are bytes for the snapshot, and changes nothing but the
log. -/
theorem Session.save_eq_ok {name : String} {s : Session} {bytes : Octets}
    (hbytes : (Snapshot.capture name s.host.clock s.simulation.grid s.simulation.time).toBytes
      = .ok bytes) :
    ∃ log, Session.save name s = .ok bytes { s with host := { s.host with log := log } } := by
  have saved := Host.save_eq_ok hbytes
  have onHost_saved : onHost (Host.save name s.simulation.grid s.simulation.time) s
      = .ok bytes { s with host := { s.host with
          log := s.host.log ++ [.encoded name s.simulation.grid.extent bytes.length] } } := by
    unfold onHost
    rw [saved]
  refine ⟨s.host.log ++ [.encoded name s.simulation.grid.extent bytes.length]
    ++ [.saved name s.simulation.tick bytes.length], ?_⟩
  exact bind_eq_ok_iff.mpr ⟨s, s, rfl, bind_eq_ok_iff.mpr ⟨bytes, _, onHost_saved, rfl⟩⟩

/-! ### Resuming -/

/-- **A saved world resumes exactly.** Whatever has happened to a world that was made
from settings, it can be saved under any name that a length can announce, and what is
saved loads as the snapshot of the world. Every other world of the same size and rate,
whatever has happened to it, can be set back to that snapshot, and from then on both
have the same temperatures and the same time under all moves. -/
theorem Session.resume_exactly (c : Config) (h : Host) (acts : List Act) {name : String}
    (hname : (Utf8.encode name).length ≤ UInt32.size - 1) :
    let a := (Session.fresh c h).run acts
    ∃ bytes a', Session.save name a = .ok bytes a' ∧ a'.simulation = a.simulation
      ∧ ∀ host : Host, ∃ r host', Host.load bytes host = .ok r host'
        ∧ r = { name := name, timestamp := a.host.clock, formatVersion := 1
                extent := a.simulation.grid.extent, time := a.simulation.time
                ambient := a.simulation.grid.ambient
                temperatures := a.simulation.grid.temperatures, creatures := [] }
        ∧ ∀ (c₂ : Config) (h₂ : Host) (acts₂ : List Act),
          let b := (Session.fresh c₂ h₂).run acts₂
          b.simulation.grid.extent = a.simulation.grid.extent →
          b.simulation.grid.rate = a.simulation.grid.rate →
          ∃ b', Session.restore r b = .ok () b'
            ∧ ∀ ms : List Move,
              let x := a.simulation.moves ms
              let y := b'.simulation.moves ms
              x.grid.extent = y.grid.extent ∧ x.grid.temperatures = y.grid.temperatures
                ∧ x.time = y.time ∧ x.tick - y.tick = a.simulation.tick - b.simulation.tick := by
  intro a
  have follows : a.simulation.Follows c := (Simulation.Follows.ofConfig c).run (s := fresh c h) acts
  -- The settings bound the number of cells, so that a file can announce it.
  have hcount : a.simulation.grid.extent.count ≤ maxCells := follows.extent_eq ▸ c.count_le
  let r := Snapshot.capture name a.host.clock a.simulation.grid a.simulation.time
  have fits : r.Fits := Snapshot.fits_capture follows.wellFormed hcount name a.host.clock _
  have hbytes := Snapshot.toBytes_eq fits.temperatures_eq
  obtain ⟨log, hsave⟩ := Session.save_eq_ok hbytes
  refine ⟨_, _, hsave, rfl, fun host => ?_⟩
  have hread := Snapshot.loaded_eq_of_crosses fits hname (Nat.le_refl _)
    (Cursor.crosses_of_append 0 (Header.layout Header.currentVersion ++ r.payload) [])
  rw [List.append_nil] at hread
  obtain ⟨host', hload⟩ := Host.load_eq_ok (Loaded.ofBytes_eq_ok_iff.mpr ⟨_, hread⟩) host
  refine ⟨r, host', hload, rfl, fun c₂ h₂ acts₂ => ?_⟩
  intro b hextent hrate
  have follows₂ : b.simulation.Follows c₂ :=
    (Simulation.Follows.ofConfig c₂).run (s := fresh c₂ h₂) acts₂
  -- What the snapshot does not hold, stamps and ticks and pending values, is of no influence.
  have alike : Simulation.Alike a.simulation (b.simulation.restored r) :=
    Simulation.alike_restored follows.wellFormed follows₂.wellFormed hextent hrate
  refine ⟨_, restore_eq_ok fits.temperatures_eq.symm hextent.symm, fun ms => ?_⟩
  have later := alike.moves ms
  exact ⟨later.extent_eq, later.temperatures_eq, later.time_eq, Simulation.tick_moves_sub _ _ ms⟩

/-- Two cells side by side, with the other settings as they are by default. -/
def Config.pair : Config where
  extent := ⟨2, 1⟩
  ambient := defaultAmbient
  rate := defaultRate
  width_pos := by decide
  height_pos := by decide
  count_le := by decide
  ambient_finite := by decide
  rate_inUnitInterval := by decide

/-- A heated pair of cells that has made a step is saved as "é"; an untouched pair is
set back to it, and both make the same further step. -/
theorem Session.resume_exactly_pair :
    let a := (Session.fresh Config.pair ⟨0, .empty, []⟩).run
      [.move (.force 0 0 .two), .move (.step .one), .save "é", .elsewhere 7 .empty]
    let b := Session.fresh Config.pair ⟨0, .empty, []⟩
    (Utf8.encode "é").length ≤ UInt32.size - 1
      ∧ ∃ bytes a' r host' b', Session.save "é" a = .ok bytes a'
        ∧ Host.load bytes b.host = .ok r host' ∧ r.name = "é" ∧ r.timestamp = 7
        ∧ Session.restore r b = .ok () b'
        ∧ (a.simulation.step .half).grid.temperatures = (b'.simulation.step .half).grid.temperatures
        ∧ (a.simulation.step .half).time = (b'.simulation.step .half).time := by
  intro a b
  have follows : a.simulation.Follows Config.pair :=
    (Simulation.Follows.ofConfig Config.pair).run (s := fresh Config.pair ⟨0, .empty, []⟩) _
  have hname : (Utf8.encode "é").length ≤ UInt32.size - 1 := by decide
  obtain ⟨bytes, a', hsave, -, hload⟩ := Session.resume_exactly Config.pair ⟨0, .empty, []⟩
    [.move (.force 0 0 .two), .move (.step .one), .save "é", .elsewhere 7 .empty] hname
  obtain ⟨r, host', hr, rfl, hrestore⟩ := hload b.host
  obtain ⟨b', hb', alike⟩ := hrestore Config.pair ⟨0, .empty, []⟩ []
    follows.extent_eq.symm follows.rate_eq.symm
  obtain ⟨-, htemperatures, htime, -⟩ := alike [.step .half]
  exact ⟨hname, bytes, a', _, host', b', hsave, hr, rfl, rfl, hb', htemperatures, htime⟩

end Thermoscape
