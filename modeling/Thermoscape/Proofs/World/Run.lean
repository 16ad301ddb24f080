import Thermoscape.Proofs.Field.Stencil
import Thermoscape.Proofs.Snapshot.Transfer
import Thermoscape.World.Simulation

/-!
# Thermoscape.Proofs.World.Run

**Worlds over time.** A run is a list of actions, in any order, each of which may
fail: a failing action leaves the state that it leaves, and the run goes on from
there. Between the actions the surroundings may change by themselves, since a
clock moves on and files come and go.

`Session.perform_cases` says once what an action can do to the world: a move is made,
or temperatures and time are set back to a snapshot of the right size, or nothing
changes, as in every form of saving and in every failure. What holds of all runs is
then a short case analysis and an induction over the run (`Simulation.Follows.run`).
-/

namespace Thermoscape

/-! ### Runs -/

/-- What happens to a world between saving and restoring. -/
inductive Move where
  /-- A step that takes `dt` seconds. -/
  | step (dt : Binary64)
  /-- A temperature is forced. -/
  | force (x y : Int) (t : Binary64)
  deriving DecidableEq

namespace Simulation

/-- The world after a move. -/
def move (s : Simulation) : Move → Simulation
  | .step dt => s.step dt
  | .force x y t => s.setTemperature x y t

/-- The world after a sequence of moves. -/
def moves (s : Simulation) (ms : List Move) : Simulation := ms.foldl move s

end Simulation

/-- What happens to a world in its surroundings. -/
inductive Act where
  | move (m : Move)
  | snapshot (name : String)
  | save (name : String)
  | saveTo (name path : String)
  | restore (r : Snapshot)
  | restoreFrom (path : String)
  /-- The clock moves on, and files change. -/
  | elsewhere (clock : UInt64) (disk : Disk)

namespace Session

/-- A world that settings describe, in some surroundings. -/
def fresh (c : Config) (h : Host) : Session := ⟨Simulation.ofConfig c, h⟩

/-- The state after an action, whether it succeeds or fails. -/
def after {α : Type} (act : SessionM α) (s : Session) : Session :=
  match act s with
  | .ok _ s' => s'
  | .error _ s' => s'

/-- The state after an action of a run. -/
def perform (s : Session) : Act → Session
  | .move m => { s with simulation := s.simulation.move m }
  | .snapshot name => s.after (onHost (Host.snapshot name s.simulation.grid s.simulation.time))
  | .save name => s.after (Session.save name)
  | .saveTo name path => s.after (Session.saveTo name path)
  | .restore r => s.after (Session.restore r)
  | .restoreFrom path => s.after (Session.restoreFrom path)
  | .elsewhere clock disk => { s with host := { s.host with clock := clock, disk := disk } }

/-- The state after a run. -/
def run (s : Session) (acts : List Act) : Session := acts.foldl perform s

end Session

/-! ### What an action does to the world -/

/-- The world set back to a snapshot. -/
def Simulation.restored (s : Simulation) (r : Snapshot) : Simulation where
  grid := s.grid.setTemperatures r.temperatures
  tick := s.tick
  time := r.time

namespace Session

variable {α β : Type}

theorem after_bind (x : SessionM α) (f : α → SessionM β) (s : Session) :
    s.after (x >>= f)
      = match x s with
        | .ok a m => m.after (f a)
        | .error _ m => m := by
  show (match EStateM.bind x f s with | .ok _ s' => s' | .error _ s' => s') = _
  unfold EStateM.bind
  cases x s with
  | ok a m => rfl
  | error e m => rfl

/-- An action on the surroundings leaves the world alone. -/
@[simp] theorem simulation_after_onHost (act : HostM α) (s : Session) :
    (s.after (onHost act)).simulation = s.simulation := by
  unfold after onHost
  cases act s.host with
  | ok a h => rfl
  | error e h => rfl

/-- So does one followed by an action that does. -/
theorem simulation_after_onHost_bind {act : HostM α} {f : α → SessionM β} {w : Simulation}
    {s : Session} (hs : s.simulation = w)
    (hf : ∀ a (m : Session), m.simulation = w → (m.after (f a)).simulation = w) :
    (s.after (onHost act >>= f)).simulation = w := by
  rw [after_bind]
  unfold onHost
  cases act s.host with
  | ok a h => exact hf a _ hs
  | error e h => exact hs

theorem simulation_after_save (name : String) (s : Session) :
    (s.after (save name)).simulation = s.simulation := by
  refine simulation_after_onHost_bind rfl fun bytes m hm => ?_
  refine simulation_after_onHost_bind hm fun _ m' hm' => ?_
  exact hm'

theorem simulation_after_saveTo (name path : String) (s : Session) :
    (s.after (saveTo name path)).simulation = s.simulation := by
  have saved := simulation_after_save name s
  unfold saveTo
  rw [after_bind]
  unfold after at saved
  cases h : save name s with
  | ok bytes m =>
      rw [h] at saved
      exact (simulation_after_onHost _ m).trans saved
  | error e m =>
      rw [h] at saved
      exact saved

/-- A snapshot of the right size is put back. -/
theorem restore_eq_ok {r : Snapshot} {s : Session} (hcount : r.extent.count = r.temperatures.length)
    (hextent : r.extent = s.simulation.grid.extent) :
    restore r s = .ok () ⟨s.simulation.restored r,
      { s.host with log := s.host.log ++ [.restored r.name r.time] }⟩ := by
  have applied : onGrid r.applyTo s = .ok () { s with simulation :=
      { s.simulation with grid := s.simulation.grid.setTemperatures r.temperatures } } := by
    unfold onGrid
    rw [Snapshot.applyTo_eq_ok hcount hextent]
  exact bind_eq_ok_iff.mpr ⟨(), _, applied, rfl⟩

/-- **All that restoring can do**: it fails and leaves everything as it was, or it
sets the world back and says so. -/
theorem restore_cases (r : Snapshot) (s : Session) :
    (∃ e, restore r s = .error e s)
    ∨ r.extent.count = r.temperatures.length ∧ r.extent = s.simulation.grid.extent
      ∧ restore r s = .ok () ⟨s.simulation.restored r,
          { s.host with log := s.host.log ++ [.restored r.name r.time] }⟩ := by
  rcases r.applyTo_cases s.simulation.grid with ⟨e, he⟩ | ⟨hcount, hextent, -⟩
  · refine .inl ⟨e, ?_⟩
    have failed : onGrid r.applyTo s = .error e s := by
      unfold onGrid
      rw [he]
    exact bind_eq_error_iff.mpr (.inl failed)
  · exact .inr ⟨hcount, hextent, restore_eq_ok hcount hextent⟩

/-- The world after an attempt to restore: as it was, or set back to a snapshot of
its own size. -/
def MayRestore (before after : Simulation) : Prop :=
  after = before ∨ ∃ r : Snapshot, r.extent.count = r.temperatures.length
    ∧ r.extent = before.grid.extent ∧ after = before.restored r

theorem mayRestore_restore (r : Snapshot) (s : Session) :
    MayRestore s.simulation (s.after (restore r)).simulation := by
  unfold after
  rcases restore_cases r s with ⟨e, he⟩ | ⟨hcount, hextent, hok⟩
  · rw [he]
    exact .inl rfl
  · rw [hok]
    exact .inr ⟨r, hcount, hextent, rfl⟩

theorem mayRestore_restoreFrom (path : String) (s : Session) :
    MayRestore s.simulation (s.after (restoreFrom path)).simulation := by
  -- Two parts happen in the surroundings, and only the third one touches the world.
  unfold restoreFrom
  rw [after_bind]
  unfold onHost
  cases Host.fetch path s.host with
  | error e h => exact .inl rfl
  | ok bytes h =>
      show MayRestore s.simulation (after (restoreBytes bytes) { s with host := h }).simulation
      unfold restoreBytes
      rw [after_bind]
      unfold onHost
      dsimp only
      cases Host.load bytes h with
      | error e h' => exact .inl rfl
      | ok r h' =>
          have restored := mayRestore_restore r { s with host := h' }
          dsimp only
          rw [after_bind]
          unfold after at restored ⊢
          cases hr : restore r { s with host := h' } with
          | ok u m =>
              rw [hr] at restored
              exact restored
          | error e m =>
              rw [hr] at restored
              exact restored

/-- **All that an action can do to the world.** -/
theorem perform_cases (s : Session) (a : Act) :
    (∃ m, a = .move m ∧ (s.perform a).simulation = s.simulation.move m)
    ∨ MayRestore s.simulation (s.perform a).simulation := by
  cases a with
  | move m => exact .inl ⟨m, rfl, rfl⟩
  | snapshot name => exact .inr (.inl (simulation_after_onHost _ s))
  | save name => exact .inr (.inl (simulation_after_save name s))
  | saveTo name path => exact .inr (.inl (simulation_after_saveTo name path s))
  | restore r => exact .inr (mayRestore_restore r s)
  | restoreFrom path => exact .inr (mayRestore_restoreFrom path s)
  | elsewhere clock disk => exact .inr (.inl rfl)

end Session

/-! ### The settings of a world are kept -/

/-- The world has the field that settings describe: its size, its ambient
temperature, its rate, and a cell for every place. -/
structure Simulation.Follows (s : Simulation) (c : Config) : Prop where
  extent_eq : s.grid.extent = c.extent
  ambient_eq : s.grid.ambient = c.ambient
  rate_eq : s.grid.rate = c.rate
  wellFormed : s.grid.WellFormed

namespace Simulation.Follows

variable {c : Config} {s : Simulation}

theorem ofConfig (c : Config) : (Simulation.ofConfig c).Follows c :=
  ⟨rfl, rfl, rfl, Grid.wellFormed_initial c.extent c.ambient c.rate⟩

theorem move (h : s.Follows c) (m : Move) : (s.move m).Follows c := by
  cases m with
  | step dt => exact ⟨h.extent_eq, h.ambient_eq, h.rate_eq, h.wellFormed.step _⟩
  | force x y t =>
      refine ⟨?_, ?_, ?_, h.wellFormed.setTemperature x y t⟩
      · exact (s.grid.extent_setTemperature x y t).trans h.extent_eq
      · exact (s.grid.ambient_setTemperature x y t).trans h.ambient_eq
      · exact (s.grid.rate_setTemperature x y t).trans h.rate_eq

theorem restored (h : s.Follows c) (r : Snapshot) : (s.restored r).Follows c where
  extent_eq := (s.grid.extent_setTemperatures r.temperatures).trans h.extent_eq
  ambient_eq := (s.grid.ambient_setTemperatures r.temperatures).trans h.ambient_eq
  rate_eq := (s.grid.rate_setTemperatures r.temperatures).trans h.rate_eq
  wellFormed := h.wellFormed.setTemperatures r.temperatures

theorem perform {s : Session} (h : s.simulation.Follows c) (a : Act) :
    (s.perform a).simulation.Follows c := by
  rcases s.perform_cases a with ⟨m, -, hm⟩ | hkept | ⟨r, -, -, hr⟩
  · rw [hm]
    exact h.move m
  · rw [hkept]
    exact h
  · rw [hr]
    exact h.restored r

/-- **Every run keeps the settings that the world was made with.** -/
theorem run {s : Session} (h : s.simulation.Follows c) (acts : List Act) :
    (s.run acts).simulation.Follows c := by
  induction acts generalizing s with
  | nil => exact h
  | cons a acts ih => exact ih (h.perform a)

end Simulation.Follows

end Thermoscape
