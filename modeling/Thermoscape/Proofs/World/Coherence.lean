import Thermoscape.Proofs.Field.Settled
import Thermoscape.Proofs.World.Restore
import Thermoscape.Proofs.World.Resume

/-!
# Thermoscape.Proofs.World.Coherence

**What every run keeps.** A world counts its steps, its cells carry the tick of their
last step, and its clock adds up the durations of the steps; restoring overwrites the
temperatures and the clock, and leaves the tick and the stamps. Whatever is done to a
world and whatever of it fails, these stay coherent: the tick is the number of steps,
the cells are settled at that tick, the settings are those that the world was made
with, and the clock is a sum that can be read off the run (`run_coherent`).

`simulation_perform` says once what an action makes of the world, by whether it has
restored a snapshot; each fact about runs is an induction over it.
-/

namespace Thermoscape

/-! ### What a run has done -/

/-- How long the action took, if it is a step. -/
def Act.duration? : Act → Option Binary64
  | .move (.step dt) => some dt
  | _ => none

/-- How long the steps of a run took, in their order. -/
def durations (acts : List Act) : List Binary64 := acts.filterMap Act.duration?

namespace Session

/-- The snapshot that an action sets the world back to, if it succeeds in doing so. -/
def restoredBy (s : Session) : Act → Option Snapshot
  | .restore r =>
    match restore r s with
    | .ok _ _ => some r
    | .error _ _ => none
  | .restoreFrom path =>
    match restoreFrom path s with
    | .ok r _ => some r
    | .error _ _ => none
  | _ => none

/-- No action of the run has restored a snapshot. -/
def NeverRestored (s : Session) : List Act → Prop
  | [] => True
  | a :: acts => s.restoredBy a = none ∧ (s.perform a).NeverRestored acts

/-- During a run from the state `s` the clock was last set to `start`, and the steps since
then took `since`. -/
inductive CountsFrom (s : Session) (acts : List Act) : Binary64 → List Binary64 → Prop where
  /-- Nothing was restored: the clock stood at its first reading, and all steps count. -/
  | first (never : s.NeverRestored acts) : CountsFrom s acts s.simulation.time (durations acts)
  /-- A snapshot was restored and none after it: the clock was set to the time of the
  snapshot, and the steps behind it count. -/
  | snapshot (before later : List Act) {a : Act} {r : Snapshot} (split : acts = before ++ a :: later)
      (restored : (s.run before).restoredBy a = some r)
      (never : ((s.run before).perform a).NeverRestored later) :
      CountsFrom s acts r.time (durations later)

/-! ### One action -/

/-- Restoring from a file fails and leaves the world, or it restores what it returns. -/
theorem restoreFrom_cases (path : String) (s : Session) :
    (∃ e log, restoreFrom path s = .error e (s.withLog log))
    ∨ ∃ r log, restoreFrom path s
        = .ok r { s.withLog log with simulation := s.simulation.restored r } := by
  by_cases fitting : ∃ r, (∃ bytes, s.host.disk.read path = .ok bytes
      ∧ Snapshot.ofBytes bytes = .ok r) ∧ r.extent = s.simulation.grid.extent
  · obtain ⟨r, ⟨bytes, hread, hr⟩, hextent⟩ := fitting
    exact .inr ⟨r, restoreFrom_ok hread hr hextent⟩
  · exact .inl (restoreFrom_error fun r hr hextent => fitting ⟨r, hr, hextent⟩)

/-- **What an action makes of the world**: it is set back to what was restored, or a move
is made, or nothing changes. -/
theorem simulation_perform (s : Session) (a : Act) :
    (s.perform a).simulation
      = match s.restoredBy a with
        | some r => s.simulation.restored r
        | none =>
          match a with
          | .move m => s.simulation.move m
          | _ => s.simulation := by
  cases a with
  | move m => rfl
  | snapshot name => exact simulation_after_onHost _ s
  | save name => exact simulation_after_save name s
  | saveTo name path => exact simulation_after_saveTo name path s
  | restore r =>
      rcases restore_cases r s with ⟨e, he⟩ | ⟨-, -, hok⟩
      · simp only [perform, after, restoredBy, he]
      · simp only [perform, after, restoredBy, hok]
  | restoreFrom path =>
      rcases restoreFrom_cases path s with ⟨e, log, he⟩ | ⟨r, log, hok⟩
      · simp only [perform, after, restoredBy, he, withLog]
      · simp only [perform, after, restoredBy, hok]
  | elsewhere clock disk => rfl

/-- A step counts, and nothing else does. -/
theorem tick_perform (s : Session) (a : Act) :
    (s.perform a).simulation.tick
      = match a.duration? with
        | some _ => s.simulation.tick + 1
        | none => s.simulation.tick := by
  rw [simulation_perform]
  cases a with
  | move m =>
      cases m with
      | step dt => rfl
      | force x y t => rfl
  | restore r =>
      cases s.restoredBy (.restore r) with
      | some r' => rfl
      | none => rfl
  | restoreFrom path =>
      cases s.restoredBy (.restoreFrom path) with
      | some r => rfl
      | none => rfl
  | _ => rfl

/-- When nothing is restored, the clock moves on by the duration of a step. -/
theorem time_perform {s : Session} {a : Act} (h : s.restoredBy a = none) :
    (s.perform a).simulation.time
      = match a.duration? with
        | some dt => s.simulation.time + dt
        | none => s.simulation.time := by
  rw [simulation_perform, h]
  cases a with
  | move m =>
      cases m with
      | step dt => rfl
      | force x y t => rfl
  | _ => rfl

/-- An action takes a settled world to a settled world, at its own tick. -/
theorem settled_perform {s : Session} (hs : s.simulation.grid.WellFormed)
    (h : s.simulation.grid.Settled s.simulation.tick) (a : Act) :
    (s.perform a).simulation.grid.Settled (s.perform a).simulation.tick := by
  rcases s.perform_cases a with ⟨m, -, hm⟩ | hkept | ⟨r, -, -, hr⟩
  · rw [hm]
    cases m with
    | step dt => exact hs.settled_step _
    | force x y t => exact h.setTemperature x y t
  · rw [hkept]
    exact h
  · rw [hr]
    exact h.setTemperatures r.temperatures

/-! ### Whole runs -/

theorem tick_run (s : Session) (acts : List Act) :
    (s.run acts).simulation.tick
      = s.simulation.tick + UInt64.ofNat (durations acts).length := by
  induction acts generalizing s with
  | nil => exact (UInt64.add_zero _).symm
  | cons a acts ih =>
      have rest : ((s.perform a).run acts).simulation.tick = _ := ih (s.perform a)
      rw [tick_perform] at rest
      refine rest.trans ?_
      cases ha : a.duration? with
      | none => simp [durations, ha]
      | some dt =>
          simp only [durations, List.filterMap_cons_some ha, List.length_cons, UInt64.ofNat_add]
          rw [UInt64.add_assoc, UInt64.add_comm 1]
          rfl

theorem settled_run {c : Config} {s : Session} (follows : s.simulation.Follows c)
    (h : s.simulation.grid.Settled s.simulation.tick) (acts : List Act) :
    (s.run acts).simulation.grid.Settled (s.run acts).simulation.tick := by
  induction acts generalizing s with
  | nil => exact h
  | cons a acts ih => exact ih (follows.perform a) (settled_perform follows.wellFormed h a)

/-- While nothing is restored, the clock adds up the durations from the left. -/
theorem time_run {s : Session} {acts : List Act} (never : s.NeverRestored acts) :
    (s.run acts).simulation.time
      = (durations acts).foldl (fun time dt => time + dt) s.simulation.time := by
  induction acts generalizing s with
  | nil => rfl
  | cons a acts ih =>
      have rest : ((s.perform a).run acts).simulation.time = _ := ih never.2
      rw [time_perform never.1] at rest
      refine rest.trans ?_
      cases ha : a.duration? with
      | none => rw [durations, durations, List.filterMap_cons_none ha]
      | some dt => rw [durations, durations, List.filterMap_cons_some ha, List.foldl_cons]

theorem run_append (s : Session) (before later : List Act) :
    s.run (before ++ later) = (s.run before).run later :=
  List.foldl_append

/-- The clock of a run is what it counts from and the durations since then. -/
theorem CountsFrom.time_eq {s : Session} {acts : List Act} {start : Binary64}
    {since : List Binary64} (h : s.CountsFrom acts start since) :
    (s.run acts).simulation.time = since.foldl (fun time dt => time + dt) start := by
  cases h with
  | first never => exact time_run never
  | @snapshot before later a r split restored never =>
      rw [split, run_append]
      have reset : ((s.run before).perform a).simulation.time = r.time := by
        rw [simulation_perform, restored]
        rfl
      rw [← reset]
      exact time_run never

/-- Every run has a last snapshot, or none at all. -/
theorem exists_countsFrom (s : Session) (acts : List Act) :
    ∃ start since, s.CountsFrom acts start since := by
  induction acts generalizing s with
  | nil => exact ⟨_, _, .first trivial⟩
  | cons a acts ih =>
      obtain ⟨start, since, h⟩ := ih (s.perform a)
      cases h with
      | snapshot before later split restored never =>
          exact ⟨_, _, .snapshot (a :: before) later (congrArg (a :: ·) split) restored never⟩
      | first never =>
          cases ha : s.restoredBy a with
          | none => exact ⟨_, _, .first ⟨ha, never⟩⟩
          | some r => exact ⟨_, _, .snapshot [] acts rfl ha never⟩

/-- **Every run leaves a coherent world.** Whatever is done to a world that was made from
settings, in any order and with any part of it failing: the tick is the number of steps;
the cells are settled at that tick; size, ambient temperature and rate are those of the
settings, and there is a cell for every place, at least one and no more than a file can
announce; the clock is the sum of the durations since the last snapshot, from its time,
or since the beginning, from zero. Nothing that saves changes the world. -/
theorem run_coherent (c : Config) (h : Host) (acts : List Act)
    (hsteps : (durations acts).length < UInt64.size) :
    let s := (Session.fresh c h).run acts
    let w := s.simulation
    w.tick.toNat = (durations acts).length
    ∧ (∀ cell ∈ w.grid.cells, cell.stamp = w.tick ∧ cell.pending = cell.temperature)
    ∧ w.grid.extent = c.extent ∧ w.grid.ambient = c.ambient ∧ w.grid.rate = c.rate
    ∧ w.grid.cells.size = c.extent.width.toNat * c.extent.height.toNat
    ∧ 1 ≤ w.grid.cells.size ∧ w.grid.cells.size ≤ UInt32.size - 1
    ∧ (Session.fresh c h).simulation.time = .zero
    ∧ (∃ start since, (Session.fresh c h).CountsFrom acts start since)
    ∧ (∀ start since, (Session.fresh c h).CountsFrom acts start since →
        w.time = since.foldl (fun time dt => time + dt) start)
    ∧ ∀ name path g time, (s.after (Session.save name)).simulation = w
        ∧ (s.after (Session.saveTo name path)).simulation = w
        ∧ s.after (Session.onHost (Host.snapshot name g time)) = s := by
  intro s w
  have follows : w.Follows c := (Simulation.Follows.ofConfig c).run (s := Session.fresh c h) acts
  have settled : w.grid.Settled w.tick :=
    settled_run (s := Session.fresh c h) (Simulation.Follows.ofConfig c)
      (Grid.settled_initial c.extent c.ambient c.rate) acts
  have tick : w.tick = UInt64.ofNat (durations acts).length := by
    rw [show w.tick = _ from tick_run (Session.fresh c h) acts]
    exact UInt64.zero_add _
  have size : w.grid.cells.size = c.extent.count := follows.wellFormed.trans (by
    rw [follows.extent_eq])
  have positive : 1 ≤ c.extent.count := Nat.mul_pos c.width_pos c.height_pos
  refine ⟨?_, ?_, follows.extent_eq, follows.ambient_eq, follows.rate_eq, size, ?_, ?_, rfl,
    exists_countsFrom _ acts, fun start since counts => counts.time_eq, ?_⟩
  · rw [tick, UInt64.toNat_ofNat_of_lt' hsteps]
  · intro cell hcell
    exact (settled cell hcell).symm
  · rw [size]
    exact positive
  · rw [size]
    exact c.count_le
  · intro name path g time
    exact ⟨simulation_after_save name s, simulation_after_saveTo name path s, rfl⟩

/-- A pair of cells makes a step, refuses a snapshot of another shape, is set back to one
of its own, cannot be saved where a directory is, and makes another step. -/
theorem run_coherent_pair :
    let r : Snapshot :=
      { name := "", timestamp := 0, formatVersion := 1, extent := ⟨2, 1⟩, time := .two
        ambient := .zero, temperatures := [.one, .half], creatures := [] }
    let acts : List Act :=
      [.move (.step .one), .restore { r with extent := ⟨1, 2⟩ }, .restore r, .saveTo "" "/",
        .move (.step .half)]
    let w := ((Session.fresh Config.pair { clock := 0 }).run acts).simulation
    (durations acts).length < UInt64.size ∧ w.tick.toNat = 2 ∧ w.time = .two + .half
      ∧ ∀ cell ∈ w.grid.cells, cell.stamp = w.tick ∧ cell.pending = cell.temperature := by
  intro r acts w
  have hsteps : (durations acts).length < UInt64.size := by decide
  let before : List Act := [.move (.step .one), .restore { r with extent := ⟨1, 2⟩ }]
  have follows : ((Session.fresh Config.pair { clock := 0 }).run before).simulation.Follows
      Config.pair :=
    (Simulation.Follows.ofConfig Config.pair).run (s := Session.fresh _ { clock := 0 }) before
  have restored : ((Session.fresh Config.pair { clock := 0 }).run before).restoredBy (.restore r)
      = some r := by
    simp only [restoredBy, restore_eq_ok (r := r) rfl follows.extent_eq.symm]
  have counts : (Session.fresh Config.pair { clock := 0 }).CountsFrom acts .two [.half] :=
    .snapshot before [.saveTo "" "/", .move (.step .half)] rfl restored ⟨rfl, rfl, trivial⟩
  obtain ⟨tick, settled, -, -, -, -, -, -, -, -, time, -⟩ :=
    run_coherent Config.pair { clock := 0 } acts hsteps
  exact ⟨hsteps, tick, time _ _ counts, settled⟩

end Session

end Thermoscape
