import Thermoscape.Proofs.Field.Places
import Thermoscape.Proofs.Snapshot.RoundTrip
import Thermoscape.Proofs.World.Run

/-!
# Thermoscape.Proofs.World.Restore

**Restoring is all or nothing.** Bytes may come from anywhere: they are handed over, or
they are in a file, or the file cannot be read. Whatever they are, an attempt to restore
a world from them either succeeds and sets the whole world back to the snapshot that the
bytes hold, or it fails and the log is all that has changed.

An attempt goes through stages that can each fail: the file is fetched, its bytes are
loaded, the snapshot is put back. Each stage has one list of cases, and none of them writes
to the world before the last check has passed. Which of the two happens is decided by the
bytes and the size of the field alone (`AllOrNothing`).
-/

namespace Thermoscape

/-! ### Set back to a snapshot -/

/-- The world `after` is the world `before` set back to a snapshot of its own size: every
cell has the temperature of the snapshot, seen and pending, and keeps its stamp; the time
is that of the snapshot; size, ambient temperature, rate and tick are as before. -/
structure Simulation.SetBack (before : Simulation) (r : Snapshot) (after : Simulation) : Prop where
  width_eq : r.extent.width = before.grid.extent.width
  height_eq : r.extent.height = before.grid.extent.height
  cell_eq : ∀ x y : Nat, x < before.grid.extent.width.toNat → y < before.grid.extent.height.toNat →
    ∃ c t, before.grid.cell? x y = some c
      ∧ r.temperatures[y * before.grid.extent.width.toNat + x]? = some t
      ∧ after.grid.cell? x y = some { temperature := t, pending := t, stamp := c.stamp }
  size_eq : after.grid.cells.size = before.grid.cells.size
  extent_eq : after.grid.extent = before.grid.extent
  ambient_eq : after.grid.ambient = before.grid.ambient
  rate_eq : after.grid.rate = before.grid.rate
  tick_eq : after.tick = before.tick
  time_eq : after.time = r.time

/-- When all temperatures are forced, a cell gets the temperature of its number. -/
theorem Grid.getElem?_setTemperatures {α : Type} {g : Grid α} (hg : g.WellFormed) {ts : List α}
    (hlength : ts.length = g.extent.count) {i : Nat} {c : Cell α} {t : α}
    (hc : g.cells[i]? = some c) (ht : ts[i]? = some t) :
    (g.setTemperatures ts).cells[i]? = some (c.force t) := by
  rw [← Array.getElem?_toList, cells_setTemperatures hg hlength, List.getElem?_zipWith,
    Array.getElem?_toList, hc, ht]

/-- A snapshot of the size of the field, with a temperature for every cell, sets the
whole world back. -/
theorem Simulation.setBack_restored {s : Simulation} (hs : s.grid.WellFormed) {r : Snapshot}
    (hcount : r.extent.count = r.temperatures.length) (hextent : r.extent = s.grid.extent) :
    s.SetBack r (s.restored r) where
  width_eq := congrArg Extent.width hextent
  height_eq := congrArg Extent.height hextent
  cell_eq := by
    intro x y hx hy
    have index := Extent.index?_of_contains (Extent.contains_natCast_iff.mpr ⟨hx, hy⟩)
    rw [Int.toNat_natCast, Int.toNat_natCast] at index
    have hlength : r.temperatures.length = s.grid.extent.count := by rw [← hcount, hextent]
    have hlt := Extent.number_lt hx hy
    obtain ⟨c, hc⟩ := hs.exists_cell hlt
    have ht := List.getElem?_eq_getElem (hlength ▸ hlt)
    have index' : (s.restored r).grid.extent.index? x y
        = some (y * s.grid.extent.width.toNat + x) := by
      rw [← index]
      exact congrArg (Extent.index? · x y) (s.grid.extent_setTemperatures r.temperatures)
    exact ⟨c, _, (Grid.cell?_of_index index).trans hc, ht,
      (Grid.cell?_of_index index').trans (Grid.getElem?_setTemperatures hs hlength hc ht)⟩
  size_eq := by
    have sizes := hs.setTemperatures r.temperatures
    rw [Grid.WellFormed, Grid.extent_setTemperatures] at sizes
    exact sizes.trans hs.symm
  extent_eq := s.grid.extent_setTemperatures r.temperatures
  ambient_eq := s.grid.ambient_setTemperatures r.temperatures
  rate_eq := s.grid.rate_setTemperatures r.temperatures
  tick_eq := rfl
  time_eq := rfl

/-! ### The stages in the surroundings -/

namespace Host

/-- **All that loading can do**: bytes that hold no snapshot leave no trace, and those that
hold one change nothing but the log. -/
theorem load_cases (bytes : Octets) (h : Host) :
    (∃ e, Snapshot.ofBytes bytes = .error e ∧ Host.load bytes h = .error e h)
    ∨ ∃ r log, Snapshot.ofBytes bytes = .ok r
        ∧ Host.load bytes h = .ok r { h with log := log } := by
  unfold Host.load Snapshot.ofBytes
  cases Loaded.ofBytes bytes with
  | error e => exact .inl ⟨e, rfl, rfl⟩
  | ok l => exact .inr ⟨l.snapshot, _, rfl, rfl⟩

/-- All that fetching can do, likewise. -/
theorem fetch_cases (path : String) (h : Host) :
    (∃ fault, h.disk.read path = .error fault
      ∧ Host.fetch path h = .error (.file path fault) h)
    ∨ ∃ bytes log, h.disk.read path = .ok bytes
        ∧ Host.fetch path h = .ok bytes { h with log := log } := by
  cases hread : h.disk.read path with
  | error fault =>
      refine .inl ⟨fault, rfl, bind_eq_error_iff.mpr (.inr ⟨h, h, rfl, ?_⟩)⟩
      rw [hread]
      rfl
  | ok bytes =>
      refine .inr ⟨bytes, h.log ++ [.fetched path bytes.length], rfl,
        bind_eq_ok_iff.mpr ⟨h, h, rfl, ?_⟩⟩
      rw [hread]
      rfl

end Host

/-- A snapshot that has been loaded has a temperature for every cell. -/
theorem Snapshot.count_eq_of_ofBytes {bytes : Octets} {r : Snapshot}
    (hr : Snapshot.ofBytes bytes = .ok r) : r.extent.count = r.temperatures.length := by
  obtain ⟨version, c, hread⟩ := Snapshot.ofBytes_eq_ok_iff.mp hr
  obtain ⟨-, fits, -⟩ := Loaded.read_eq_ok_iff.mp hread
  exact fits.temperatures_eq.symm

/-- The saved form of a snapshot holds the snapshot. -/
theorem Snapshot.ofBytes_saved {r : Snapshot} (fits : r.Fits)
    (hname : (Utf8.encode r.name).length ≤ UInt32.size - 1) :
    Snapshot.ofBytes (Header.layout Header.currentVersion ++ r.payload) = .ok r := by
  simpa using Snapshot.ofBytes_of_fits fits hname []

/-! ### The attempt as a whole -/

namespace Session

/-- The state with another log. -/
def withLog (s : Session) (log : List Event) : Session :=
  { s with host := { s.host with log := log } }

theorem onHost_ok {α : Type} {act : HostM α} {s : Session} {a : α} {log : List Event}
    (h : act s.host = .ok a { s.host with log := log }) : onHost act s = .ok a (s.withLog log) := by
  unfold onHost
  rw [h]
  rfl

theorem onHost_error {α : Type} {act : HostM α} {s : Session} {e : SaveError}
    (h : act s.host = .error e s.host) : onHost act s = .error e s := by
  unfold onHost
  rw [h]

/-- Bytes that hold a snapshot of the size of the field restore the world. -/
theorem restoreBytes_ok {bytes : Octets} {r : Snapshot} (hr : Snapshot.ofBytes bytes = .ok r)
    {s : Session} (hextent : r.extent = s.simulation.grid.extent) :
    ∃ log, restoreBytes bytes s
      = .ok r { s.withLog log with simulation := s.simulation.restored r } := by
  rcases Host.load_cases bytes s.host with ⟨e, he, -⟩ | ⟨r', log, hr', hload⟩
  · rw [hr] at he
    cases he
  · obtain rfl : r = r' := Except.ok.inj (hr.symm.trans hr')
    have restored := restore_eq_ok (s := s.withLog log) (Snapshot.count_eq_of_ofBytes hr) hextent
    exact ⟨_, bind_eq_ok_iff.mpr ⟨r, _, onHost_ok hload,
      bind_eq_ok_iff.mpr ⟨(), _, restored, rfl⟩⟩⟩

/-- All others leave it alone. -/
theorem restoreBytes_error (bytes : Octets) {s : Session}
    (h : ∀ r, Snapshot.ofBytes bytes = .ok r → r.extent ≠ s.simulation.grid.extent) :
    ∃ e log, restoreBytes bytes s = .error e (s.withLog log) := by
  rcases Host.load_cases bytes s.host with ⟨e, -, he⟩ | ⟨r, log, hr, hload⟩
  · exact ⟨e, s.host.log, bind_eq_error_iff.mpr (.inl (onHost_error he))⟩
  · rcases restore_cases r (s.withLog log) with ⟨e, he⟩ | ⟨-, hextent, -⟩
    · exact ⟨e, log, bind_eq_error_iff.mpr (.inr ⟨r, _, onHost_ok hload,
        bind_eq_error_iff.mpr (.inl he)⟩)⟩
    · exact absurd hextent (h r hr)

/-- A file with such bytes restores the world. -/
theorem restoreFrom_ok {path : String} {s : Session} {bytes : Octets} {r : Snapshot}
    (hread : s.host.disk.read path = .ok bytes) (hr : Snapshot.ofBytes bytes = .ok r)
    (hextent : r.extent = s.simulation.grid.extent) :
    ∃ log, restoreFrom path s
      = .ok r { s.withLog log with simulation := s.simulation.restored r } := by
  rcases Host.fetch_cases path s.host with ⟨fault, hfault, -⟩ | ⟨bytes', log, hbytes, hfetch⟩
  · rw [hread] at hfault
    cases hfault
  · obtain rfl : bytes = bytes' := Except.ok.inj (hread.symm.trans hbytes)
    obtain ⟨log', restored⟩ := restoreBytes_ok hr (s := s.withLog log) hextent
    exact ⟨log', bind_eq_ok_iff.mpr ⟨bytes, _, onHost_ok hfetch, restored⟩⟩

/-- A file that cannot be read, or that holds something else, leaves it alone. -/
theorem restoreFrom_error {path : String} {s : Session}
    (h : ∀ r, (∃ bytes, s.host.disk.read path = .ok bytes ∧ Snapshot.ofBytes bytes = .ok r) →
      r.extent ≠ s.simulation.grid.extent) :
    ∃ e log, restoreFrom path s = .error e (s.withLog log) := by
  rcases Host.fetch_cases path s.host with ⟨fault, -, hfetch⟩ | ⟨bytes, log, hread, hfetch⟩
  · exact ⟨_, s.host.log, bind_eq_error_iff.mpr (.inl (onHost_error hfetch))⟩
  · obtain ⟨e, log', refused⟩ := restoreBytes_error bytes (s := s.withLog log)
      fun r hr => h r ⟨bytes, hread, hr⟩
    exact ⟨e, log', bind_eq_error_iff.mpr (.inr ⟨bytes, _, onHost_ok hfetch, refused⟩)⟩

/-- What may come of an attempt to restore a world in the state `s` from a place where the
snapshots `found` are, of which there is at most one. -/
structure AllOrNothing (s : Session) (found : Snapshot → Prop)
    (outcome : EStateM.Result SaveError Session Snapshot) : Prop where
  /-- A failure changes nothing but the log. -/
  nothing : ∀ e s', outcome = .error e s' → ∃ log, s' = { s with host := { s.host with log := log } }
  /-- A success sets the world back to the snapshot that was found. -/
  all : ∀ r s', outcome = .ok r s' → found r ∧ s.simulation.SetBack r s'.simulation
    ∧ ∃ log, s'.host = { s.host with log := log }
  /-- It succeeds exactly when there is a snapshot, and both sides agree. -/
  succeeds_iff : ∀ r, (∃ s', outcome = .ok r s') ↔ found r
    ∧ r.extent.width = s.simulation.grid.extent.width
    ∧ r.extent.height = s.simulation.grid.extent.height

/-- An attempt is all or nothing when a snapshot of the right size restores the world
and its absence leaves it alone. -/
theorem AllOrNothing.intro {s : Session} {found : Snapshot → Prop}
    {outcome : EStateM.Result SaveError Session Snapshot} (hs : s.simulation.grid.WellFormed)
    (unique : ∀ r r', found r → found r' → r = r')
    (complete : ∀ r, found r → r.extent.count = r.temperatures.length)
    (ok : ∀ r, found r → r.extent = s.simulation.grid.extent →
      ∃ log, outcome = .ok r { s.withLog log with simulation := s.simulation.restored r })
    (error : (∀ r, found r → r.extent ≠ s.simulation.grid.extent) →
      ∃ e log, outcome = .error e (s.withLog log)) :
    AllOrNothing s found outcome := by
  by_cases fitting : ∃ r, found r ∧ r.extent = s.simulation.grid.extent
  · obtain ⟨r, hr, hextent⟩ := fitting
    obtain ⟨log, rfl⟩ := ok r hr hextent
    have setBack := Simulation.setBack_restored hs (complete r hr) hextent
    refine ⟨?_, ?_, ?_⟩
    · intro e s' h
      cases h
    · intro r' s' h
      cases h
      exact ⟨hr, setBack, log, rfl⟩
    · intro r'
      constructor
      · intro h
        obtain ⟨s', h⟩ := h
        cases h
        exact ⟨hr, setBack.width_eq, setBack.height_eq⟩
      · intro h
        obtain rfl := unique r r' hr h.1
        exact ⟨_, rfl⟩
  · have differs : ∀ r, found r → r.extent ≠ s.simulation.grid.extent :=
      fun r hr hextent => fitting ⟨r, hr, hextent⟩
    obtain ⟨e, log, rfl⟩ := error differs
    refine ⟨?_, ?_, ?_⟩
    · intro e' s' h
      cases h
      exact ⟨log, rfl⟩
    · intro r s' h
      cases h
    · intro r
      constructor
      · intro h
        obtain ⟨s', h⟩ := h
        cases h
      · intro h
        obtain ⟨hr, hwidth, hheight⟩ := h
        exact absurd (Extent.eq_of_sides hwidth hheight) (differs r hr)

/-- An attempt fails, and changes nothing but the log, where no snapshot of the size of the
field is found. -/
theorem AllOrNothing.exists_error {s : Session} {found : Snapshot → Prop}
    {outcome : EStateM.Result SaveError Session Snapshot} (h : AllOrNothing s found outcome)
    (hnone : ∀ r, found r → r.extent ≠ s.simulation.grid.extent) :
    ∃ e log, outcome = .error e (s.withLog log) := by
  cases houtcome : outcome with
  | ok r s' =>
      obtain ⟨hr, hwidth, hheight⟩ := (h.succeeds_iff r).mp ⟨s', houtcome⟩
      exact absurd (Extent.eq_of_sides hwidth hheight) (hnone r hr)
  | error e s' =>
      obtain ⟨log, rfl⟩ := h.nothing e s' houtcome
      exact ⟨e, log, rfl⟩

/-- **Restoring is all or nothing**, from any bytes and from any file, whether it can be
read or not. -/
theorem restore_all_or_nothing {s : Session} (hs : s.simulation.grid.WellFormed) :
    (∀ bytes, AllOrNothing s (fun r => Snapshot.ofBytes bytes = .ok r) (restoreBytes bytes s))
    ∧ ∀ path, AllOrNothing s
        (fun r => ∃ bytes, s.host.disk.read path = .ok bytes ∧ Snapshot.ofBytes bytes = .ok r)
        (restoreFrom path s) := by
  constructor
  · intro bytes
    refine .intro hs ?_ ?_ (fun r hr => restoreBytes_ok hr) (restoreBytes_error bytes)
    · intro r r' hr hr'
      exact Except.ok.inj (hr.symm.trans hr')
    · intro r hr
      exact Snapshot.count_eq_of_ofBytes hr
  · intro path
    refine .intro hs ?_ ?_ ?_ restoreFrom_error
    · intro r r' hr hr'
      obtain ⟨bytes, hread, hr⟩ := hr
      obtain ⟨bytes', hread', hr'⟩ := hr'
      obtain rfl : bytes = bytes' := Except.ok.inj (hread.symm.trans hread')
      exact Except.ok.inj (hr.symm.trans hr')
    · intro r hr
      obtain ⟨bytes, -, hr⟩ := hr
      exact Snapshot.count_eq_of_ofBytes hr
    · intro r hr hextent
      obtain ⟨bytes, hread, hr⟩ := hr
      exact restoreFrom_ok hread hr hextent

/-- Two cells side by side are set back to a snapshot of two cells side by side, and are
left alone by one of two cells on top of each other. A file with the first snapshot does the
same; one that has lost its last byte, one that may not be read and one that is not there
leave the world alone. -/
theorem restore_all_or_nothing_turned :
    let g : Grid Binary64 :=
      { extent := ⟨2, 1⟩, ambient := .one, rate := .half
        cells := #[⟨.one, .two, 5⟩, ⟨.two, .zero, 6⟩] }
    let s : Session := ⟨⟨g, 6, .one⟩, { clock := 0 }⟩
    let r : Snapshot :=
      { name := "é", timestamp := 7, formatVersion := 1, extent := ⟨2, 1⟩, time := .half
        ambient := .infinity, temperatures := [.zero, .negativeZero], creatures := [] }
    let turned : Snapshot := { r with extent := ⟨1, 2⟩ }
    let bytes (r : Snapshot) : Octets := Header.layout Header.currentVersion ++ r.payload
    let disk : Disk :=
      { entries := [(["saves"], .directory), (["saves", "whole"], .file (bytes r)),
          (["saves", "cut"], .file (bytes r).dropLast), (["saves", "closed"], .file (bytes r))]
        refusals := [((.read, ["saves", "closed"]), .other "Permission denied (os error 13)")] }
    let filed : Session := { s with host := { clock := 0, disk := disk } }
    s.simulation.grid.WellFormed
      ∧ (∃ s', restoreBytes (bytes r) s = .ok r s'
        ∧ s'.simulation.grid.cell? 1 0 = some ⟨.negativeZero, .negativeZero, 6⟩
        ∧ s'.simulation.grid.ambient = .one ∧ s'.simulation.time = .half)
      ∧ (∃ e s', restoreBytes (bytes turned) s = .error e s' ∧ s'.simulation = s.simulation)
      ∧ (∃ s', restoreFrom "saves/whole" filed = .ok r s'
        ∧ s'.simulation.grid.cell? 1 0 = some ⟨.negativeZero, .negativeZero, 6⟩
        ∧ s'.simulation.grid.ambient = .one ∧ s'.simulation.time = .half)
      ∧ ∀ path ∈ ["saves/cut", "saves/closed", "saves/missing"],
          ∃ e s', restoreFrom path filed = .error e s' ∧ s'.simulation = filed.simulation := by
  intro g s r turned bytes disk filed
  have hs : s.simulation.grid.WellFormed := rfl
  have hname : (Utf8.encode r.name).length ≤ UInt32.size - 1 := by decide
  have hr : Snapshot.ofBytes (bytes r) = .ok r :=
    Snapshot.ofBytes_saved ⟨rfl, by decide, by decide, by decide⟩ hname
  have hturned : Snapshot.ofBytes (bytes turned) = .ok turned :=
    Snapshot.ofBytes_saved ⟨rfl, by decide, by decide, by decide⟩ hname
  have hcut : (Snapshot.ofBytes (bytes r).dropLast).toOption = none := by decide +kernel
  have setBack_eq : ∀ s' : Simulation, s.simulation.SetBack r s' →
      s'.grid.cell? 1 0 = some ⟨.negativeZero, .negativeZero, 6⟩
        ∧ s'.grid.ambient = .one ∧ s'.time = .half := by
    intro s' setBack
    obtain ⟨c, t, hc, ht, cell⟩ := setBack.cell_eq 1 0 (by decide) (by decide)
    cases hc
    cases ht
    exact ⟨cell, setBack.ambient_eq, setBack.time_eq⟩
  refine ⟨hs, ?_, ?_, ?_, ?_⟩
  · have attempt := (restore_all_or_nothing hs).1 (bytes r)
    obtain ⟨s', hs'⟩ := (attempt.succeeds_iff r).mpr ⟨hr, rfl, rfl⟩
    exact ⟨s', hs', setBack_eq _ (attempt.all r s' hs').2.1⟩
  · have differs : ∀ r', Snapshot.ofBytes (bytes turned) = .ok r' → r'.extent ≠ g.extent := by
      intro r' hr'
      obtain rfl : turned = r' := Except.ok.inj (hturned.symm.trans hr')
      decide
    obtain ⟨e, log, refused⟩ :=
      ((restore_all_or_nothing hs).1 (bytes turned)).exists_error differs
    exact ⟨e, _, refused, rfl⟩
  · have attempt := (restore_all_or_nothing (s := filed) hs).2 "saves/whole"
    obtain ⟨s', hs'⟩ := (attempt.succeeds_iff r).mpr ⟨⟨bytes r, rfl, hr⟩, rfl, rfl⟩
    exact ⟨s', hs', setBack_eq _ (attempt.all r s' hs').2.1⟩
  · intro path hpath
    have nothing_found : ∀ r', ¬ ∃ b, disk.read path = .ok b ∧ Snapshot.ofBytes b = .ok r' := by
      rintro r' ⟨b, hread, hb⟩
      simp only [List.mem_cons, List.not_mem_nil, or_false] at hpath
      rcases hpath with rfl | rfl | rfl
      · obtain rfl : (bytes r).dropLast = b := Except.ok.inj hread
        rw [hb] at hcut
        cases hcut
      · cases hread
      · cases hread
    obtain ⟨e, log, refused⟩ := ((restore_all_or_nothing (s := filed) hs).2 path).exists_error
      fun r' hr' => absurd hr' (nothing_found r')
    exact ⟨e, _, refused, rfl⟩

end Session

end Thermoscape
