import Thermoscape.Proofs.Field.Guarded
import Thermoscape.Proofs.Field.Settled
import Thermoscape.Proofs.Snapshot.Transfer

/-!
# Thermoscape.Proofs.Snapshot.Safety

**Every field that can come to be is well-formed and safe to use.** A field comes from an
extent, from settings or from a snapshot, of any size, sides of length zero included; it
is changed by steps, by forced temperatures and by snapshots that are put back, or
refused. `Grid.grown_safe` says of every field on such a way what holds of its cells, and
that no operation on it can hit a guard.

Putting a snapshot back computes columns and rows by division. A field without columns
has no cells, so that there is nothing to divide when the width is zero
(`Guarded.applyTo_eq`).
-/

namespace Thermoscape

/-! ### Putting back under guard -/

namespace Guarded

/-- Puts the temperatures of a snapshot back, with the place of every temperature computed
under guard. -/
def applyTo (s : Snapshot) (g : Grid Binary64) :
    Guarded (EStateM.Result SaveError (Grid Binary64) Unit) := do
  let expected ← word (s.extent.width.toNat * s.extent.height.toNat)
  if expected ≠ s.temperatures.length then
    return .error (.cellCount expected s.temperatures.length) g
  else if s.extent ≠ g.extent then
    return .error (.extentMismatch s.extent g.extent) g
  else
    let restored ← s.temperatures.zipIdx.foldlM (fun g (t, i) => do
      let x ← remainder i s.extent.width.toNat
      let y ← quotient i s.extent.width.toNat
      setTemperature g (← signedWord x) (← signedWord y) t) g
    return .ok () restored

/-- The place of a cell is found without a fault. -/
theorem place_eq {e : Extent} {i : Nat} (h : i < e.count) :
    remainder i e.width.toNat = .ok (e.column i) ∧ quotient i e.width.toNat = .ok (e.row i)
    ∧ signedWord (e.column i) = .ok ↑(e.column i) ∧ signedWord (e.row i) = .ok ↑(e.row i) := by
  have hcolumn := Extent.column_lt h
  have hrow := Extent.row_lt h
  have hwidth := e.width.toNat_lt
  have hheight := e.height.toNat_lt
  refine ⟨if_neg (by omega), if_neg (by omega), signedWord_eq (by omega) ?_,
    signedWord_eq (by omega) ?_⟩
  · simp only [UInt32.size]
    omega
  · simp only [UInt32.size]
    omega

theorem setTemperatures_eq {g : Grid Binary64} (hg : g.WellFormed) {e : Extent}
    (hextent : e = g.extent) {ts : List Binary64} (hlength : ts.length = e.count) :
    ts.zipIdx.foldlM (fun g (t, i) => do
      let x ← remainder i e.width.toNat
      let y ← quotient i e.width.toNat
      setTemperature g (← signedWord x) (← signedWord y) t) g = .ok (g.setTemperatures ts) := by
  refine (foldlM_eq (p := fun g : Grid Binary64 => g.WellFormed ∧ e = g.extent) ts.zipIdx ?_
    ⟨hg, hextent⟩).1
  intro g hg p hp
  obtain ⟨hg, rfl⟩ := hg
  obtain ⟨t, i⟩ := p
  have hi : i < g.extent.count := by
    rw [← hlength]
    exact List.snd_lt_of_mem_zipIdx hp
  obtain ⟨column, row, signedColumn, signedRow⟩ := place_eq hi
  refine ⟨?_, hg.setTemperature _ _ t, (g.extent_setTemperature _ _ t).symm⟩
  simp only [column, row, signedColumn, signedRow, ok_bind]
  exact setTemperature_eq hg _ _ t

theorem applyTo_eq {g : Grid Binary64} (hg : g.WellFormed) (s : Snapshot) :
    applyTo s g = .ok (s.applyTo g) := by
  have expected : word (s.extent.width.toNat * s.extent.height.toNat) = .ok s.extent.count :=
    word_eq (count_lt s.extent)
  rw [applyTo, expected, ok_bind]
  by_cases hcount : s.extent.count = s.temperatures.length
  · rw [if_neg (not_not_intro hcount)]
    by_cases hextent : s.extent = g.extent
    · rw [if_neg (not_not_intro hextent), setTemperatures_eq hg hextent hcount.symm,
        Snapshot.applyTo_eq_ok hcount hextent]
      rfl
    · rw [if_pos hextent, Snapshot.applyTo_of_extent_ne hcount hextent]
      rfl
  · rw [if_pos hcount, Snapshot.applyTo_of_count_ne hcount]
    rfl

end Guarded

/-! ### Fields that can come to be -/

/-- A snapshot is put into a field of its own making, so that the sizes agree, and it is
refused only when it lacks a temperature or has too many. -/
theorem Snapshot.toGrid_eq (s : Snapshot) :
    s.toGrid
      = if s.extent.count = s.temperatures.length then
          .ok ((Grid.withAmbient s.extent s.ambient).setTemperatures s.temperatures)
        else .error (.cellCount s.extent.count s.temperatures.length) := by
  by_cases hcount : s.extent.count = s.temperatures.length
  · have valid : s.validate = .ok () := if_pos hcount
    have applied := Snapshot.applyTo_eq_ok hcount (g := Grid.withAmbient s.extent s.ambient) rfl
    rw [if_pos hcount, Snapshot.toGrid, valid, applied]
    rfl
  · have refused : s.validate = .error (.cellCount s.extent.count s.temperatures.length) :=
      if_neg hcount
    rw [if_neg hcount, Snapshot.toGrid, refused]
    rfl

/-- What a field is made from. -/
inductive Origin where
  /-- An extent, with the default ambient temperature and rate. -/
  | standard (e : Extent)
  /-- An extent and an ambient temperature, with the default rate. -/
  | withAmbient (e : Extent) (ambient : Binary64)
  | config (c : Config)
  | snapshot (s : Snapshot)

namespace Origin

/-- The field that is made, if it can be made. -/
def grid? : Origin → Option (Grid Binary64)
  | standard e => some (Grid.standard e)
  | withAmbient e ambient => some (Grid.withAmbient e ambient)
  | config c => some (Grid.ofConfig c)
  | snapshot s => s.toGrid.toOption

def extent : Origin → Extent
  | standard e => e
  | withAmbient e _ => e
  | config c => c.extent
  | snapshot s => s.extent

def ambient : Origin → Binary64
  | standard _ => defaultAmbient
  | withAmbient _ ambient => ambient
  | config c => c.ambient
  | snapshot s => s.ambient

def rate : Origin → Binary64
  | config c => c.rate
  | _ => defaultRate

end Origin

/-- What can be done to a field. -/
inductive Change where
  | step (tick : UInt64)
  | force (x y : Int64) (t : Binary64)
  /-- A snapshot is put back, or refused. -/
  | apply (s : Snapshot)

/-- The tick of the last step after a change, given that of the last step before it. -/
def Change.tick (last : UInt64) : Change → UInt64
  | .step tick => tick
  | _ => last

/-- The tick of the last step among the changes, 0 if there is none. -/
def lastTick (changes : List Change) : UInt64 := changes.foldl Change.tick 0

namespace Grid

/-- The field after a change. -/
def change (g : Grid Binary64) : Change → Grid Binary64
  | .step tick => g.step tick
  | .force x y t => g.setTemperature x.toInt y.toInt t
  | .apply s =>
    match s.applyTo g with
    | .ok _ g' => g'
    | .error _ g' => g'

/-- No operation on the field hits a guard, whatever it is given. -/
structure Safe (g : Grid Binary64) : Prop where
  step : ∀ tick, Guarded.step tick g = .ok (g.step tick)
  temperatureAt : ∀ x y : Int64,
    Guarded.temperatureAt g x.toInt y.toInt = .ok (g.temperatureAt x.toInt y.toInt)
  setTemperature : ∀ (x y : Int64) (t : Binary64),
    Guarded.setTemperature g x.toInt y.toInt t = .ok (g.setTemperature x.toInt y.toInt t)
  row : ∀ y : UInt32, Guarded.row? g y.toNat = .ok (g.row? y.toNat)
  cell : ∀ x y : UInt32, Guarded.cell? g x.toNat y.toNat = .ok (g.cell? x.toNat y.toNat)
  applyTo : ∀ s : Snapshot, Guarded.applyTo s g = .ok (s.applyTo g)

theorem WellFormed.safe {g : Grid Binary64} (hg : g.WellFormed) : g.Safe where
  step tick := Guarded.step_eq hg tick
  temperatureAt x y := Guarded.temperatureAt_eq hg x.toInt y.toInt
  setTemperature x y t := Guarded.setTemperature_eq hg x.toInt y.toInt t
  row y := Guarded.row?_eq hg y.toNat
  cell x y := Guarded.cell?_eq hg x.toNat y.toNat
  applyTo s := Guarded.applyTo_eq hg s

/-! ### What is kept on the way -/

/-- The field has what its origin gave it, a cell for every place, and is settled. -/
structure Sound (g : Grid Binary64) (o : Origin) (tick : UInt64) : Prop where
  wellFormed : g.WellFormed
  settled : g.Settled tick
  extent_eq : g.extent = o.extent
  ambient_eq : g.ambient = o.ambient
  rate_eq : g.rate = o.rate

namespace Sound

variable {g : Grid Binary64} {o : Origin} {tick : UInt64}

theorem initial {e : Extent} {ambient rate : Binary64} (hextent : e = o.extent)
    (hambient : ambient = o.ambient) (hrate : rate = o.rate) :
    (Grid.initial e ambient rate).Sound o 0 :=
  ⟨wellFormed_initial e ambient rate, settled_initial e ambient rate, hextent, hambient, hrate⟩

theorem setTemperatures (h : g.Sound o tick) (ts : List Binary64) :
    (g.setTemperatures ts).Sound o tick where
  wellFormed := h.wellFormed.setTemperatures ts
  settled := h.settled.setTemperatures ts
  extent_eq := (g.extent_setTemperatures ts).trans h.extent_eq
  ambient_eq := (g.ambient_setTemperatures ts).trans h.ambient_eq
  rate_eq := (g.rate_setTemperatures ts).trans h.rate_eq

/-- A field begins sound, before the first step. -/
theorem of_origin (h : o.grid? = some g) : g.Sound o 0 := by
  cases o with
  | standard e =>
      cases h
      exact initial rfl rfl rfl
  | withAmbient e ambient =>
      cases h
      exact initial rfl rfl rfl
  | config c =>
      cases h
      exact initial rfl rfl rfl
  | snapshot s =>
      have blank : (Grid.withAmbient s.extent s.ambient).Sound (.snapshot s) 0 := initial rfl rfl rfl
      rw [Origin.grid?, s.toGrid_eq] at h
      by_cases hcount : s.extent.count = s.temperatures.length
      · rw [if_pos hcount] at h
        cases h
        exact blank.setTemperatures s.temperatures
      · rw [if_neg hcount] at h
        cases h

/-- **One change** keeps a field sound, and a step moves its tick. -/
theorem change (h : g.Sound o tick) (c : Change) :
    (g.change c).Sound o (c.tick tick) := by
  cases c with
  | step tick' =>
      exact ⟨h.wellFormed.step tick', h.wellFormed.settled_step tick', h.extent_eq, h.ambient_eq,
        h.rate_eq⟩
  | force x y t =>
      refine ⟨h.wellFormed.setTemperature _ _ t, h.settled.setTemperature _ _ t, ?_, ?_, ?_⟩
      · exact (g.extent_setTemperature _ _ t).trans h.extent_eq
      · exact (g.ambient_setTemperature _ _ t).trans h.ambient_eq
      · exact (g.rate_setTemperature _ _ t).trans h.rate_eq
  | apply s =>
      rcases s.applyTo_cases g with ⟨e, he⟩ | ⟨-, -, hok⟩
      · simp only [Grid.change, he]
        exact h
      · simp only [Grid.change, hok]
        exact h.setTemperatures s.temperatures

/-- **Any sequence of changes** keeps it sound, at the tick of the last step. -/
theorem changes (h : g.Sound o tick) (cs : List Change) :
    (cs.foldl Grid.change g).Sound o (cs.foldl Change.tick tick) := by
  induction cs generalizing g tick with
  | nil => exact h
  | cons c cs ih => exact ih (h.change c)

end Sound

/-- **Every field that can come to be is well-formed and safe to use.** Whatever a field
is made from, of whatever size, and whatever is done to it: there is a cell for every
place; all cells carry the tick of the last step and have nothing pending; size, ambient
temperature and rate are those that it was made with; and no operation on it, with any
arguments, reads or writes a cell that is not there, computes a number that does not fit
into 64 bits, or divides by zero. -/
theorem grown_safe {o : Origin} {g₀ : Grid Binary64} (h : o.grid? = some g₀)
    (changes : List Change) :
    let g := changes.foldl Grid.change g₀
    g.cells.size = o.extent.width.toNat * o.extent.height.toNat
    ∧ (∀ c ∈ g.cells, c.stamp = lastTick changes ∧ c.pending = c.temperature)
    ∧ g.extent = o.extent ∧ g.ambient = o.ambient ∧ g.rate = o.rate
    ∧ g.Safe := by
  intro g
  have sound : g.Sound o (lastTick changes) := (Sound.of_origin h).changes changes
  refine ⟨?_, ?_, sound.extent_eq, sound.ambient_eq, sound.rate_eq, sound.wellFormed.safe⟩
  · rw [← sound.extent_eq]
    exact sound.wellFormed
  · intro c hc
    exact (sound.settled c hc).symm

/-- A field of five rows without columns is stepped, set back to the snapshot that it was
made from and forced beyond its edge: it has rows without cells, and nothing is divided.
A field of two cells refuses that snapshot and keeps its stamps. -/
theorem grown_safe_narrow :
    let s : Snapshot :=
      { name := "", timestamp := 0, formatVersion := 1, extent := ⟨0, 5⟩, time := .zero
        ambient := .one, temperatures := [], creatures := [] }
    let changes : List Change := [.step 3, .apply s, .force (-1) 4 .two]
    let g := changes.foldl change (Grid.withAmbient ⟨0, 5⟩ .one)
    let g' := changes.foldl change (Grid.withAmbient ⟨1, 2⟩ .one)
    (Origin.snapshot s).grid? = some (Grid.withAmbient ⟨0, 5⟩ .one)
      ∧ g.cells.size = 0 ∧ Guarded.applyTo s g = .ok (s.applyTo g) ∧ Guarded.row? g 4 = .ok (some [])
      ∧ (Origin.withAmbient ⟨1, 2⟩ .one).grid? = some (Grid.withAmbient ⟨1, 2⟩ .one)
      ∧ g'.cells.size = 2 ∧ ∀ c ∈ g'.cells, c.stamp = 3 ∧ c.pending = c.temperature := by
  intro s changes g g'
  have made : (Origin.snapshot s).grid? = some (Grid.withAmbient ⟨0, 5⟩ .one) := rfl
  have made' : (Origin.withAmbient ⟨1, 2⟩ .one).grid? = some (Grid.withAmbient ⟨1, 2⟩ .one) := rfl
  obtain ⟨size, -, -, -, -, safe⟩ := grown_safe made changes
  obtain ⟨size', settled', -⟩ := grown_safe made' changes
  have row : g.row? 4 = some [] := by decide +kernel
  exact ⟨made, size, safe.applyTo s, (safe.row 4).trans (congrArg Except.ok row), made', size',
    settled'⟩

end Grid

end Thermoscape
