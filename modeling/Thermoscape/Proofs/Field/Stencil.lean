import Thermoscape.Field.Diffusion
import Thermoscape.Proofs.Field.Writing

/-!
# Thermoscape.Proofs.Field.Stencil

**A step changes all cells at once.** The sweep goes through the cells one after
the other and writes into the array that it reads. It reads temperatures and
writes pending values, so that visiting a cell changes nothing that another visit
looks at: `getElem?_sweep` gives every cell after a sweep in terms of the cells
*before* it. What is left after the commit is the stencil: each temperature of the
next step is a function of the temperatures of this one, and of nothing else that
the cells carry (`temperatures_step`). Step after step, fields of the same size and
rate go on alike from the same temperatures (`temperatures_steps_congr`).

No law of arithmetic is used anywhere, so that all of this holds for rounded
numbers.
-/

namespace Thermoscape

variable {α : Type} [Scalar α]

namespace Diffusion

/-- The temperatures of the neighbours of a cell, in a list of temperatures. -/
def surroundings (e : Extent) (ts : List α) (i : Nat) : List α :=
  (e.neighbours (e.column i) (e.row i)).filterMap fun n => ts[n]?

/-- What the temperatures become in one step, all at once. -/
def stencil (e : Extent) (rate : α) (ts : List α) : List α :=
  ts.mapIdx fun i t => relax rate t (surroundings e ts i)

omit [Scalar α] in
/-- The neighbours of a cell are read through their temperatures only. -/
theorem around_eq_surroundings (e : Extent) (cells : Array (Cell α)) (i : Nat) :
    around e cells i = surroundings e (cells.toList.map Cell.temperature) i := by
  unfold around surroundings
  congr 1
  funext n
  rw [List.getElem?_map, Array.getElem?_toList]

/-- What a cell will become, by the cells before the step. -/
def next (e : Extent) (rate : α) (cells : Array (Cell α)) (i : Nat) (c : Cell α) : α :=
  relax rate c.temperature (around e cells i)

/-! ### The sweep -/

/-- A visit writes one pending value. -/
theorem getElem?_visit (e : Extent) (rate : α) (cells : Array (Cell α)) (i j : Nat) :
    (visit e rate cells i)[j]?
      = cells[j]?.map fun c => if j = i then { c with pending := next e rate cells i c } else c := by
  unfold visit
  split
  · next c hc =>
    rw [Array.getElem?_setIfInBounds]
    by_cases hij : i = j
    · subst hij
      obtain ⟨hi, rfl⟩ := Array.getElem?_eq_some_iff.mp hc
      simp [hi, next]
    · simp [hij, Ne.symm hij]
  · next hc =>
    by_cases hij : j = i
    · subst hij
      rw [hc]
      rfl
    · simp [hij]

/-- A visit changes no temperature. -/
theorem temperatures_visit (e : Extent) (rate : α) (cells : Array (Cell α)) (i : Nat) :
    (visit e rate cells i).toList.map Cell.temperature = cells.toList.map Cell.temperature := by
  apply List.ext_getElem?
  intro j
  rw [List.getElem?_map, List.getElem?_map, Array.getElem?_toList, Array.getElem?_toList,
    getElem?_visit, Option.map_map]
  congr 1
  funext c
  by_cases hij : j = i
  · simp [hij]
  · simp [hij]

/-- So it changes nothing that another visit looks at. -/
theorem around_visit (e : Extent) (rate : α) (cells : Array (Cell α)) (i j : Nat) :
    around e (visit e rate cells i) j = around e cells j := by
  rw [around_eq_surroundings, around_eq_surroundings, temperatures_visit]

/-- **The sweep, cell by cell.** Whatever the order and however often a cell is
visited, its pending value is computed from the cells before the sweep. -/
theorem getElem?_sweep (e : Extent) (rate : α) (order : List Nat) (cells : Array (Cell α))
    (j : Nat) :
    (sweep e rate order cells)[j]?
      = cells[j]?.map fun c =>
          if j ∈ order then { c with pending := next e rate cells j c } else c := by
  induction order generalizing cells with
  | nil => simp [sweep]
  | cons i order ih =>
      show (sweep e rate order (visit e rate cells i))[j]? = _
      rw [ih, getElem?_visit, Option.map_map]
      congr 1
      funext c
      -- A later visit to the same cell writes the same value again.
      have again : ∀ c', c'.temperature = c.temperature →
          next e rate (visit e rate cells i) j c' = next e rate cells j c := by
        intro c' h
        rw [next, next, around_visit, h]
      by_cases hij : j = i
      · subst hij
        by_cases hj : j ∈ order
        · simp [hj, again]
        · simp [hj]
      · by_cases hj : j ∈ order
        · simp [hj, hij, again]
        · simp [hj, hij]

end Diffusion

/-! ### The step -/

namespace Grid

/-- **A step, cell by cell**, when every cell is visited. -/
theorem getElem?_stepIn {g : Grid α} {order : List Nat} (h : ∀ i < g.cells.size, i ∈ order)
    (tick : UInt64) (j : Nat) :
    (g.stepIn order tick).cells[j]?
      = g.cells[j]?.map fun c =>
          let t := Diffusion.next g.extent g.rate g.cells j c
          ⟨t, t, tick⟩ := by
  show (Diffusion.commit tick (Diffusion.sweep g.extent g.rate order g.cells))[j]? = _
  rw [Diffusion.commit, Array.getElem?_map, Diffusion.getElem?_sweep, Option.map_map]
  by_cases hj : j < g.cells.size
  · rw [Array.getElem?_eq_getElem hj]
    simp [h j hj]
  · rw [Array.getElem?_eq_none (Nat.not_lt.mp hj)]
    rfl

omit [Scalar α] in
/-- Row by row every cell is visited. -/
theorem mem_rowMajor {g : Grid α} (h : g.WellFormed) :
    ∀ i < g.cells.size, i ∈ g.extent.rowMajor := by
  intro i hi
  rw [Extent.rowMajor, List.mem_range, ← h]
  exact hi

/-- **The temperatures of the next step** are the stencil of those of this one. -/
theorem temperatures_step {g : Grid α} (h : g.WellFormed) (tick : UInt64) :
    (g.step tick).temperatures = Diffusion.stencil g.extent g.rate g.temperatures := by
  apply List.ext_getElem?
  intro j
  rw [temperatures, List.getElem?_map, Array.getElem?_toList, step,
    getElem?_stepIn (mem_rowMajor h), Option.map_map, Diffusion.stencil, List.getElem?_mapIdx,
    temperatures, List.getElem?_map, Array.getElem?_toList, Option.map_map]
  -- Both sides are functions of the cell at `j`, if there is one.
  congr 1
  funext c
  simp [Diffusion.next, Diffusion.around_eq_surroundings]

/-! ### Step after step -/

/-- The field after steps with the given ticks. -/
def steps (g : Grid α) (ticks : List UInt64) : Grid α :=
  ticks.foldl (fun g tick => g.step tick) g

@[simp] theorem steps_nil (g : Grid α) : g.steps [] = g := rfl

@[simp] theorem steps_cons (g : Grid α) (tick : UInt64) (ticks : List UInt64) :
    g.steps (tick :: ticks) = (g.step tick).steps ticks := rfl

theorem steps_append (g : Grid α) (ticks ticks' : List UInt64) :
    g.steps (ticks ++ ticks') = (g.steps ticks).steps ticks' :=
  List.foldl_append

/-- The last step of a run. -/
theorem steps_concat (g : Grid α) (ticks : List UInt64) (tick : UInt64) :
    g.steps (ticks ++ [tick]) = (g.steps ticks).step tick :=
  steps_append g ticks [tick]

@[simp] theorem extent_steps (g : Grid α) (ticks : List UInt64) :
    (g.steps ticks).extent = g.extent := by
  induction ticks generalizing g with
  | nil => rfl
  | cons tick ticks ih => exact ih (g.step tick)

@[simp] theorem rate_steps (g : Grid α) (ticks : List UInt64) :
    (g.steps ticks).rate = g.rate := by
  induction ticks generalizing g with
  | nil => rfl
  | cons tick ticks ih => exact ih (g.step tick)

theorem WellFormed.steps {g : Grid α} (h : g.WellFormed) (ticks : List UInt64) :
    (g.steps ticks).WellFormed := by
  induction ticks generalizing g with
  | nil => exact h
  | cons tick ticks ih => exact ih (h.step tick)

/-- Fields of the same size and rate with the same temperatures **go on alike**. -/
theorem temperatures_steps_congr {g g' : Grid α} (hg : g.WellFormed) (hg' : g'.WellFormed)
    (hextent : g.extent = g'.extent) (hrate : g.rate = g'.rate)
    (htemperatures : g.temperatures = g'.temperatures) (ticks : List UInt64) :
    (g.steps ticks).temperatures = (g'.steps ticks).temperatures := by
  induction ticks generalizing g g' with
  | nil => exact htemperatures
  | cons tick ticks ih =>
      refine ih (hg.step tick) (hg'.step tick) hextent hrate ?_
      rw [temperatures_step hg, temperatures_step hg', hextent, hrate, htemperatures]

end Grid

end Thermoscape
