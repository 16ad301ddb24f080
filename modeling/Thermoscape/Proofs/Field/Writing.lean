import Thermoscape.Field.Grid

/-!
# Thermoscape.Proofs.Field.Writing

**What forcing temperatures does to the cells.** One forced temperature changes
one cell of the list of temperatures, or none. Forcing all of them, row by row,
goes through coordinates that are computed back from the number of a cell; the two
maps are inverse to each other on the numbers of the field (`index?_column_row`),
so the cells afterwards are the cells before with the new temperatures laid over
them one by one (`cells_setTemperatures`). No stamp is touched, and forcing what is
there already changes nothing (`setTemperatures_temperatures`).
-/

namespace Thermoscape

/-! ### Numbers and places -/

namespace Extent

variable {e : Extent} {i : Nat}

theorem column_lt (h : i < e.count) : e.column i < e.width.toNat := by
  refine Nat.mod_lt i (Nat.pos_of_ne_zero fun hzero => ?_)
  rw [count, hzero, Nat.zero_mul] at h
  exact Nat.not_lt_zero i h

theorem row_lt (h : i < e.count) : e.row i < e.height.toNat :=
  Nat.div_lt_of_lt_mul h

/-- The place of a cell has the number of the cell. -/
theorem index?_column_row (h : i < e.count) : e.index? (e.column i) (e.row i) = some i := by
  have hcolumn := column_lt h
  have hrow := row_lt h
  have inside : e.Contains (e.column i) (e.row i) := by
    refine ⟨?_, ?_, ?_, ?_⟩ <;> omega
  rw [index?_of_contains inside, Int.toNat_natCast, Int.toNat_natCast, column, row,
    Nat.mul_comm, Nat.div_add_mod]

end Extent

/-- A cell that is forced to what it shows and has pending stays as it is. -/
theorem Cell.force_temperature {α : Type} {c : Cell α} (h : c.pending = c.temperature) :
    c.force c.temperature = c := by
  obtain ⟨t, p, stamp⟩ := c
  obtain rfl : p = t := h
  rfl

namespace Grid

variable {α : Type} {g : Grid α}

theorem eq_of_fields {g' : Grid α} (hextent : g'.extent = g.extent)
    (hambient : g'.ambient = g.ambient) (hrate : g'.rate = g.rate) (hcells : g'.cells = g.cells) :
    g' = g := by
  cases g
  cases g'
  simp_all

theorem length_temperatures (g : Grid α) : g.temperatures.length = g.cells.size := by
  simp [temperatures]

theorem WellFormed.length_temperatures (h : g.WellFormed) :
    g.temperatures.length = g.extent.count := by
  rw [Grid.length_temperatures]
  exact h

/-! ### One temperature -/

theorem setTemperature_of_index {x y : Int} {i : Nat} (h : g.extent.index? x y = some i) (t : α) :
    g.setTemperature x y t = { g with cells := g.cells.modify i (Cell.force · t) } := by
  rw [setTemperature, h]

theorem setTemperature_of_none {x y : Int} (h : g.extent.index? x y = none) (t : α) :
    g.setTemperature x y t = g := by
  rw [setTemperature, h]

/-- Forcing a temperature sets it in the list of temperatures, or leaves the list
as it is. -/
theorem temperatures_setTemperature (g : Grid α) (x y : Int) (t : α) :
    (g.setTemperature x y t).temperatures
      = match g.extent.index? x y with
        | some i => g.temperatures.set i t
        | none => g.temperatures := by
  cases h : g.extent.index? x y with
  | none => rw [setTemperature_of_none h]
  | some i =>
      rw [setTemperature_of_index h]
      apply List.ext_getElem?
      intro j
      simp only [temperatures, List.getElem?_map, Array.getElem?_toList, Array.getElem?_modify]
      by_cases hij : i = j
      · subst hij
        rw [if_pos rfl, List.getElem?_set_self', List.getElem?_map, Array.getElem?_toList]
        cases g.cells[i]? with
        | none => rfl
        | some c => rfl
      · rw [if_neg hij, List.getElem?_set_ne hij, List.getElem?_map, Array.getElem?_toList]

/-- The stamps, row by row. -/
def stamps (g : Grid α) : List UInt64 := g.cells.toList.map Cell.stamp

/-- Forcing a temperature leaves every stamp as it is. -/
theorem stamps_setTemperature (g : Grid α) (x y : Int) (t : α) :
    (g.setTemperature x y t).stamps = g.stamps := by
  cases h : g.extent.index? x y with
  | none => rw [setTemperature_of_none h]
  | some i =>
      rw [setTemperature_of_index h]
      apply List.ext_getElem?
      intro j
      simp only [stamps, List.getElem?_map, Array.getElem?_toList, Array.getElem?_modify]
      by_cases hij : i = j
      · rw [if_pos hij, Option.map_map]
        rfl
      · rw [if_neg hij]

/-! ### All temperatures -/

/-- What every forced temperature keeps is kept when all are forced. -/
theorem setTemperatures_induction {motive : Grid α → Prop} (h : motive g)
    (step : ∀ g x y t, motive g → motive (g.setTemperature x y t)) (ts : List α) :
    motive (g.setTemperatures ts) := by
  unfold setTemperatures
  generalize ts.zipIdx = pairs
  induction pairs generalizing g with
  | nil => exact h
  | cons p pairs ih => exact ih (step g _ _ p.1 h)

@[simp] theorem extent_setTemperatures (g : Grid α) (ts : List α) :
    (g.setTemperatures ts).extent = g.extent :=
  setTemperatures_induction (motive := fun g' => g'.extent = g.extent) rfl
    (fun g' x y t h => (g'.extent_setTemperature x y t).trans h) ts

@[simp] theorem ambient_setTemperatures (g : Grid α) (ts : List α) :
    (g.setTemperatures ts).ambient = g.ambient :=
  setTemperatures_induction (motive := fun g' => g'.ambient = g.ambient) rfl
    (fun g' x y t h => (g'.ambient_setTemperature x y t).trans h) ts

@[simp] theorem rate_setTemperatures (g : Grid α) (ts : List α) :
    (g.setTemperatures ts).rate = g.rate :=
  setTemperatures_induction (motive := fun g' => g'.rate = g.rate) rfl
    (fun g' x y t h => (g'.rate_setTemperature x y t).trans h) ts

theorem stamps_setTemperatures (g : Grid α) (ts : List α) :
    (g.setTemperatures ts).stamps = g.stamps :=
  setTemperatures_induction (motive := fun g' => g'.stamps = g.stamps) rfl
    (fun g' x y t h => (g'.stamps_setTemperature x y t).trans h) ts

theorem WellFormed.setTemperatures (h : g.WellFormed) (ts : List α) :
    (g.setTemperatures ts).WellFormed :=
  setTemperatures_induction h (fun _ x y t h => h.setTemperature x y t) ts

/-- The loop of `setTemperatures` from cell `first` on: each of the next cells gets
its temperature, and all others are left alone. -/
theorem getElem?_setTemperatures_from (ts : List α) (first : Nat)
    (h : first + ts.length ≤ g.extent.count) (j : Nat) :
    ((ts.zipIdx first).foldl
        (fun g (t, i) => g.setTemperature (g.extent.column i) (g.extent.row i) t) g).cells[j]?
      = if first ≤ j then
          match ts[j - first]? with
          | some t => g.cells[j]?.map (Cell.force · t)
          | none => g.cells[j]?
        else g.cells[j]? := by
  induction ts generalizing g first with
  | nil => simp
  | cons t ts ih =>
      rw [List.length_cons] at h
      have index := Extent.index?_column_row (e := g.extent) (i := first) (by omega)
      rw [List.zipIdx_cons, List.foldl_cons, ih]
      · simp only [setTemperature_of_index index]
        -- Cell `j` has been passed, is the one just forced, or is still to come.
        rcases Nat.lt_trichotomy j first with hlt | rfl | hgt
        · have hbelow : ¬ first + 1 ≤ j := by omega
          have hother : ¬ first = j := by omega
          simp [hbelow, hother, Nat.not_le.mpr hlt, Array.getElem?_modify]
        · have hbelow : ¬ j + 1 ≤ j := by omega
          simp [hbelow, Array.getElem?_modify]
        · have habove : first + 1 ≤ j := hgt
          have hother : ¬ first = j := by omega
          have hstep : j - first = j - (first + 1) + 1 := by omega
          simp [habove, hother, hstep, Nat.le_of_lt hgt, Array.getElem?_modify]
      · simp only [extent_setTemperature]
        omega

/-- **Forcing all temperatures** lays them over the cells, one by one. -/
theorem cells_setTemperatures (h : g.WellFormed) {ts : List α}
    (hlength : ts.length = g.extent.count) :
    (g.setTemperatures ts).cells.toList = List.zipWith Cell.force g.cells.toList ts := by
  apply List.ext_getElem?
  intro j
  have loop := getElem?_setTemperatures_from ts 0 (g := g) (by omega) j
  rw [if_pos (Nat.zero_le j), Nat.sub_zero] at loop
  rw [List.getElem?_zipWith, Array.getElem?_toList, Array.getElem?_toList, setTemperatures, loop]
  -- There is a temperature exactly where there is a cell.
  by_cases hj : j < g.extent.count
  · rw [List.getElem?_eq_getElem (hlength ▸ hj), Array.getElem?_eq_getElem (h ▸ hj)]
    rfl
  · rw [List.getElem?_eq_none (by omega), Array.getElem?_eq_none (by rw [h]; omega)]

/-- The temperatures are then those that were forced. -/
theorem temperatures_setTemperatures (h : g.WellFormed) {ts : List α}
    (hlength : ts.length = g.extent.count) : (g.setTemperatures ts).temperatures = ts := by
  have sizes : g.cells.toList.length = ts.length := by
    rw [hlength, Array.length_toList]
    exact h
  rw [temperatures, cells_setTemperatures h hlength, List.map_zipWith]
  show List.zipWith (fun _ t => t) g.cells.toList ts = ts
  apply List.ext_getElem
  · simp [sizes]
  · intro i h₁ h₂
    simp

/-- After that no cell has another value pending. -/
theorem pending_setTemperatures (h : g.WellFormed) {ts : List α}
    (hlength : ts.length = g.extent.count) :
    ∀ c ∈ (g.setTemperatures ts).cells, c.pending = c.temperature := by
  intro c hc
  rw [← Array.mem_toList_iff, cells_setTemperatures h hlength, List.mem_iff_getElem?] at hc
  obtain ⟨i, hi⟩ := hc
  obtain ⟨before, t, -, -, rfl⟩ := List.getElem?_zipWith_eq_some.mp hi
  rfl

/-- Forcing the temperatures that are there already changes nothing in a field with nothing
pending. -/
theorem setTemperatures_temperatures (h : g.WellFormed)
    (hpending : ∀ c ∈ g.cells, c.pending = c.temperature) :
    g.setTemperatures g.temperatures = g := by
  refine eq_of_fields (g.extent_setTemperatures _) (g.ambient_setTemperatures _)
    (g.rate_setTemperatures _) (Array.toList_inj.mp ?_)
  calc (g.setTemperatures g.temperatures).cells.toList
      = List.zipWith Cell.force g.cells.toList (g.cells.toList.map Cell.temperature) :=
        cells_setTemperatures h h.length_temperatures
    _ = g.cells.toList.map fun c => c.force c.temperature := by
        rw [List.zipWith_map_right, List.zipWith_self]
    _ = g.cells.toList.map id :=
        List.map_congr_left fun c hc =>
          Cell.force_temperature (hpending c (Array.mem_toList_iff.mp hc))
    _ = g.cells.toList := List.map_id _

end Grid

end Thermoscape
