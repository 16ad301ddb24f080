import Thermoscape.Proofs.Field.Writing

/-!
# Thermoscape.Proofs.Field.Places

**Places and numbers of cells are two names for one thing.** The number of a place
is a map onto the numbers below `count`, and the column and the row of a number are
its inverse (`index?_eq_some_iff`). A well-formed field therefore has a cell at every
place of its extent, which is the cell of that number, and at no other place.

Going through the numbers in order is going through the rows from the top, and
through each row from the left (`rowMajor_eq_flatMap`).
-/

namespace Thermoscape

namespace Extent

variable {e : Extent}

/-- Two sides make an extent. -/
theorem eq_of_sides {e' : Extent} (hwidth : e.width = e'.width) (hheight : e.height = e'.height) :
    e = e' := by
  cases e
  cases e'
  simp_all

/-! ### Numbers of places -/

/-- A place of the field has a number below `count`. -/
theorem number_lt {x y : Nat} (hx : x < e.width.toNat) (hy : y < e.height.toNat) :
    y * e.width.toNat + x < e.count := by
  calc y * e.width.toNat + x
      < y * e.width.toNat + e.width.toNat := Nat.add_lt_add_left hx _
    _ = (y + 1) * e.width.toNat := (Nat.succ_mul y _).symm
    _ ≤ e.height.toNat * e.width.toNat := Nat.mul_le_mul_right _ hy
    _ = e.count := Nat.mul_comm _ _

theorem column_number {x : Nat} (hx : x < e.width.toNat) (y : Nat) :
    e.column (y * e.width.toNat + x) = x := by
  rw [column, Nat.mul_comm, Nat.mul_add_mod, Nat.mod_eq_of_lt hx]

theorem row_number {x : Nat} (hx : x < e.width.toNat) (y : Nat) :
    e.row (y * e.width.toNat + x) = y := by
  have hwidth : 0 < e.width.toNat := Nat.zero_lt_of_lt hx
  rw [row, Nat.mul_comm, Nat.mul_add_div hwidth, Nat.div_eq_of_lt hx, Nat.add_zero]

theorem contains_natCast_iff {x y : Nat} :
    e.Contains x y ↔ x < e.width.toNat ∧ y < e.height.toNat := by
  unfold Contains
  omega

/-- **Numbers and places correspond**: a place has the number `i` exactly when it is
the place of cell `i`. -/
theorem index?_eq_some_iff {x y : Int} {i : Nat} :
    e.index? x y = some i ↔ i < e.count ∧ x = e.column i ∧ y = e.row i := by
  constructor
  · intro h
    by_cases inside : e.Contains x y
    · -- The coordinates of a place in the field are natural numbers.
      obtain ⟨hx₀, hx, hy₀, hy⟩ := inside
      obtain ⟨a, rfl⟩ := Int.eq_ofNat_of_zero_le hx₀
      obtain ⟨b, rfl⟩ := Int.eq_ofNat_of_zero_le hy₀
      have ha : a < e.width.toNat := Int.ofNat_lt.mp hx
      have hb : b < e.height.toNat := Int.ofNat_lt.mp hy
      rw [index?_of_contains (contains_natCast_iff.mpr ⟨ha, hb⟩)] at h
      obtain rfl : b * e.width.toNat + a = i := Option.some.inj h
      exact ⟨number_lt ha hb, by rw [column_number ha], by rw [row_number ha]⟩
    · rw [index?_of_not_contains inside] at h
      cases h
  · intro hplace
    obtain ⟨hi, rfl, rfl⟩ := hplace
    exact index?_column_row hi

/-- No two places have one number. -/
theorem index?_inj {x y x' y' : Int} {i : Nat} (h : e.index? x y = some i)
    (h' : e.index? x' y' = some i) : (x', y') = (x, y) := by
  obtain ⟨-, rfl, rfl⟩ := index?_eq_some_iff.mp h
  obtain ⟨-, rfl, rfl⟩ := index?_eq_some_iff.mp h'
  rfl

/-- The places above, below, left and right of a place, in the order of the directions. -/
theorem four_places (x y : Int) :
    [(x, y - 1), (x, y + 1), (x - 1, y), (x + 1, y)]
      = directions.map fun d => (x + d.1, y + d.2) := by
  simp [directions, Int.sub_eq_add_neg]

/-! ### Row by row -/

/-- The numbers in order are the rows from the top, each from the left. -/
theorem rowMajor_eq_flatMap (e : Extent) :
    e.rowMajor = (List.range e.height.toNat).flatMap fun y =>
      (List.range e.width.toNat).map fun x => y * e.width.toNat + x := by
  rw [rowMajor, count, Nat.mul_comm]
  generalize e.width.toNat = width
  induction e.height.toNat with
  | zero => rw [Nat.zero_mul]; rfl
  | succ rows ih =>
      rw [Nat.succ_mul, List.range_add, ih, List.range_succ, List.flatMap_append]
      simp

end Extent

/-! ### The cells of a well-formed field -/

namespace Grid

variable {α : Type} {g : Grid α} {x y : Int} {i : Nat}

theorem cell?_of_index (h : g.extent.index? x y = some i) : g.cell? x y = g.cells[i]? := by
  rw [cell?, h]
  rfl

theorem cell?_of_not_contains (h : ¬ g.extent.Contains x y) : g.cell? x y = none := by
  rw [cell?, Extent.index?_of_not_contains h]
  rfl

/-- Every number below `count` is that of a cell. -/
theorem WellFormed.exists_cell (hg : g.WellFormed) (hi : i < g.extent.count) :
    ∃ c, g.cells[i]? = some c :=
  ⟨_, Array.getElem?_eq_getElem (hg ▸ hi)⟩

/-- Every place of the field has a cell. -/
theorem WellFormed.exists_cell? (hg : g.WellFormed) (inside : g.extent.Contains x y) :
    ∃ c, g.cell? x y = some c := by
  have index := Extent.index?_of_contains inside
  obtain ⟨c, hc⟩ := hg.exists_cell (Extent.index?_eq_some_iff.mp index).1
  exact ⟨c, (cell?_of_index index).trans hc⟩

/-- The temperature at a place, if there is a cell there. -/
theorem WellFormed.map_temperature_cell? (hg : g.WellFormed) (x y : Int) :
    (g.cell? x y).map Cell.temperature
      = if g.extent.Contains x y then some (g.temperatureAt x y) else none := by
  by_cases inside : g.extent.Contains x y
  · obtain ⟨c, hcell⟩ := hg.exists_cell? inside
    rw [if_pos inside, temperatureAt, hcell]
    rfl
  · rw [if_neg inside, cell?_of_not_contains inside]
    rfl

/-- A well-formed field is determined by the cells at its places. -/
theorem eq_of_cell? {g' : Grid α} (hg : g.WellFormed) (hg' : g'.WellFormed)
    (hextent : g'.extent = g.extent) (hambient : g'.ambient = g.ambient)
    (hrate : g'.rate = g.rate)
    (hcell : ∀ x y, g.extent.Contains x y → g'.cell? x y = g.cell? x y) : g' = g := by
  have hcells : g'.cells = g.cells := by
    apply Array.ext_getElem?
    intro i
    by_cases hi : i < g.extent.count
    · have index := Extent.index?_column_row hi
      have index' : g'.extent.index? (g.extent.column i) (g.extent.row i) = some i := by
        rw [hextent]
        exact index
      have same := hcell _ _ (Extent.contains_natCast_iff.mpr
        ⟨Extent.column_lt hi, Extent.row_lt hi⟩)
      rwa [cell?_of_index index, cell?_of_index index'] at same
    · have hsize : g.cells.size ≤ i := hg ▸ Nat.not_lt.mp hi
      have hsize' : g'.cells.size ≤ i := by
        rw [hg', hextent]
        exact Nat.not_lt.mp hi
      rw [Array.getElem?_eq_none hsize, Array.getElem?_eq_none hsize']
  exact eq_of_fields hextent hambient hrate hcells

/-- Forcing the temperature at a place changes no other place: no two places share a cell. -/
theorem cell?_setTemperature_of_ne {x' y' : Int} (h : (x', y') ≠ (x, y)) (t : α) :
    (g.setTemperature x y t).cell? x' y' = g.cell? x' y' := by
  cases hindex : g.extent.index? x y with
  | none => rw [setTemperature_of_none hindex]
  | some i =>
      rw [setTemperature_of_index hindex, cell?, cell?]
      cases hindex' : g.extent.index? x' y' with
      | none => rfl
      | some j =>
          have hij : ¬ i = j := by
            rintro rfl
            exact h (Extent.index?_inj hindex hindex')
          rw [Option.bind_some, Option.bind_some, Array.getElem?_modify, if_neg hij]

theorem temperatureAt_setTemperature_of_ne {x' y' : Int} (h : (x', y') ≠ (x, y)) (t : α) :
    (g.setTemperature x y t).temperatureAt x' y' = g.temperatureAt x' y' := by
  rw [temperatureAt, temperatureAt, cell?_setTemperature_of_ne h, ambient_setTemperature]

end Grid

end Thermoscape
