import Thermoscape.Proofs.Field.Places

/-!
# Thermoscape.Proofs.Field.Views

**A field is a map from places to temperatures.** After any writes the temperature at a
place is the last one that was written there, or the one it had before; a place outside the
field has the ambient temperature whatever is written to it. No write reaches another place,
since no two places share a cell, so writes to different places may be exchanged.

The cells can be looked at in several ways, each of which finds them by another computation:
a single cell through the bounds of its coordinates, a row as a stretch of the cells from
its first number on, the cells and the temperatures by their number. `ViewsAgree` says that
all of them show the same cells; it holds of every well-formed field, of one without columns
too, whose rows are there and empty.
-/

namespace Thermoscape

/-- A temperature that is to be forced at a place, inside the field or outside. -/
structure Write (α : Type) where
  x : Int
  y : Int
  value : α

variable {α : Type}

/-- The last temperature that is written to a place. -/
def lastWritten (x y : Int) (ws : List (Write α)) : Option α :=
  (ws.reverse.find? fun w => w.x = x ∧ w.y = y).map Write.value

/-- An earlier write counts when there is no later one to the same place. -/
theorem lastWritten_cons (x y : Int) (w : Write α) (ws : List (Write α)) :
    lastWritten x y (w :: ws)
      = (lastWritten x y ws).or (if w.x = x ∧ w.y = y then some w.value else none) := by
  rw [lastWritten, lastWritten, List.reverse_cons, List.find?_append, Option.map_or]
  by_cases h : w.x = x ∧ w.y = y
  · simp [h]
  · simp [h]

namespace Grid

variable {g : Grid α} {x y x' y' : Int}

/-- The field after writes, one after the other. -/
def writes (g : Grid α) (ws : List (Write α)) : Grid α :=
  ws.foldl (fun g w => g.setTemperature w.x w.y w.value) g

@[simp] theorem writes_cons (g : Grid α) (w : Write α) (ws : List (Write α)) :
    g.writes (w :: ws) = (g.setTemperature w.x w.y w.value).writes ws := rfl

/-! ### One write -/

theorem setTemperature_of_not_contains (h : ¬ g.extent.Contains x y) (t : α) :
    g.setTemperature x y t = g :=
  setTemperature_of_none (Extent.index?_of_not_contains h) t

theorem temperatureAt_of_not_contains (h : ¬ g.extent.Contains x y) :
    g.temperatureAt x y = g.ambient := by
  rw [temperatureAt, cell?_of_not_contains h]

theorem cells_setTemperature {i : Nat} (h : g.extent.index? x y = some i) (t : α) :
    (g.setTemperature x y t).cells = g.cells.modify i (Cell.force · t) := by
  rw [setTemperature_of_index h]

/-- What is written inside the field is seen at once. -/
theorem WellFormed.temperatureAt_setTemperature (hg : g.WellFormed)
    (inside : g.extent.Contains x y) (t : α) :
    (g.setTemperature x y t).temperatureAt x y = t := by
  obtain ⟨i, index⟩ : ∃ i, g.extent.index? x y = some i := ⟨_, Extent.index?_of_contains inside⟩
  obtain ⟨c, hc⟩ := hg.exists_cell (Extent.index?_eq_some_iff.mp index).1
  have index' : (g.setTemperature x y t).extent.index? x y = some i := by
    rw [extent_setTemperature, index]
  have written : (g.setTemperature x y t).cell? x y = some (c.force t) := by
    rw [cell?_of_index index', cells_setTemperature index, Array.getElem?_modify, if_pos rfl, hc]
    rfl
  rw [temperatureAt, written]
  rfl

/-- **Writes to different places may be exchanged.** -/
theorem setTemperature_comm (h : (x', y') ≠ (x, y)) (t t' : α) :
    (g.setTemperature x y t).setTemperature x' y' t'
      = (g.setTemperature x' y' t').setTemperature x y t := by
  have index (a b a' b' : Int) (u : α) :
      (g.setTemperature a b u).extent.index? a' b' = g.extent.index? a' b' := by
    rw [extent_setTemperature]
  cases hi : g.extent.index? x y with
  | none =>
      have hi' := (index x' y' x y t').trans hi
      rw [setTemperature_of_none hi, setTemperature_of_none hi']
  | some i =>
      have hi' := (index x' y' x y t').trans hi
      cases hj : g.extent.index? x' y' with
      | none =>
          have hj' := (index x y x' y' t).trans hj
          rw [setTemperature_of_none hj, setTemperature_of_none hj']
      | some j =>
          have hj' := (index x y x' y' t).trans hj
          have hij : i ≠ j := by
            rintro rfl
            exact h (Extent.index?_inj hi hj)
          refine eq_of_fields (by simp) (by simp) (by simp) ?_
          rw [cells_setTemperature hj', cells_setTemperature hi, cells_setTemperature hi',
            cells_setTemperature hj]
          apply Array.ext_getElem?
          intro k
          -- Cell `k` is changed by at most one of the two writes.
          simp only [Array.getElem?_modify]
          by_cases hk : i = k
          · subst hk
            simp [Ne.symm hij]
          · simp [hk]

/-! ### All writes -/

@[simp] theorem extent_writes (g : Grid α) (ws : List (Write α)) :
    (g.writes ws).extent = g.extent := by
  induction ws generalizing g with
  | nil => rfl
  | cons w ws ih => rw [writes_cons, ih, extent_setTemperature]

@[simp] theorem ambient_writes (g : Grid α) (ws : List (Write α)) :
    (g.writes ws).ambient = g.ambient := by
  induction ws generalizing g with
  | nil => rfl
  | cons w ws ih => rw [writes_cons, ih, ambient_setTemperature]

theorem stamps_writes (g : Grid α) (ws : List (Write α)) : (g.writes ws).stamps = g.stamps := by
  induction ws generalizing g with
  | nil => rfl
  | cons w ws ih => rw [writes_cons, ih, stamps_setTemperature]

theorem WellFormed.writes (hg : g.WellFormed) (ws : List (Write α)) :
    (g.writes ws).WellFormed := by
  induction ws generalizing g with
  | nil => exact hg
  | cons w ws ih => exact ih (hg.setTemperature w.x w.y w.value)

/-- **The last write counts.** -/
theorem WellFormed.temperatureAt_writes (hg : g.WellFormed) (inside : g.extent.Contains x y)
    (ws : List (Write α)) :
    (g.writes ws).temperatureAt x y = (lastWritten x y ws).getD (g.temperatureAt x y) := by
  induction ws generalizing g with
  | nil => rfl
  | cons w ws ih =>
      have inside' : (g.setTemperature w.x w.y w.value).extent.Contains x y := by
        rw [extent_setTemperature]
        exact inside
      rw [writes_cons, ih (hg.setTemperature _ _ _) inside', lastWritten_cons, Option.getD_or]
      -- What the first write leaves at the place is what the later ones begin with.
      congr 1
      by_cases h : w.x = x ∧ w.y = y
      · obtain ⟨rfl, rfl⟩ := h
        rw [if_pos ⟨rfl, rfl⟩, hg.temperatureAt_setTemperature inside, Option.getD_some]
      · have other : (x, y) ≠ (w.x, w.y) := by
          intro heq
          exact h ⟨(congrArg Prod.fst heq).symm, (congrArg Prod.snd heq).symm⟩
        rw [if_neg h, temperatureAt_setTemperature_of_ne other, Option.getD_none]

/-! ### Rows -/

theorem row?_of_lt {y : Nat} (h : y < g.extent.height.toNat) :
    g.row? y
      = some ((g.cells.toList.drop (y * g.extent.width.toNat)).take g.extent.width.toNat) := by
  simp only [row?, if_pos h, Array.toList_extract, List.extract_eq_take_drop,
    Nat.add_sub_cancel_left]

/-- A row of the field ends at its last cell or before it. -/
theorem WellFormed.row_end_le (hg : g.WellFormed) {y : Nat} (h : y < g.extent.height.toNat) :
    y * g.extent.width.toNat + g.extent.width.toNat ≤ g.cells.toList.length := by
  rw [Array.length_toList, hg, Extent.count, ← Nat.succ_mul, Nat.mul_comm g.extent.width.toNat]
  exact Nat.mul_le_mul_right _ h

theorem WellFormed.length_row (hg : g.WellFormed) {y : Nat} {row : List (Cell α)}
    (h : g.row? y = some row) : row.length = g.extent.width.toNat := by
  by_cases hy : y < g.extent.height.toNat
  · have bound := hg.row_end_le hy
    rw [row?_of_lt hy] at h
    cases h
    rw [List.length_take, List.length_drop]
    omega
  · rw [row?, if_neg hy] at h
    cases h

/-- The first rows, one behind the other, are the first cells. -/
theorem flatMap_row? (g : Grid α) {n : Nat} (hn : n ≤ g.extent.height.toNat) :
    (List.range n).flatMap (fun y => (g.row? y).getD [])
      = g.cells.toList.take (n * g.extent.width.toNat) := by
  induction n with
  | zero => simp
  | succ n ih =>
      rw [List.range_succ, List.flatMap_append, ih (Nat.le_of_succ_le hn), Nat.succ_mul,
        List.take_add, List.flatMap_singleton, row?_of_lt hn, Option.getD_some]

/-! ### The views -/

/-- Rows, cells and temperatures show the same field. -/
structure ViewsAgree (g : Grid α) : Prop where
  isSome_row_iff : ∀ y, (g.row? y).isSome ↔ y < g.extent.height.toNat
  length_row : ∀ {y row}, g.row? y = some row → row.length = g.extent.width.toNat
  isSome_cell_iff : ∀ x y : Nat,
    (g.cell? x y).isSome ↔ x < g.extent.width.toNat ∧ y < g.extent.height.toNat
  /-- The rows from the top, one behind the other, are all cells. -/
  rows_eq : (List.range g.extent.height.toNat).flatMap (fun y => (g.row? y).getD [])
    = g.cells.toList
  /-- A place shows one cell in every view. -/
  cell_eq : ∀ {x y : Nat}, x < g.extent.width.toNat → y < g.extent.height.toNat →
    ∃ row c, g.row? y = some row ∧ row[x]? = some c ∧ g.cell? x y = some c
      ∧ g.cells[y * g.extent.width.toNat + x]? = some c
      ∧ g.temperatures[y * g.extent.width.toNat + x]? = some c.temperature
      ∧ g.temperatureAt x y = c.temperature

theorem isSome_row?_iff (g : Grid α) (y : Nat) :
    (g.row? y).isSome ↔ y < g.extent.height.toNat := by
  by_cases hy : y < g.extent.height.toNat
  · simp [row?_of_lt hy, hy]
  · simp [row?, hy]

theorem WellFormed.isSome_cell?_iff (hg : g.WellFormed) (x y : Nat) :
    (g.cell? x y).isSome ↔ x < g.extent.width.toNat ∧ y < g.extent.height.toNat := by
  rw [← Extent.contains_natCast_iff]
  by_cases inside : g.extent.Contains x y
  · obtain ⟨c, hc⟩ := hg.exists_cell? inside
    simp [hc, inside]
  · simp [cell?_of_not_contains inside, inside]

/-- **All views of a well-formed field agree.** -/
theorem WellFormed.viewsAgree (hg : g.WellFormed) : g.ViewsAgree where
  isSome_row_iff := g.isSome_row?_iff
  length_row := hg.length_row
  isSome_cell_iff := hg.isSome_cell?_iff
  rows_eq := by
    have all : g.extent.height.toNat * g.extent.width.toNat = g.cells.toList.length := by
      rw [Array.length_toList, hg, Extent.count, Nat.mul_comm]
    rw [g.flatMap_row? (Nat.le_refl _), all, List.take_length]
  cell_eq := by
    intro x y hx hy
    have index := Extent.index?_of_contains (Extent.contains_natCast_iff.mpr ⟨hx, hy⟩)
    rw [Int.toNat_natCast, Int.toNat_natCast] at index
    obtain ⟨c, hc⟩ := hg.exists_cell (Extent.number_lt hx hy)
    have cell : g.cell? x y = some c := (cell?_of_index index).trans hc
    refine ⟨_, c, row?_of_lt hy, ?_, cell, hc, ?_, ?_⟩
    · rw [List.getElem?_take_of_lt hx, List.getElem?_drop, Array.getElem?_toList, hc]
    · rw [temperatures, List.getElem?_map, Array.getElem?_toList, hc]
      rfl
    · rw [temperatureAt, cell]

/-- **A field is a map from places to temperatures.** After any writes, inside the field and
outside, the temperature at a place is the last one written there or else the first one, and
the ambient temperature outside the field. A write outside the field changes nothing, writes
to different places may be exchanged, no write changes a stamp, and at every point all views
of the field agree. -/
theorem writes_as_map {g : Grid α} (hg : g.WellFormed) (ws : List (Write α)) :
    let g' := g.writes ws
    (∀ x y : Int, g'.temperatureAt x y
        = if g.extent.Contains x y then (lastWritten x y ws).getD (g.temperatureAt x y)
          else g.ambient)
      ∧ (∀ (x y : Int) (t : α), ¬ g.extent.Contains x y → g'.setTemperature x y t = g')
      ∧ (∀ (x y x' y' : Int) (t t' : α), (x', y') ≠ (x, y) →
          (g'.setTemperature x y t).setTemperature x' y' t'
            = (g'.setTemperature x' y' t').setTemperature x y t)
      ∧ g'.stamps = g.stamps ∧ g'.extent = g.extent ∧ g'.ViewsAgree := by
  intro g'
  have extent : g'.extent = g.extent := g.extent_writes ws
  refine ⟨fun x y => ?_, fun x y t outside => ?_, fun x y x' y' t t' => ?_, g.stamps_writes ws,
    extent, (hg.writes ws).viewsAgree⟩
  · by_cases inside : g.extent.Contains x y
    · rw [if_pos inside, hg.temperatureAt_writes inside]
    · rw [if_neg inside, temperatureAt_of_not_contains (extent ▸ inside), g.ambient_writes]
  · exact setTemperature_of_not_contains (extent ▸ outside) t
  · exact fun h => setTemperature_comm h t t'

/-- A place is written twice, the second time with a NaN, and two places beyond the edges of
its row are written in between: neither its neighbour nor the next row sees any of it. A
field without columns has rows all the same. -/
theorem writes_as_map_edges :
    let g : Grid Binary64 :=
      ⟨⟨2, 2⟩, .one, .half,
        #[⟨.zero, .two, 7⟩, ⟨.two, .two, 8⟩, ⟨.half, .half, 9⟩, ⟨.zero, .zero, 9⟩]⟩
    let bare : Grid Binary64 := ⟨⟨0, 3⟩, .one, .half, #[]⟩
    let ws : List (Write Binary64) :=
      [⟨0, 0, .two⟩, ⟨2, 0, .half⟩, ⟨-1, 1, .half⟩, ⟨0, 0, ⟨0x7ff0000000000001⟩⟩]
    g.WellFormed ∧ bare.WellFormed
      ∧ (g.writes ws).temperatureAt 0 0 = ⟨0x7ff0000000000001⟩
      ∧ (g.writes ws).temperatureAt 1 0 = .two ∧ (g.writes ws).temperatureAt 0 1 = .half
      ∧ (g.writes ws).temperatureAt 2 0 = .one
      ∧ (g.writes ws).setTemperature (-9223372036854775808) 0 .zero = g.writes ws
      ∧ (g.writes ws).stamps = [7, 8, 9, 9] ∧ (g.writes ws).ViewsAgree
      ∧ (bare.row? 2).isSome ∧ ¬ (bare.row? 3).isSome := by
  intro g bare ws
  have hg : g.WellFormed := rfl
  have hbare : bare.WellFormed := rfl
  obtain ⟨map, outside, -, stamps, -, views⟩ := writes_as_map hg ws
  obtain ⟨-, -, -, -, -, bareViews⟩ := writes_as_map hbare []
  exact ⟨hg, hbare, (map 0 0).trans (by decide), (map 1 0).trans (by decide),
    (map 0 1).trans (by decide), (map 2 0).trans (by decide), outside _ _ _ (by decide),
    stamps.trans (by decide), views, (bareViews.isSome_row_iff 2).mpr (by decide),
    mt (bareViews.isSome_row_iff 3).mp (by decide)⟩

end Grid

end Thermoscape
