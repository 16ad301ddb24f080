import Thermoscape.Field.Diffusion
import Thermoscape.Proofs.Field.Places

/-!
# Thermoscape.Proofs.Field.Guarded

**No operation on a field leaves the bounds of anything.** The operations of the library
compute with numbers that have no bound and pass over cells that do not exist. Here each
of them is done once more under guard: cell by cell in nested loops over rows and columns,
where every sum and product has to fit into 64 bits, every cell that is read or written
and every stretch of cells has to be there, and every divisor must not be zero. Whatever
does not hold is a `Fault`.

On a well-formed field no guard is ever hit, and the guarded operation gives what the
operation itself gives (`step_eq`, `temperatureAt_eq`, `setTemperature_eq`, `row?_eq`,
`cell?_eq`). All of it rests on one bound: the number of a place lies below the number of
cells, and two sides of 32 bits make a product of 64.
-/

namespace Thermoscape

/-- What stops a guarded computation. -/
inductive Fault where
  /-- A number does not fit into 64 bits. -/
  | overflow
  /-- A cell is not there. -/
  | outOfBounds
  | divisionByZero
  deriving DecidableEq

abbrev Guarded (α : Type) := Except Fault α

namespace Guarded

variable {α β γ : Type}

/-! ### Guards -/

/-- A number without sign that fits into 64 bits. -/
def word (n : Nat) : Guarded Nat := if n < UInt64.size then .ok n else .error .overflow

/-- A number with sign that fits into 64 bits. -/
def signedWord (n : Int) : Guarded Int :=
  if Int64.minValue.toInt ≤ n ∧ n ≤ Int64.maxValue.toInt then .ok n else .error .overflow

def quotient (n d : Nat) : Guarded Nat := if d = 0 then .error .divisionByZero else .ok (n / d)

def remainder (n d : Nat) : Guarded Nat := if d = 0 then .error .divisionByZero else .ok (n % d)

/-- Reads a cell that is there. -/
def fetch (cells : Array (Cell α)) (i : Nat) : Guarded (Cell α) :=
  match cells[i]? with
  | some c => .ok c
  | none => .error .outOfBounds

/-- Writes a cell that is there. -/
def store (cells : Array (Cell α)) (i : Nat) (c : Cell α) : Guarded (Array (Cell α)) :=
  if i < cells.size then .ok (cells.setIfInBounds i c) else .error .outOfBounds

/-- A stretch of cells that are all there. -/
def slice (cells : Array (Cell α)) (start stop : Nat) : Guarded (List (Cell α)) :=
  if start ≤ stop ∧ stop ≤ cells.size then .ok (cells.extract start stop).toList
  else .error .outOfBounds

/-! ### Operations under guard -/

/-- The number of a place, if it lies in the field. -/
def index? (e : Extent) (x y : Int) : Guarded (Option Nat) :=
  if x < 0 ∨ y < 0 ∨ e.width.toNat ≤ x ∨ e.height.toNat ≤ y then return none
  else do
    let start ← word (y.toNat * e.width.toNat)
    return some (← word (start + x.toNat))

def neighbours (e : Extent) (x y : Nat) : Guarded (List Nat) := do
  let found ← Extent.directions.mapM fun d => do
    index? e (← signedWord (x + d.1)) (← signedWord (y + d.2))
  return found.filterMap id

def visit [Scalar α] (e : Extent) (rate : α) (cells : Array (Cell α)) (x y : Nat) :
    Guarded (Array (Cell α)) := do
  let start ← word (y * e.width.toNat)
  let i ← word (start + x)
  let c ← fetch cells i
  let around ← (← neighbours e x y).mapM (fetch cells)
  store cells i { c with pending := relax rate c.temperature (around.map Cell.temperature) }

/-- Visits the rows from the top, each from the left. -/
def sweep [Scalar α] (e : Extent) (rate : α) (cells : Array (Cell α)) :
    Guarded (Array (Cell α)) :=
  (List.range e.height.toNat).foldlM (fun cells y =>
    (List.range e.width.toNat).foldlM (fun cells x => visit e rate cells x y) cells) cells

def step [Scalar α] (tick : UInt64) (g : Grid α) : Guarded (Grid α) := do
  let cells ← sweep g.extent g.rate g.cells
  return { g with cells := Diffusion.commit tick cells }

def cell? (g : Grid α) (x y : Int) : Guarded (Option (Cell α)) := do
  match ← index? g.extent x y with
  | some i => return some (← fetch g.cells i)
  | none => return none

def temperatureAt (g : Grid α) (x y : Int) : Guarded α := do
  match ← cell? g x y with
  | some c => return c.temperature
  | none => return g.ambient

def setTemperature (g : Grid α) (x y : Int) (t : α) : Guarded (Grid α) := do
  match ← index? g.extent x y with
  | some i => return { g with cells := ← store g.cells i ((← fetch g.cells i).force t) }
  | none => return g

def row? (g : Grid α) (y : Nat) : Guarded (Option (List (Cell α))) :=
  if g.extent.height.toNat ≤ y then return none
  else do
    let start ← word (y * g.extent.width.toNat)
    let stop ← word (start + g.extent.width.toNat)
    return some (← slice g.cells start stop)

/-! ### Guards that are not hit -/

theorem ok_bind (b : β) (f : β → Guarded γ) : ((Except.ok b : Guarded β) >>= f) = f b := rfl

theorem word_eq {n : Nat} (h : n < UInt64.size) : word n = .ok n := if_pos h

/-- A 32-bit number and a step to one of its neighbours have room to spare. -/
theorem signedWord_eq {n : Int} (hlower : -1 ≤ n) (hupper : n ≤ UInt32.size) :
    signedWord n = .ok n := by
  refine if_pos ⟨Int.le_trans (by decide) hlower, Int.le_trans hupper (by decide)⟩

theorem fetch_eq {cells : Array (Cell α)} {i : Nat} {c : Cell α} (h : cells[i]? = some c) :
    fetch cells i = .ok c := by
  rw [fetch, h]

theorem store_eq {cells : Array (Cell α)} {i : Nat} (h : i < cells.size) (c : Cell α) :
    store cells i c = .ok (cells.setIfInBounds i c) := if_pos h

/-- A list of computations none of which is stopped. -/
theorem mapM_eq {f : β → Guarded γ} {k : β → Option γ} {bs : List β}
    (hf : ∀ b ∈ bs, ∃ c, f b = .ok c ∧ k b = some c) : bs.mapM f = .ok (bs.filterMap k) := by
  induction bs with
  | nil => rfl
  | cons b bs ih =>
      obtain ⟨c, hc, hk⟩ := hf b List.mem_cons_self
      have rest := ih fun b' hb => hf b' (List.mem_cons_of_mem b hb)
      rw [List.mapM_cons, hc, rest, List.filterMap_cons_some hk]
      rfl

/-- **A loop is not stopped** when no round is, from any state in which a round may begin;
it does what the unguarded loop does. -/
theorem foldlM_eq {f : γ → β → Guarded γ} {h : γ → β → γ} (bs : List β) {p : γ → Prop}
    (hf : ∀ c, p c → ∀ b ∈ bs, f c b = .ok (h c b) ∧ p (h c b)) {c : γ} (hc : p c) :
    bs.foldlM f c = .ok (bs.foldl h c) ∧ p (bs.foldl h c) := by
  induction bs generalizing c with
  | nil => exact ⟨rfl, hc⟩
  | cons b bs ih =>
      obtain ⟨first, hnext⟩ := hf c hc b List.mem_cons_self
      rw [List.foldlM_cons, first, List.foldl_cons]
      exact ih (fun c hc b' hb => hf c hc b' (List.mem_cons_of_mem b hb)) hnext

/-! ### Places -/

/-- Two sides of 32 bits make a number of cells of 64 bits. -/
theorem count_lt (e : Extent) : e.count < UInt64.size :=
  Nat.mul_lt_mul_of_lt_of_lt e.width.toNat_lt e.height.toNat_lt

theorem number_eq {e : Extent} {x y : Nat} (hx : x < e.width.toNat) (hy : y < e.height.toNat) :
    word (y * e.width.toNat) = .ok (y * e.width.toNat)
    ∧ word (y * e.width.toNat + x) = .ok (y * e.width.toNat + x) := by
  have bound := Nat.lt_trans (Extent.number_lt hx hy) (count_lt e)
  exact ⟨word_eq (Nat.lt_of_le_of_lt (Nat.le_add_right _ x) bound), word_eq bound⟩

theorem index?_eq (e : Extent) (x y : Int) : index? e x y = .ok (e.index? x y) := by
  by_cases inside : e.Contains x y
  · have ⟨hx₀, hx, hy₀, hy⟩ := inside
    obtain ⟨start, number⟩ := number_eq (e := e) (x := x.toNat) (y := y.toNat) (by omega) (by omega)
    have within : ¬ (x < 0 ∨ y < 0 ∨ e.width.toNat ≤ x ∨ e.height.toNat ≤ y) := by omega
    simp only [index?, if_neg within, start, number, ok_bind, Extent.index?_of_contains inside]
    rfl
  · have outside : x < 0 ∨ y < 0 ∨ e.width.toNat ≤ x ∨ e.height.toNat ≤ y := by
      unfold Extent.Contains at inside
      omega
    rw [index?, if_pos outside, Extent.index?_of_not_contains inside]
    rfl

/-- Every direction leads at most one place away. -/
theorem directions_bound {d : Int × Int} (h : d ∈ Extent.directions) :
    -1 ≤ d.1 ∧ d.1 ≤ 1 ∧ -1 ≤ d.2 ∧ d.2 ≤ 1 := by
  revert d
  decide

theorem neighbours_eq {e : Extent} {x y : Nat} (hx : x < e.width.toNat) (hy : y < e.height.toNat) :
    neighbours e x y = .ok (e.neighbours x y) := by
  have hwidth := e.width.toNat_lt
  have hheight := e.height.toNat_lt
  have each : ∀ d ∈ Extent.directions, ∃ found,
      (do index? e (← signedWord (x + d.1)) (← signedWord (y + d.2)) : Guarded (Option Nat))
        = .ok found ∧ some (e.index? (x + d.1) (y + d.2)) = some found := by
    intro d hd
    have bound := directions_bound hd
    rw [signedWord_eq (by omega) (by simp only [UInt32.size]; omega),
      signedWord_eq (by omega) (by simp only [UInt32.size]; omega)]
    exact ⟨_, index?_eq e _ _, rfl⟩
  rw [neighbours, mapM_eq each, ok_bind, List.filterMap_filterMap]
  rfl

theorem lt_count_of_mem_neighbours {e : Extent} {x y : Int} {n : Nat} (h : n ∈ e.neighbours x y) :
    n < e.count := by
  obtain ⟨d, -, hd⟩ := List.mem_filterMap.mp h
  exact (Extent.index?_eq_some_iff.mp hd).1

/-! ### The step -/

variable [Scalar α]

theorem visit_eq {e : Extent} {cells : Array (Cell α)} (hcells : cells.size = e.count) (rate : α)
    {x y : Nat} (hx : x < e.width.toNat) (hy : y < e.height.toNat) :
    visit e rate cells x y = .ok (Diffusion.visit e rate cells (y * e.width.toNat + x)) := by
  obtain ⟨start, number⟩ := number_eq hx hy
  have hi : y * e.width.toNat + x < cells.size := hcells ▸ Extent.number_lt hx hy
  have hc := Array.getElem?_eq_getElem hi
  have around : (e.neighbours x y).mapM (fetch cells)
      = .ok ((e.neighbours x y).filterMap fun n => cells[n]?) := by
    refine mapM_eq fun n hn => ?_
    have hn : n < cells.size := hcells ▸ lt_count_of_mem_neighbours hn
    exact ⟨_, fetch_eq (Array.getElem?_eq_getElem hn), Array.getElem?_eq_getElem hn⟩
  have there : Diffusion.around e cells (y * e.width.toNat + x)
      = ((e.neighbours x y).filterMap fun n => cells[n]?).map Cell.temperature := by
    rw [Diffusion.around, Extent.column_number hx, Extent.row_number hx, List.map_filterMap]
  simp only [visit, start, number, fetch_eq hc, neighbours_eq hx hy, around, ok_bind, store_eq hi,
    Diffusion.visit, hc, there]

/-- A row is swept without a fault. Visits keep the number of cells, which is all that
they ask for. -/
theorem sweepRow_eq {e : Extent} {cells : Array (Cell α)} (hcells : cells.size = e.count) (rate : α)
    {y : Nat} (hy : y < e.height.toNat) :
    let swept := (List.range e.width.toNat).foldl
      (fun cells x => Diffusion.visit e rate cells (y * e.width.toNat + x)) cells
    (List.range e.width.toNat).foldlM (fun cells x => visit e rate cells x y) cells = .ok swept
      ∧ swept.size = e.count := by
  refine foldlM_eq (p := fun cells : Array (Cell α) => cells.size = e.count) _ ?_ hcells
  intro cells hcells x hx
  exact ⟨visit_eq hcells rate (List.mem_range.mp hx) hy,
    (Diffusion.size_visit e rate cells _).trans hcells⟩

theorem sweep_eq {e : Extent} {cells : Array (Cell α)} (hcells : cells.size = e.count) (rate : α) :
    sweep e rate cells = .ok (Diffusion.sweep e rate e.rowMajor cells) := by
  have rows := foldlM_eq (p := fun cells : Array (Cell α) => cells.size = e.count)
    (List.range e.height.toNat)
    (fun _ hcells y hy => sweepRow_eq hcells rate (List.mem_range.mp hy)) hcells
  rw [sweep, rows.1, Diffusion.sweep, Extent.rowMajor_eq_flatMap, List.foldl_flatMap]
  simp only [List.foldl_map]

theorem step_eq {g : Grid α} (hg : g.WellFormed) (tick : UInt64) :
    step tick g = .ok (g.step tick) := by
  rw [step, sweep_eq hg]
  rfl

/-! ### Single cells and rows -/

omit [Scalar α]

variable {g : Grid α}

/-- A place of the field has a cell, and the guarded number leads to it. -/
theorem exists_fetch {x y : Int} {i : Nat} (hg : g.WellFormed)
    (hindex : g.extent.index? x y = some i) :
    ∃ c, g.cells[i]? = some c ∧ fetch g.cells i = .ok c := by
  obtain ⟨c, hc⟩ := hg.exists_cell (Extent.index?_eq_some_iff.mp hindex).1
  exact ⟨c, hc, fetch_eq hc⟩

theorem cell?_eq (hg : g.WellFormed) (x y : Int) : cell? g x y = .ok (g.cell? x y) := by
  rw [cell?, index?_eq, ok_bind]
  cases hindex : g.extent.index? x y with
  | none =>
      rw [Grid.cell?, hindex]
      rfl
  | some i =>
      obtain ⟨c, hc, hfetch⟩ := exists_fetch hg hindex
      rw [Grid.cell?_of_index hindex, hc]
      simp only [hfetch, ok_bind]
      rfl

theorem temperatureAt_eq (hg : g.WellFormed) (x y : Int) :
    temperatureAt g x y = .ok (g.temperatureAt x y) := by
  rw [temperatureAt, cell?_eq hg, ok_bind, Grid.temperatureAt]
  cases g.cell? x y with
  | none => rfl
  | some c => rfl

/-- Writing a forced cell back is forcing it in its place. -/
theorem setIfInBounds_force {cells : Array (Cell α)} {i : Nat} {c : Cell α}
    (hc : cells[i]? = some c) (t : α) :
    cells.setIfInBounds i (c.force t) = cells.modify i (Cell.force · t) := by
  obtain ⟨hi, -⟩ := Array.getElem?_eq_some_iff.mp hc
  apply Array.ext_getElem?
  intro j
  rw [Array.getElem?_setIfInBounds, Array.getElem?_modify]
  by_cases hij : i = j
  · subst hij
    rw [if_pos rfl, if_pos rfl, if_pos hi, hc]
    rfl
  · rw [if_neg hij, if_neg hij]

theorem setTemperature_eq (hg : g.WellFormed) (x y : Int) (t : α) :
    setTemperature g x y t = .ok (g.setTemperature x y t) := by
  rw [setTemperature, index?_eq, ok_bind]
  cases hindex : g.extent.index? x y with
  | none =>
      rw [Grid.setTemperature_of_none hindex]
      rfl
  | some i =>
      obtain ⟨c, hc, hfetch⟩ := exists_fetch hg hindex
      obtain ⟨hi, -⟩ := Array.getElem?_eq_some_iff.mp hc
      simp only [hfetch, ok_bind, store_eq hi, setIfInBounds_force hc,
        Grid.setTemperature_of_index hindex]
      rfl

/-- A row of the field ends where the next one begins, or at the last cell. -/
theorem row?_eq (hg : g.WellFormed) (y : Nat) : row? g y = .ok (g.row? y) := by
  by_cases hy : y < g.extent.height.toNat
  · have stop : y * g.extent.width.toNat + g.extent.width.toNat ≤ g.extent.count := by
      rw [← Nat.succ_mul, Extent.count, Nat.mul_comm g.extent.width.toNat]
      exact Nat.mul_le_mul_right _ hy
    have bound := Nat.lt_of_le_of_lt stop (count_lt g.extent)
    have first := word_eq (Nat.lt_of_le_of_lt (Nat.le_add_right _ _) bound)
    have there : slice g.cells (y * g.extent.width.toNat)
        (y * g.extent.width.toNat + g.extent.width.toNat) = .ok _ :=
      if_pos ⟨Nat.le_add_right _ _, hg ▸ stop⟩
    simp only [row?, if_neg (Nat.not_le.mpr hy), first, word_eq bound, ok_bind, there,
      Grid.row?, if_pos hy]
    rfl
  · rw [row?, if_pos (Nat.not_lt.mp hy), Grid.row?, if_neg hy]
    rfl

end Guarded

end Thermoscape
