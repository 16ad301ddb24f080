import Mathlib.Data.List.Nodup
import Thermoscape.Proofs.Field.Exact

/-!
# Thermoscape.Proofs.Field.Isotropy

**Diffusion has no preferred direction.** A field may be looked at in a mirror, upside down,
or with its columns taken for rows. Each of these is a motion of the plane that carries the
places of one extent to those of another and keeps distances (`Motion`), so that it carries
neighbours to neighbours (`Motion.perm_beside`). It does not keep their order: left and right
change places in a mirror. In exact arithmetic the order of the neighbours does not matter
(`relax_perm`), and a step therefore does the same to the field as it is and as it is seen
(`laidOver_step`). Rounded sums depend on the order, so that the law is one of exact numbers.

A field that is seen so has cells of its own, row by row in its own extent, which may have
other sides than the first. That the numbers of cells fit together is settled once, for all
motions (`cell?_laidOver`).
-/

namespace Thermoscape

/-! ### Motions -/

/-- The map carries the places of `e` to those of `e'` and keeps all distances. -/
structure Motion (e e' : Extent) (f : Int × Int → Int × Int) : Prop where
  has_iff : ∀ p, e'.Has (f p) ↔ e.Has p
  distance_eq : ∀ p q, distance (f p) (f q) = distance p q
  surjective : Function.Surjective f

namespace Motion

variable {e e' : Extent} {f : Int × Int → Int × Int}

theorem injective (h : Motion e e' f) : Function.Injective f := by
  intro p q hpq
  rw [← distance_eq_zero_iff, ← h.distance_eq, hpq]
  exact distance_eq_zero_iff.mpr rfl

/-- A motion carries the neighbours of a place to those of its image, in some order. -/
theorem perm_beside (h : Motion e e' f) (p : Int × Int) :
    ((e.beside p).map f).Perm (e'.beside (f p)) := by
  -- Neither list repeats a place, so that it is enough to compare their members.
  have nodup : ((e.beside p).map f).Nodup := List.Nodup.map h.injective (e.nodup_beside p)
  refine (List.perm_ext_iff_of_nodup nodup (e'.nodup_beside (f p))).mpr fun q => ?_
  obtain ⟨q, rfl⟩ := h.surjective q
  rw [List.mem_map_of_injective h.injective, Extent.mem_beside_iff, Extent.mem_beside_iff,
    h.has_iff, h.distance_eq]

/-- Left and right change places. -/
theorem leftRight (e : Extent) : Motion e e fun p => (e.width.toNat - 1 - p.1, p.2) where
  has_iff p := by
    simp only [Extent.Has, Extent.Contains]
    omega
  distance_eq p q := by
    simp only [distance]
    omega
  surjective q := ⟨(e.width.toNat - 1 - q.1, q.2), by simp⟩

/-- Top and bottom change places. -/
theorem topBottom (e : Extent) : Motion e e fun p => (p.1, e.height.toNat - 1 - p.2) where
  has_iff p := by
    simp only [Extent.Has, Extent.Contains]
    omega
  distance_eq p q := by
    simp only [distance]
    omega
  surjective q := ⟨(q.1, e.height.toNat - 1 - q.2), by simp⟩

/-- Columns and rows change places. -/
theorem diagonal (e : Extent) : Motion ⟨e.height, e.width⟩ e fun p => (p.2, p.1) where
  has_iff p := by
    simp only [Extent.Has, Extent.Contains]
    omega
  distance_eq p q := by
    simp only [distance]
    omega
  surjective q := ⟨(q.2, q.1), rfl⟩

end Motion

/-! ### Exact sums -/

/-- What a cell becomes does not depend on the order of its neighbours. -/
theorem relax_perm {ts ts' : List ℚ} (h : ts.Perm ts') (rate t : ℚ) :
    relax rate t ts = relax rate t ts' := by
  have hmean : Scalar.mean ts = Scalar.mean ts' := by
    rw [mean_eq, mean_eq, h.sum_eq, h.length_eq]
  have hempty : ts.isEmpty = ts'.isEmpty := h.isEmpty_eq
  rw [relax, relax, hmean, hempty]

namespace Grid

/-! ### Fields that are seen through a motion -/

section Seen

variable {α : Type} {g : Grid α}

/-- The field of extent `e` that has at each place the cell that `g` has where `f` carries the
place, and is at the ambient temperature where `g` has none. -/
def laidOver (g : Grid α) (e : Extent) (f : Int × Int → Int × Int) : Grid α :=
  { g with
    extent := e
    cells := (e.rowMajor.map fun i =>
      let q := f (e.column i, e.row i)
      (g.cell? q.1 q.2).getD (.resting g.ambient)).toArray }

variable {e : Extent} {f : Int × Int → Int × Int}

theorem wellFormed_laidOver (g : Grid α) (e : Extent) (f : Int × Int → Int × Int) :
    (g.laidOver e f).WellFormed := by
  simp [WellFormed, laidOver, Extent.rowMajor]

/-- **Looking at a place of the seen field is looking where it is carried.** -/
theorem cell?_laidOver (hg : g.WellFormed) (hf : Motion e g.extent f) (p : Int × Int) :
    (g.laidOver e f).cell? p.1 p.2 = g.cell? (f p).1 (f p).2 := by
  by_cases hp : e.Has p
  · have index := Extent.index?_of_contains hp
    -- The number of `p` leads back to `p`, and `g` has a cell where `p` is carried.
    obtain ⟨hlt, hcolumn, hrow⟩ := Extent.index?_eq_some_iff.mp index
    obtain ⟨c, hc⟩ := hg.exists_cell? ((hf.has_iff p).mpr hp)
    rw [cell?_of_index (g := g.laidOver e f) index, hc]
    simp [laidOver, Extent.rowMajor, hlt, ← hcolumn, ← hrow, hc]
  · rw [cell?_of_not_contains (g := g.laidOver e f) hp,
      cell?_of_not_contains (mt (hf.has_iff p).mp hp)]

theorem temperatureAt_laidOver (hg : g.WellFormed) (hf : Motion e g.extent f) (p : Int × Int) :
    (g.laidOver e f).temperatureAt p.1 p.2 = g.temperatureAt (f p).1 (f p).2 := by
  rw [temperatureAt, temperatureAt, cell?_laidOver hg hf]
  rfl

end Seen

/-! ### Steps of a field that is seen -/

variable {g : Grid ℚ} {e : Extent} {f : Int × Int → Int × Int}

/-- A place of the seen field becomes what the place where it is carried becomes. -/
theorem relaxed_laidOver (hg : g.WellFormed) (hf : Motion e g.extent f) (p : Int × Int) :
    (g.laidOver e f).relaxed p.1 p.2 = g.relaxed (f p).1 (f p).2 := by
  have around : ((e.beside p).map fun q => (g.laidOver e f).temperatureAt q.1 q.2).Perm
      ((g.extent.beside (f p)).map fun q => g.temperatureAt q.1 q.2) := by
    have carried := (hf.perm_beside p).map fun q => g.temperatureAt q.1 q.2
    rw [List.map_map] at carried
    simp only [temperatureAt_laidOver hg hf]
    exact carried
  rw [relaxed_eq_relax, relaxed_eq_relax, temperatureAt_laidOver hg hf]
  exact relax_perm around g.rate _

/-- **One step** does the same to a field as it is and as it is seen. -/
theorem laidOver_step (hg : g.WellFormed) (hf : Motion e g.extent f) (tick : UInt64) :
    (g.laidOver e f).step tick = (g.step tick).laidOver e f := by
  have seen := wellFormed_laidOver g e f
  refine eq_of_cell? (wellFormed_laidOver _ e f) (seen.step tick) rfl rfl rfl fun x y hp => ?_
  have hfp : g.extent.Has (f (x, y)) := (hf.has_iff (x, y)).mpr hp
  rw [cell?_laidOver (hg.step tick) hf (x, y), cell?_step seen hp, cell?_step hg hfp,
    relaxed_laidOver hg hf (x, y)]

/-- **Any number of steps** does. -/
theorem laidOver_steps (hg : g.WellFormed) (hf : Motion e g.extent f) (ticks : List UInt64) :
    (g.laidOver e f).steps ticks = (g.steps ticks).laidOver e f := by
  induction ticks generalizing g with
  | nil => rfl
  | cons tick ticks ih =>
      rw [steps_cons, steps_cons, laidOver_step hg hf]
      exact ih (hg.step tick) hf

/-! ### Three ways to look at a field -/

/-- The field with left and right changed. -/
def mirrored {α : Type} (g : Grid α) : Grid α :=
  g.laidOver g.extent fun p => (g.extent.width.toNat - 1 - p.1, p.2)

/-- The field with top and bottom changed. -/
def upsideDown {α : Type} (g : Grid α) : Grid α :=
  g.laidOver g.extent fun p => (p.1, g.extent.height.toNat - 1 - p.2)

/-- The field with columns and rows changed. -/
def transposed {α : Type} (g : Grid α) : Grid α :=
  g.laidOver ⟨g.extent.height, g.extent.width⟩ fun p => (p.2, p.1)

/-- **Diffusion is isotropic.** A field can be mirrored, turned upside down or transposed, and
is then made of the same cells at the changed places. To do so and then to make any number of
steps gives the same field as to make the steps first. -/
theorem steps_isotropic (hg : g.WellFormed) (ticks : List UInt64) :
    (g.mirrored.extent = g.extent
      ∧ (∀ x y, g.mirrored.cell? x y = g.cell? (g.extent.width.toNat - 1 - x) y)
      ∧ g.mirrored.steps ticks = (g.steps ticks).mirrored)
    ∧ (g.upsideDown.extent = g.extent
      ∧ (∀ x y, g.upsideDown.cell? x y = g.cell? x (g.extent.height.toNat - 1 - y))
      ∧ g.upsideDown.steps ticks = (g.steps ticks).upsideDown)
    ∧ (g.transposed.extent.width = g.extent.height ∧ g.transposed.extent.height = g.extent.width
      ∧ (∀ x y, g.transposed.cell? x y = g.cell? y x)
      ∧ g.transposed.steps ticks = (g.steps ticks).transposed) := by
  have leftRight := Motion.leftRight g.extent
  have topBottom := Motion.topBottom g.extent
  have diagonal := Motion.diagonal g.extent
  refine ⟨⟨rfl, ?_, ?_⟩, ⟨rfl, ?_, ?_⟩, rfl, rfl, ?_, ?_⟩
  · exact fun x y => cell?_laidOver hg leftRight (x, y)
  · rw [mirrored, mirrored, extent_steps]
    exact laidOver_steps hg leftRight ticks
  · exact fun x y => cell?_laidOver hg topBottom (x, y)
  · rw [upsideDown, upsideDown, extent_steps]
    exact laidOver_steps hg topBottom ticks
  · exact fun x y => cell?_laidOver hg diagonal (x, y)
  · rw [transposed, transposed, extent_steps]
    exact laidOver_steps hg diagonal ticks

/-- A field of two columns and three rows. After two steps the transposed field has at the end
of its first row what the field has at the end of its first column, and the mirrored field has
there what the field has at the end of its second column. -/
theorem steps_isotropic_narrow :
    let g : Grid ℚ :=
      { extent := ⟨2, 3⟩, ambient := 100, rate := 1 / 3
        cells := #[⟨1, 7, 0⟩, ⟨2, 7, 0⟩, ⟨4, 7, 0⟩, ⟨8, 7, 0⟩, ⟨16, 7, 0⟩, ⟨32, 7, 0⟩] }
    g.WellFormed
      ∧ (g.transposed.steps [1, 2]).cell? 2 0 = (g.steps [1, 2]).cell? 0 2
      ∧ (g.mirrored.steps [1, 2]).cell? 0 2 = (g.steps [1, 2]).cell? 1 2 := by
  intro g
  have hg : g.WellFormed := rfl
  -- The law carries the steps inwards, and says of the stepped field where its cells are seen.
  obtain ⟨⟨-, -, mirror⟩, -, -, -, -, transpose⟩ := steps_isotropic hg [1, 2]
  obtain ⟨⟨-, mirrorCell, -⟩, -, -, -, transposeCell, -⟩ := steps_isotropic (hg.steps [1, 2]) []
  refine ⟨hg, ?_, ?_⟩
  · rw [transpose]
    exact transposeCell 2 0
  · rw [mirror]
    exact mirrorCell 0 2

end Grid

end Thermoscape
