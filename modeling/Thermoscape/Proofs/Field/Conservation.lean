import Mathlib.Algebra.BigOperators.Group.Finset.Sigma
import Mathlib.Algebra.BigOperators.Ring.Finset
import Thermoscape.Proofs.Field.Exact

/-!
# Thermoscape.Proofs.Field.Conservation

**What diffusion conserves.** The sum of the temperatures is not conserved: a corner
counts for a third or a fourth in the means of its neighbours, and each of these for a half
in the mean of the corner. What is conserved is the sum in which every cell counts as often
as it has neighbours (`heat`). Counted so, a cell changes in a step by the rate times what
its neighbours have together more than it has (`count_mul_relax`); and over the whole field
what the neighbours have is what the cells have, each as often as it is a neighbour
(`sum_beside`). The latter is a matter of symmetry alone, so that the law holds for every
shape of the field and for every rate.
-/

namespace Thermoscape

open Finset (sum_congr)

namespace Extent

/-- The places of a field. -/
def places (e : Extent) : Finset (Int × Int) :=
  (Finset.range e.width.toNat ×ˢ Finset.range e.height.toNat).image fun p => (p.1, p.2)

@[simp] theorem mem_places {e : Extent} {p : Int × Int} : p ∈ e.places ↔ e.Has p := by
  obtain ⟨x, y⟩ := p
  simp only [places, Finset.mem_image, Finset.mem_product, Finset.mem_range, Prod.exists,
    Prod.mk.injEq, Has, Contains]
  refine ⟨?_, fun h => ⟨x.toNat, y.toNat, by omega⟩⟩
  rintro ⟨column, row, inside, rfl, rfl⟩
  omega

/-- Summed over all places, what is found beside them is found at each place as often as
there are places beside it. -/
theorem sum_beside (e : Extent) (f : Int × Int → ℚ) :
    ∑ p ∈ e.places, ((e.beside p).map f).sum = ∑ q ∈ e.places, (e.beside q).length * f q := by
  calc ∑ p ∈ e.places, ((e.beside p).map f).sum
      = ∑ p ∈ e.places, ∑ q ∈ (e.beside p).toFinset, f q :=
        sum_congr rfl fun p _ => (List.sum_toFinset f (e.nodup_beside p)).symm
    _ = ∑ q ∈ e.places, ∑ _p ∈ (e.beside q).toFinset, f q := by
        refine Finset.sum_comm' fun p q => ?_
        simp only [mem_places, List.mem_toFinset]
        exact mem_beside_symm
    _ = ∑ q ∈ e.places, (e.beside q).length * f q := by
        refine sum_congr rfl fun q _ => ?_
        rw [Finset.sum_const, nsmul_eq_mul, List.toFinset_card_of_nodup (e.nodup_beside q)]

end Extent

/-- Counted as often as it has neighbours, a cell changes by what they have more than it. -/
theorem count_mul_relax (rate t : ℚ) (ts : List ℚ) :
    ts.length * relax rate t ts = ts.length * t + rate * (ts.sum - ts.length * t) := by
  by_cases hts : ts = []
  · simp [hts]
  · have hlength : (ts.length : ℚ) ≠ 0 := by simpa using hts
    have hstep := relax_sub hts rate t t
    rw [mean_eq] at hstep
    have hrelax : relax rate t ts = t + rate * (ts.sum / ts.length - t) := by linarith
    rw [hrelax]
    field_simp

namespace Grid

variable {g : Grid ℚ}

/-- The temperatures of all places, each as often as there are places beside it. -/
def heat (g : Grid ℚ) : ℚ :=
  ∑ p ∈ g.extent.places, (g.extent.beside p).length * g.temperatureAt p.1 p.2

/-- **One step** keeps the heat. -/
theorem heat_step (hg : g.WellFormed) (tick : UInt64) : (g.step tick).heat = g.heat := by
  let t := fun p : Int × Int => g.temperatureAt p.1 p.2
  let n := fun p : Int × Int => ((g.extent.beside p).length : ℚ)
  have hstep : ∀ p ∈ g.extent.places, n p * (g.step tick).temperatureAt p.1 p.2
      = n p * t p + g.rate * (((g.extent.beside p).map t).sum - n p * t p) := by
    intro p hp
    have hcount := count_mul_relax g.rate (t p) ((g.extent.beside p).map t)
    rw [List.length_map] at hcount
    rw [temperatureAt_step hg (Extent.mem_places.mp hp)]
    exact hcount
  have hexchange := g.extent.sum_beside t
  calc (g.step tick).heat
      = ∑ p ∈ g.extent.places,
          (n p * t p + g.rate * (((g.extent.beside p).map t).sum - n p * t p)) :=
        sum_congr rfl hstep
    _ = g.heat + g.rate * (∑ p ∈ g.extent.places, ((g.extent.beside p).map t).sum - g.heat) := by
        rw [Finset.sum_add_distrib, ← Finset.mul_sum, Finset.sum_sub_distrib]
        rfl
    _ = g.heat + g.rate * (g.heat - g.heat) := by rw [hexchange]; rfl
    _ = g.heat := by ring

/-- **No number of steps** changes it. -/
theorem heat_steps (hg : g.WellFormed) (ticks : List UInt64) : (g.steps ticks).heat = g.heat := by
  induction ticks generalizing g with
  | nil => rfl
  | cons tick ticks ih => exact (ih (hg.step tick)).trans (heat_step hg tick)

/-- **Diffusion conserves heat.** On a field of any shape, at any rate and after any number
of steps, the sum over all places of the number of places beside it times its temperature
is what it was. -/
theorem heat_conserved (hg : g.WellFormed) (ticks : List UInt64) :
    ∑ p ∈ g.extent.places, ((g.extent.beside p).length : ℚ) * (g.steps ticks).temperatureAt p.1 p.2
      = ∑ p ∈ g.extent.places, ((g.extent.beside p).length : ℚ) * g.temperatureAt p.1 p.2 := by
  have hsteps := heat_steps hg ticks
  rw [heat, extent_steps] at hsteps
  exact hsteps

/-- Three cells in a row at a rate that overshoots. The one in the middle counts twice. -/
theorem heat_conserved_strip :
    let g : Grid ℚ :=
      { extent := ⟨3, 1⟩, ambient := 0, rate := 5
        cells := #[⟨5, 0, 0⟩, ⟨-1, 0, 0⟩, ⟨2, 0, 0⟩] }
    g.WellFormed
      ∧ (g.steps [4, 9]).temperatureAt 0 0 + 2 * (g.steps [4, 9]).temperatureAt 1 0
          + (g.steps [4, 9]).temperatureAt 2 0 = 5 := by
  intro g
  have hg : g.WellFormed := rfl
  have conserved := heat_conserved hg [4, 9]
  have hplaces : g.extent.places = {(0, 0), (1, 0), (2, 0)} := by decide
  have left : (g.extent.beside (0, 0)).length = 1 := by decide
  have middle : (g.extent.beside (1, 0)).length = 2 := by decide
  have right : (g.extent.beside (2, 0)).length = 1 := by decide
  have before : g.temperatureAt 0 0 = 5 ∧ g.temperatureAt 1 0 = -1 ∧ g.temperatureAt 2 0 = 2 :=
    ⟨rfl, rfl, rfl⟩
  simp only [hplaces, Finset.mem_insert, Finset.mem_singleton, Prod.mk.injEq, zero_ne_one,
    OfNat.zero_ne_ofNat, OfNat.one_ne_ofNat, and_true, or_self, not_false_eq_true,
    Finset.sum_insert, Finset.sum_singleton, left, middle, right, before,
    Nat.cast_one, Nat.cast_ofNat] at conserved
  refine ⟨hg, ?_⟩
  linarith

end Grid

end Thermoscape
