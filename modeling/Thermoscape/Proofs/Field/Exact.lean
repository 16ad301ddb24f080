import Mathlib.Algebra.Order.BigOperators.Group.List
import Mathlib.Algebra.Order.Field.Rat
import Mathlib.Tactic.FieldSimp
import Mathlib.Tactic.Linarith
import Mathlib.Tactic.Ring
import Thermoscape.Proofs.Field.Neighbours

/-!
# Thermoscape.Proofs.Field.Exact

**Diffusion in exact arithmetic.** The rules of the field are written for any numbers
with four operations. Taken over the rationals they compute a weighted mean: a cell
keeps the part `1 - rate` of itself and gets the part `rate` of the mean around it. This
is said once, as a distance from an arbitrary level (`relax_sub`), and the bounds on a
step are then signs of the two parts. In particular no step leads out of the bounds that
the temperatures had before it (`Within.steps`).

The spread is measured as in the library, by the least and the greatest temperature of
the cells (`rangeBy`), and is their difference (`spread_eq_sub`); both are found at some
place (`exists_extremes`).
-/

namespace Thermoscape

/-- Rational numbers, whose sums start from zero. -/
instance : Scalar ℚ where
  emptySum := 0
  ofCount n := n

/-! ### A cell among its neighbours -/

section Relax

variable {rate t level s : ℚ} {ts : List ℚ}

theorem mean_eq (ts : List ℚ) : Scalar.mean ts = ts.sum / ts.length := by
  rw [List.sum_eq_foldl]
  rfl

/-- **A step is a weighted mean**, measured from any level. -/
theorem relax_sub (hts : ts ≠ []) (rate t level : ℚ) :
    relax rate t ts - level
      = (1 - rate) * (t - level) + rate * (Scalar.mean ts - level) := by
  have hrelax : relax rate t ts = t + (Scalar.mean ts - t) * rate :=
    if_neg (by simpa using hts)
  rw [hrelax]
  ring

theorem le_mean (hts : ts ≠ []) (h : ∀ s ∈ ts, level ≤ s) : level ≤ Scalar.mean ts := by
  have hlength : 0 < (ts.length : ℚ) := by
    exact_mod_cast List.length_pos_iff.mpr hts
  have hsum := List.card_nsmul_le_sum ts level h
  rw [nsmul_eq_mul] at hsum
  rwa [mean_eq, le_div_iff₀ hlength, mul_comm]

theorem mean_le (hts : ts ≠ []) (h : ∀ s ∈ ts, s ≤ level) : Scalar.mean ts ≤ level := by
  have hlength : 0 < (ts.length : ℚ) := by
    exact_mod_cast List.length_pos_iff.mpr hts
  have hsum := List.sum_le_card_nsmul ts level h
  rw [nsmul_eq_mul] at hsum
  rwa [mean_eq, div_le_iff₀ hlength, mul_comm]

/-- One of at most four numbers above a level lifts their mean by a fourth. -/
theorem share_le_mean (h : ∀ s ∈ ts, level ≤ s) (hfour : ts.length ≤ 4) (hs : s ∈ ts) :
    (s - level) / 4 ≤ Scalar.mean ts - level := by
  have hlength : 0 < (ts.length : ℚ) := by
    exact_mod_cast List.length_pos_of_mem hs
  have hlength' : (ts.length : ℚ) ≤ 4 := by exact_mod_cast hfour
  -- The other numbers are together at least as many times the level.
  have hrest := List.card_nsmul_le_sum (ts.erase s) level fun u hu => h u (List.mem_of_mem_erase hu)
  have hsum : s - level ≤ ts.sum - ts.length * level := by
    rw [nsmul_eq_mul, List.length_erase_of_mem hs, Nat.cast_pred (List.length_pos_of_mem hs)] at hrest
    rw [← List.sum_erase hs]
    linarith
  have hmean : Scalar.mean ts - level = (ts.sum - ts.length * level) / ts.length := by
    rw [mean_eq]
    field_simp
  rw [hmean]
  exact div_le_div₀ ((sub_nonneg.mpr (h s hs)).trans hsum) hsum hlength hlength'

/-- Where nothing is colder than a level, a cell keeps its part above the level. -/
theorem keep_le_relax (hrate : 0 ≤ rate) (ht : level ≤ t) (hts : ∀ s ∈ ts, level ≤ s) :
    (1 - rate) * (t - level) ≤ relax rate t ts - level := by
  by_cases hempty : ts = []
  · subst hempty
    show (1 - rate) * (t - level) ≤ t - level
    have hlost : 0 ≤ rate * (t - level) := mul_nonneg hrate (sub_nonneg.mpr ht)
    linarith
  · have hgot : 0 ≤ rate * (Scalar.mean ts - level) :=
      mul_nonneg hrate (sub_nonneg.mpr (le_mean hempty hts))
    rw [relax_sub hempty]
    exact le_add_of_nonneg_right hgot

/-- There it also gets its share of each of its at most four neighbours. -/
theorem share_le_relax (hrate : 0 ≤ rate) (hrate' : rate ≤ 1) (ht : level ≤ t)
    (hts : ∀ s ∈ ts, level ≤ s) (hfour : ts.length ≤ 4) (hs : s ∈ ts) :
    rate / 4 * (s - level) ≤ relax rate t ts - level := by
  have hkept : 0 ≤ (1 - rate) * (t - level) :=
    mul_nonneg (sub_nonneg.mpr hrate') (sub_nonneg.mpr ht)
  rw [relax_sub (List.ne_nil_of_mem hs)]
  calc rate / 4 * (s - level) = rate * ((s - level) / 4) := by ring
    _ ≤ rate * (Scalar.mean ts - level) :=
        mul_le_mul_of_nonneg_left (share_le_mean hts hfour hs) hrate
    _ ≤ _ := le_add_of_nonneg_left hkept

/-- Where nothing is warmer than a level, a cell does not get warmer than it. -/
theorem relax_le (hrate : 0 ≤ rate) (hrate' : rate ≤ 1) (ht : t ≤ level)
    (hts : ∀ s ∈ ts, s ≤ level) : relax rate t ts ≤ level := by
  by_cases hempty : ts = []
  · subst hempty
    exact ht
  · have hstep := relax_sub hempty rate t level
    have hkept : (1 - rate) * (t - level) ≤ 0 :=
      mul_nonpos_of_nonneg_of_nonpos (sub_nonneg.mpr hrate') (sub_nonpos.mpr ht)
    have hgot : rate * (Scalar.mean ts - level) ≤ 0 :=
      mul_nonpos_of_nonneg_of_nonpos hrate (sub_nonpos.mpr (mean_le hempty hts))
    linarith

end Relax

namespace Grid

variable {g : Grid ℚ}

/-! ### Bounds that are kept -/

/-- No place of the field is colder than `low` or warmer than `high`. -/
def Within (g : Grid ℚ) (low high : ℚ) : Prop :=
  ∀ p, g.extent.Has p → low ≤ g.temperatureAt p.1 p.2 ∧ g.temperatureAt p.1 p.2 ≤ high

/-- What holds of all places holds of the temperatures beside a place. -/
theorem forall_beside {motive : ℚ → Prop}
    (h : ∀ p, g.extent.Has p → motive (g.temperatureAt p.1 p.2)) (p : Int × Int) :
    ∀ t ∈ (g.extent.beside p).map fun q => g.temperatureAt q.1 q.2, motive t := by
  intro t ht
  obtain ⟨q, hq, rfl⟩ := List.mem_map.mp ht
  exact h q (Extent.has_of_mem_beside hq)

/-- **One step** does not lead out of any bounds. -/
theorem Within.step {low high : ℚ} (h : g.Within low high) (hg : g.WellFormed)
    (hrate : 0 ≤ g.rate) (hrate' : g.rate ≤ 1) (tick : UInt64) :
    (g.step tick).Within low high := by
  intro p hp
  have hlow := keep_le_relax hrate (h p hp).1 (forall_beside (fun q hq => (h q hq).1) p)
  have hhigh := relax_le hrate hrate' (h p hp).2 (forall_beside (fun q hq => (h q hq).2) p)
  have hkept : 0 ≤ (1 - g.rate) * (g.temperatureAt p.1 p.2 - low) :=
    mul_nonneg (sub_nonneg.mpr hrate') (sub_nonneg.mpr (h p hp).1)
  rw [temperatureAt_step hg hp]
  exact ⟨by linarith, hhigh⟩

/-- **No number of steps** does. -/
theorem Within.steps {low high : ℚ} (h : g.Within low high) (hg : g.WellFormed)
    (hrate : 0 ≤ g.rate) (hrate' : g.rate ≤ 1) (ticks : List UInt64) :
    (g.steps ticks).Within low high := by
  induction ticks generalizing g with
  | nil => exact h
  | cons tick ticks ih => exact ih (h.step hg hrate hrate' tick) (hg.step tick) hrate hrate'

/-! ### The spread -/

/-- The greatest temperature of a field less the least, 0 if there are no cells. -/
def spread (g : Grid ℚ) : ℚ :=
  match g.temperatures with
  | [] => 0
  | t :: _ =>
    let range := g.rangeBy min max (t, t)
    range.2 - range.1

/-- The least and the greatest of the numbers gone through and the bounds begun with are
bounds for all of them, and each is one of them. -/
theorem foldl_range_spec (ts : List ℚ) (low high : ℚ) :
    let range := ts.foldl (fun r t => (min r.1 t, max r.2 t)) (low, high)
    (range.1 = low ∨ range.1 ∈ ts) ∧ (range.2 = high ∨ range.2 ∈ ts)
      ∧ range.1 ≤ low ∧ high ≤ range.2 ∧ ∀ t ∈ ts, range.1 ≤ t ∧ t ≤ range.2 := by
  induction ts generalizing low high with
  | nil => simp
  | cons t ts ih =>
      obtain ⟨hlow, hhigh, hle, hge, hall⟩ := ih (min low t) (max high t)
      refine ⟨?_, ?_, hle.trans (min_le_left low t), (le_max_left high t).trans hge, ?_⟩
      · rcases hlow with h | h
        · rcases min_choice low t with h' | h'
          · exact .inl (h.trans h')
          · exact .inr (List.mem_cons.mpr (.inl (h.trans h')))
        · exact .inr (List.mem_cons_of_mem t h)
      · rcases hhigh with h | h
        · rcases max_choice high t with h' | h'
          · exact .inl (h.trans h')
          · exact .inr (List.mem_cons.mpr (.inl (h.trans h')))
        · exact .inr (List.mem_cons_of_mem t h)
      · intro u hu
        rcases List.mem_cons.mp hu with rfl | hu
        · exact ⟨hle.trans (min_le_right low u), (le_max_right high u).trans hge⟩
        · exact hall u hu

/-- **The spread is the greatest temperature less the least.** -/
theorem spread_eq_sub (hg : g.WellFormed) (hcount : 0 < g.extent.count) :
    ∃ least ∈ g.temperatures, ∃ greatest ∈ g.temperatures, g.spread = greatest - least
      ∧ ∀ t ∈ g.temperatures, least ≤ t ∧ t ≤ greatest := by
  cases hts : g.temperatures with
  | nil =>
      have hlength := hg.length_temperatures
      rw [hts, List.length_nil] at hlength
      omega
  | cons t ts =>
      let range := g.rangeBy min max (t, t)
      have hspread : g.spread = range.2 - range.1 := by
        rw [spread, hts]
      obtain ⟨hlow, hhigh, -, -, hall⟩ := foldl_range_spec g.temperatures t t
      have hfirst : t ∈ g.temperatures := hts ▸ List.mem_cons_self
      have hlow' : range.1 ∈ g.temperatures := hlow.elim (fun h => h ▸ hfirst) id
      have hhigh' : range.2 ∈ g.temperatures := hhigh.elim (fun h => h ▸ hfirst) id
      rw [← hts]
      exact ⟨range.1, hlow', range.2, hhigh', hspread, hall⟩

/-- The spread is the difference of two places, and all others lie between these. -/
theorem exists_extremes (hg : g.WellFormed) (hcount : 0 < g.extent.count) :
    ∃ p q, g.extent.Has p ∧ g.extent.Has q
      ∧ g.spread = g.temperatureAt p.1 p.2 - g.temperatureAt q.1 q.2
      ∧ g.Within (g.temperatureAt q.1 q.2) (g.temperatureAt p.1 p.2) := by
  obtain ⟨least, hleast, greatest, hgreatest, hspread, hall⟩ := spread_eq_sub hg hcount
  obtain ⟨q, hq, rfl⟩ := hg.mem_temperatures_iff.mp hleast
  obtain ⟨p, hp, rfl⟩ := hg.mem_temperatures_iff.mp hgreatest
  exact ⟨p, q, hp, hq, hspread, fun s hs => hall _ (hg.mem_temperatures_iff.mpr ⟨s, hs, rfl⟩)⟩

/-- The spread is read off the temperatures. -/
theorem spread_congr {g' : Grid ℚ} (h : g'.temperatures = g.temperatures) :
    g'.spread = g.spread := by
  simp only [spread, rangeBy, h]

end Grid

end Thermoscape
