import Thermoscape.Proofs.Field.Exact

/-!
# Thermoscape.Proofs.Field.MaximumPrinciple

**Diffusion makes no new extremes.** In exact arithmetic a step takes a cell part of the
way to the mean of its neighbours, and neither past it nor back: seen from where the cell
was it has gone the part `rate` of the way, and seen from the mean the part `1 - rate` of
the way is left (`relax_sub_self`, `relax_sub_mean`). The mean lies between the least and
the greatest temperature of the field, so that each range of temperatures contains the
next one and the spread never grows.

The library looks for the range of a field from two infinities, the wrong way round.
Rational numbers have none; any two bounds that no temperature of the field exceeds serve
as well, for what is found from them is the least and the greatest temperature
(`isRange_rangeBy`).
-/

namespace Thermoscape

/-! ### A cell on its way to the mean -/

section Relax

variable {rate t : ℚ} {ts : List ℚ}

/-- The way that a cell has gone in a step. -/
theorem relax_sub_self (hts : ts ≠ []) (rate t : ℚ) :
    relax rate t ts - t = rate * (Scalar.mean ts - t) := by
  rw [relax_sub hts]
  ring

/-- The way that is left. -/
theorem relax_sub_mean (hts : ts ≠ []) (rate t : ℚ) :
    relax rate t ts - Scalar.mean ts = (1 - rate) * (t - Scalar.mean ts) := by
  rw [relax_sub hts]
  ring

/-- A cell that is not at the mean of its neighbours comes nearer and does not reach it. -/
theorem relax_strictly_between (hts : ts ≠ []) (hrate : 0 < rate) (hrate' : rate < 1)
    (hne : t ≠ Scalar.mean ts) :
    min t (Scalar.mean ts) < relax rate t ts ∧ relax rate t ts < max t (Scalar.mean ts) := by
  have gone := relax_sub_self hts rate t
  have left := relax_sub_mean hts rate t
  have hkept : 0 < 1 - rate := sub_pos.mpr hrate'
  rcases lt_or_gt_of_ne hne with hcold | hwarm
  · have hgone := mul_pos hrate (sub_pos.mpr hcold)
    have hleft := mul_neg_of_pos_of_neg hkept (sub_neg.mpr hcold)
    rw [min_eq_left hcold.le, max_eq_right hcold.le]
    exact ⟨by linarith, by linarith⟩
  · have hgone := mul_neg_of_pos_of_neg hrate (sub_neg.mpr hwarm)
    have hleft := mul_pos hkept (sub_pos.mpr hwarm)
    rw [min_eq_right hwarm.le, max_eq_left hwarm.le]
    exact ⟨by linarith, by linarith⟩

/-- A cell at the mean of its neighbours stays there, so that no cell leaves the way. -/
theorem relax_between (hts : ts ≠ []) (hrate : 0 < rate) (hrate' : rate < 1) :
    min t (Scalar.mean ts) ≤ relax rate t ts ∧ relax rate t ts ≤ max t (Scalar.mean ts) := by
  by_cases hmean : t = Scalar.mean ts
  · have gone := relax_sub_self hts rate t
    rw [← hmean, sub_self, mul_zero] at gone
    rw [← hmean, min_self, max_self]
    exact ⟨by linarith, by linarith⟩
  · have between := relax_strictly_between hts hrate hrate' hmean
    exact ⟨between.1.le, between.2.le⟩

end Relax

namespace Grid

variable {g : Grid ℚ} {below above : ℚ} {p : Int × Int}

/-! ### The range of a field -/

/-- The two numbers are the least and the greatest temperature of a field. -/
structure IsRange (g : Grid ℚ) (range : ℚ × ℚ) : Prop where
  least_mem : range.1 ∈ g.temperatures
  greatest_mem : range.2 ∈ g.temperatures
  within : g.Within range.1 range.2

/-- From bounds that no temperature exceeds, the range of a field is found. -/
theorem isRange_rangeBy (hg : g.WellFormed) (hcount : 0 < g.extent.count)
    (h : g.Within below above) : g.IsRange (g.rangeBy min max (above, below)) := by
  obtain ⟨hleast, hgreatest, -, -, hall⟩ := foldl_range_spec g.temperatures above below
  have hbounds : ∀ t ∈ g.temperatures, below ≤ t ∧ t ≤ above := by
    intro t ht
    obtain ⟨q, hq, rfl⟩ := hg.mem_temperatures_iff.mp ht
    exact h q hq
  obtain ⟨t, ht⟩ : ∃ t, t ∈ g.temperatures := by
    refine List.exists_mem_of_length_pos ?_
    rwa [hg.length_temperatures]
  -- A bound that is left over is the temperature of every cell.
  refine ⟨?_, ?_, ?_⟩
  · rcases hleast with hleft | hmem
    · have heq : above = t := le_antisymm (hleft ▸ (hall t ht).1) (hbounds t ht).2
      exact (hleft.trans heq) ▸ ht
    · exact hmem
  · rcases hgreatest with hleft | hmem
    · have heq : below = t := le_antisymm (hbounds t ht).1 (hleft ▸ (hall t ht).2)
      exact (hleft.trans heq) ▸ ht
    · exact hmem
  · intro q hq
    exact hall _ (hg.mem_temperatures_iff.mpr ⟨q, hq, rfl⟩)

/-- What lies within bounds has its range within them. -/
theorem IsRange.spread_le {range : ℚ × ℚ} (h : g.IsRange range) (hg : g.WellFormed)
    (hwithin : g.Within below above) : range.2 - range.1 ≤ above - below := by
  obtain ⟨p, hp, hleast⟩ := hg.mem_temperatures_iff.mp h.least_mem
  obtain ⟨q, hq, hgreatest⟩ := hg.mem_temperatures_iff.mp h.greatest_mem
  rw [← hleast, ← hgreatest]
  exact sub_le_sub (hwithin q hq).2 (hwithin p hp).1

/-! ### One step -/

/-- The mean of the temperatures beside a place. -/
def meanBeside (g : Grid ℚ) (p : Int × Int) : ℚ :=
  ((g.extent.beside p).map fun q => g.temperatureAt q.1 q.2).sum / (g.extent.beside p).length

/-- A place with neighbours goes part of the way to the mean beside it. -/
theorem temperatureAt_step_between (hg : g.WellFormed) (hrate : 0 < g.rate) (hrate' : g.rate < 1)
    (hp : g.extent.Has p) (hbeside : g.extent.beside p ≠ []) (tick : UInt64) :
    let before := g.temperatureAt p.1 p.2
    let after := (g.step tick).temperatureAt p.1 p.2
    (min before (g.meanBeside p) ≤ after ∧ after ≤ max before (g.meanBeside p))
      ∧ (before ≠ g.meanBeside p →
          min before (g.meanBeside p) < after ∧ after < max before (g.meanBeside p)) := by
  intro before after
  let ts := (g.extent.beside p).map fun q => g.temperatureAt q.1 q.2
  have hts : ts ≠ [] := by simpa [ts] using hbeside
  have hmean : g.meanBeside p = Scalar.mean ts := by
    rw [mean_eq, List.length_map]
    rfl
  have hafter : after = relax g.rate before ts := temperatureAt_step hg hp tick
  rw [hafter, hmean]
  exact ⟨relax_between hts hrate hrate', relax_strictly_between hts hrate hrate'⟩

/-- The spread of a field does not grow in a step. -/
theorem IsRange.spread_step_le {range range' : ℚ × ℚ} (h : g.IsRange range) {tick : UInt64}
    (h' : (g.step tick).IsRange range') (hg : g.WellFormed) (hrate : 0 < g.rate)
    (hrate' : g.rate < 1) : range'.2 - range'.1 ≤ range.2 - range.1 :=
  h'.spread_le (hg.step tick) (h.within.step hg hrate.le hrate'.le tick)

/-! ### The principle -/

/-- **The maximum principle.** Let the range of a field be looked for from bounds that none of
its temperatures exceeds; every field has such bounds. No number of steps leads out of the
range. At every step of a run each place with neighbours goes to a point between its
temperature and the mean of theirs, strictly between if these differ; and the spread of the
field does not grow. -/
theorem maximum_principle (hg : g.WellFormed) (hwidth : 0 < g.extent.width)
    (hheight : 0 < g.extent.height) (hrate : 0 < g.rate) (hrate' : g.rate < 1) :
    (∃ below above, g.Within below above)
    ∧ ∀ below above, g.Within below above →
      let range := fun field : Grid ℚ => field.rangeBy min max (above, below)
      ((range g).1 ∈ g.temperatures ∧ (range g).2 ∈ g.temperatures)
      ∧ (∀ ticks, ∀ t ∈ (g.steps ticks).temperatures, (range g).1 ≤ t ∧ t ≤ (range g).2)
      ∧ (∀ ticks tick p, g.extent.Has p → g.extent.beside p ≠ [] →
          let mean := (g.steps ticks).meanBeside p
          let before := (g.steps ticks).temperatureAt p.1 p.2
          let after := (g.steps (ticks ++ [tick])).temperatureAt p.1 p.2
          (min before mean ≤ after ∧ after ≤ max before mean)
            ∧ (before ≠ mean → min before mean < after ∧ after < max before mean))
      ∧ ∀ ticks tick,
          let before := range (g.steps ticks)
          let after := range (g.steps (ticks ++ [tick]))
          after.2 - after.1 ≤ before.2 - before.1 := by
  have hcount : 0 < g.extent.count :=
    Nat.mul_pos (UInt32.lt_iff_toNat_lt.mp hwidth) (UInt32.lt_iff_toNat_lt.mp hheight)
  obtain ⟨warmest, coldest, -, -, -, hextremes⟩ := exists_extremes hg hcount
  refine ⟨⟨_, _, hextremes⟩, fun below above hbeyond => ?_⟩
  intro range
  -- The bounds stay beyond all temperatures, so that the range is found after every step.
  have isRange : ∀ ticks, (g.steps ticks).IsRange (range (g.steps ticks)) := fun ticks =>
    isRange_rangeBy (hg.steps ticks) (by rwa [extent_steps])
      (hbeyond.steps hg hrate.le hrate'.le ticks)
  refine ⟨⟨(isRange []).least_mem, (isRange []).greatest_mem⟩, ?_, ?_, ?_⟩
  · intro ticks t ht
    obtain ⟨p, hp, rfl⟩ := (hg.steps ticks).mem_temperatures_iff.mp ht
    exact (isRange []).within.steps hg hrate.le hrate'.le ticks p hp
  · intro ticks tick p hp hbeside
    rw [steps_concat]
    exact temperatureAt_step_between (hg.steps ticks) (by rwa [rate_steps])
      (by rwa [rate_steps]) (by rwa [extent_steps]) (by rwa [extent_steps]) tick
  · intro ticks tick
    have next := isRange (ticks ++ [tick])
    rw [steps_concat] at next ⊢
    exact (isRange ticks).spread_step_le next (hg.steps ticks) (by rwa [rate_steps])
      (by rwa [rate_steps])

/-- A strip of three cells at the rate 1/2, whose pending values do not belong to it. From the
bounds -10 and 100 its range is found as 0 to 8. The warm end has one neighbour, at 2, and goes
to a point strictly between 2 and 8; the spread does not grow from the fourth step to the
fifth. -/
theorem maximum_principle_strip :
    let g : Grid ℚ :=
      { extent := ⟨3, 1⟩, ambient := 1000, rate := 1 / 2
        cells := #[⟨0, 70, 0⟩, ⟨2, -70, 0⟩, ⟨8, 7, 0⟩] }
    let range := fun field : Grid ℚ => field.rangeBy min max (100, -10)
    g.WellFormed ∧ 0 < g.extent.width ∧ 0 < g.extent.height ∧ 0 < g.rate ∧ g.rate < 1
      ∧ (∀ t ∈ (g.steps [1, 2, 3]).temperatures, 0 ≤ t ∧ t ≤ 8)
      ∧ 2 < (g.step 1).temperatureAt 2 0 ∧ (g.step 1).temperatureAt 2 0 < 8
      ∧ (range (g.steps [1, 2, 3, 4, 5])).2 - (range (g.steps [1, 2, 3, 4, 5])).1
          ≤ (range (g.steps [1, 2, 3, 4])).2 - (range (g.steps [1, 2, 3, 4])).1 := by
  intro g range
  have hg : g.WellFormed := rfl
  have hwidth : 0 < g.extent.width := by decide
  have hheight : 0 < g.extent.height := by decide
  have hrate : 0 < g.rate := by norm_num [g]
  have hrate' : g.rate < 1 := by norm_num [g]
  have hbeyond : g.Within (-10) 100 := by
    intro p hp
    obtain ⟨c, hc, hpt⟩ := List.mem_map.mp (hg.mem_temperatures_iff.mpr ⟨p, hp, rfl⟩)
    rw [← hpt]
    simp only [g, List.mem_cons, List.not_mem_nil, or_false] at hc
    rcases hc with rfl | rfl | rfl <;> norm_num
  obtain ⟨-, principle⟩ := maximum_principle hg hwidth hheight hrate hrate'
  obtain ⟨-, bounded, between, shrinks⟩ := principle (-10) 100 hbeyond
  have hrange : g.rangeBy min max (100, -10) = (0, 8) := by
    norm_num [g, temperatures, rangeBy]
  have hbeside : g.extent.beside (2, 0) = [(1, 0)] := by decide
  have hmiddle : g.temperatureAt 1 0 = 2 := rfl
  have hend : g.temperatureAt 2 0 = 8 := rfl
  have hmean : g.meanBeside (2, 0) = 2 := by
    norm_num [meanBeside, hbeside, hmiddle]
  have strict := (between [] 1 (2, 0) (by decide) (by simp [hbeside])).2
  rw [steps_nil, hmean, hend] at strict
  refine ⟨hg, hwidth, hheight, hrate, hrate', ?_, ?_, ?_, shrinks [1, 2, 3, 4] 5⟩
  · simpa [hrange] using bounded [1, 2, 3]
  · exact lt_of_eq_of_lt (by norm_num) (strict (by norm_num)).1
  · exact lt_of_lt_of_eq (strict (by norm_num)).2 (by norm_num)

end Grid

end Thermoscape
