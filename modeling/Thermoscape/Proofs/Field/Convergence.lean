import Thermoscape.Proofs.Field.Exact

/-!
# Thermoscape.Proofs.Field.Convergence

**Diffusion converges, at a known rate.** In one step a cell keeps the part `1 - rate` of
what it has above the coldest cell, and hands at least the part `rate / 4` of it to each of
its neighbours. `leastShare` is the smaller of the two. Along the sides of the field every
cell is reached from every other in `width + height - 2` steps, so that after these steps
every cell has at least the power `leastShare ^ (width + height - 2)` of what the warmest
cell had above the coldest (`share_le_steps`), while none has become warmer than the
warmest: the spread has shrunk by that power.

A field that a step leaves as it is does not shrink, so its spread is zero.
-/

namespace Thermoscape

/-- The least part of a temperature that goes to a place beside it, or stays, in a step. -/
def leastShare (rate : ℚ) : ℚ := min (1 - rate) (rate / 4)

theorem leastShare_pos {rate : ℚ} (h : 0 < rate) (h' : rate < 1) : 0 < leastShare rate :=
  lt_min (sub_pos.mpr h') (div_pos h (by norm_num))

theorem leastShare_le_one {rate : ℚ} (h : 0 < rate) : leastShare rate ≤ 1 :=
  (min_le_left _ _).trans (by linarith)

/-- The length of the longest of the shortest ways through a field. -/
def Extent.diameter (e : Extent) : Nat := e.width.toNat + e.height.toNat - 2

namespace Grid

variable {g : Grid ℚ} {low high : ℚ} {p q : Int × Int}

/-! ### What reaches a place -/

/-- **One step** hands on the least share to every place beside, and leaves it in place. -/
theorem share_le_step (h : g.Within low high) (hg : g.WellFormed) (hrate : 0 < g.rate)
    (hrate' : g.rate < 1) (hp : g.extent.Has p) (hq : g.extent.Has q)
    (hbeside : p = q ∨ q ∈ g.extent.beside p) (tick : UInt64) :
    leastShare g.rate * (g.temperatureAt q.1 q.2 - low)
      ≤ (g.step tick).temperatureAt p.1 p.2 - low := by
  have habove : 0 ≤ g.temperatureAt q.1 q.2 - low := sub_nonneg.mpr (h q hq).1
  have hothers := forall_beside (fun s hs => (h s hs).1) p
  rw [temperatureAt_step hg hp]
  rcases hbeside with rfl | hmem
  · exact (mul_le_mul_of_nonneg_right (min_le_left _ _) habove).trans
      (keep_le_relax hrate.le (h p hp).1 hothers)
  · have hfour : ((g.extent.beside p).map fun s => g.temperatureAt s.1 s.2).length ≤ 4 := by
      rw [List.length_map]
      exact g.extent.length_beside_le p
    exact (mul_le_mul_of_nonneg_right (min_le_right _ _) habove).trans
      (share_le_relax hrate.le hrate'.le (h p hp).1 hothers hfour (List.mem_map_of_mem hmem))

/-- **A number of steps** hands on that power of the least share to all places that are
not farther away. -/
theorem share_le_steps (h : g.Within low high) (hg : g.WellFormed) (hrate : 0 < g.rate)
    (hrate' : g.rate < 1) (ticks : List UInt64) (hp : g.extent.Has p) (hq : g.extent.Has q)
    (hdistance : distance p q ≤ ticks.length) :
    leastShare g.rate ^ ticks.length * (g.temperatureAt q.1 q.2 - low)
      ≤ (g.steps ticks).temperatureAt p.1 p.2 - low := by
  induction ticks generalizing g q with
  | nil =>
      have hpq : p = q := distance_eq_zero_iff.mp (Nat.le_zero.mp hdistance)
      simp [hpq]
  | cons tick ticks ih =>
      -- The first step goes to a place from which the others are enough.
      obtain ⟨q', hq', hnear, hbeside⟩ := Extent.exists_nearer hp hq hdistance
      have first := share_le_step h hg hrate hrate' hq' hq hbeside tick
      have rest := ih (h.step hg hrate.le hrate'.le tick) (hg.step tick) hrate hrate' hp hq' hnear
      have hshare := pow_nonneg (leastShare_pos hrate hrate').le ticks.length
      rw [List.length_cons, pow_succ, mul_assoc]
      exact (mul_le_mul_of_nonneg_left first hshare).trans rest

/-! ### The spread shrinks -/

/-- How much of the spread is at most left after as many steps as the longest way has. -/
def remainder (g : Grid ℚ) : ℚ := 1 - leastShare g.rate ^ g.extent.diameter

theorem remainder_nonneg (hrate : 0 < g.rate) (hrate' : g.rate < 1) : 0 ≤ g.remainder :=
  sub_nonneg.mpr
    (pow_le_one₀ (leastShare_pos hrate hrate').le (leastShare_le_one hrate))

theorem remainder_lt_one (hrate : 0 < g.rate) (hrate' : g.rate < 1) : g.remainder < 1 :=
  sub_lt_self 1 (pow_pos (leastShare_pos hrate hrate') _)

theorem spread_steps_le (hg : g.WellFormed) (hcount : 0 < g.extent.count) (hrate : 0 < g.rate)
    (hrate' : g.rate < 1) {ticks : List UInt64} (hticks : ticks.length = g.extent.diameter) :
    (g.steps ticks).spread ≤ g.remainder * g.spread := by
  obtain ⟨p, q, hp, hq, hspread, hwithin⟩ := exists_extremes hg hcount
  obtain ⟨p', q', hp', hq', hspread', -⟩ :=
    exists_extremes (hg.steps ticks) (by rwa [extent_steps])
  rw [extent_steps] at hp' hq'
  have hwarmest := (hwithin.steps hg hrate.le hrate'.le ticks p' (by rwa [extent_steps])).2
  have hcoldest := share_le_steps hwithin hg hrate hrate' ticks hq' hp
    (hticks ▸ Extent.distance_le hq' hp)
  rw [hticks] at hcoldest
  rw [hspread, hspread', remainder]
  linarith

/-- The spread shrinks again with every so many steps. -/
theorem spread_steps_mul_le (k : Nat) (hg : g.WellFormed) (hcount : 0 < g.extent.count)
    (hrate : 0 < g.rate) (hrate' : g.rate < 1) {ticks : List UInt64}
    (hticks : ticks.length = k * g.extent.diameter) :
    (g.steps ticks).spread ≤ g.remainder ^ k * g.spread := by
  induction k generalizing g ticks with
  | zero =>
      rw [Nat.zero_mul, List.length_eq_zero_iff] at hticks
      simp [hticks]
  | succ k ih =>
      let first := ticks.take g.extent.diameter
      let rest := ticks.drop g.extent.diameter
      have hsplit : g.steps ticks = (g.steps first).steps rest := by
        rw [← steps_append, List.take_append_drop]
      have hsame : (g.steps first).remainder = g.remainder := by
        simp [remainder]
      have hfirst : (g.steps first).spread ≤ g.remainder * g.spread := by
        refine spread_steps_le hg hcount hrate hrate' ?_
        rw [List.length_take, hticks, Nat.succ_mul]
        omega
      have hlength : rest.length = k * (g.steps first).extent.diameter := by
        rw [extent_steps, List.length_drop, hticks, Nat.succ_mul]
        omega
      have hrest := ih (hg.steps first) (by simpa using hcount) (by simpa using hrate)
        (by simpa using hrate') hlength
      rw [hsame] at hrest
      calc (g.steps ticks).spread = ((g.steps first).steps rest).spread := by rw [hsplit]
        _ ≤ g.remainder ^ k * (g.steps first).spread := hrest
        _ ≤ g.remainder ^ k * (g.remainder * g.spread) :=
            mul_le_mul_of_nonneg_left hfirst (pow_nonneg (remainder_nonneg hrate hrate') k)
        _ = g.remainder ^ (k + 1) * g.spread := by rw [pow_succ, mul_assoc]

/-! ### Fields at rest -/

/-- What one step leaves as it is, no number of steps changes. -/
theorem temperatures_steps_of_fixed (hg : g.WellFormed)
    (h : Diffusion.stencil g.extent g.rate g.temperatures = g.temperatures)
    (ticks : List UInt64) : (g.steps ticks).temperatures = g.temperatures := by
  induction ticks generalizing g with
  | nil => rfl
  | cons tick ticks ih =>
      have hstep : (g.step tick).temperatures = g.temperatures := (temperatures_step hg tick).trans h
      have hfixed : Diffusion.stencil (g.step tick).extent (g.step tick).rate
          (g.step tick).temperatures = (g.step tick).temperatures := by
        rw [hstep]
        exact h
      exact (ih (hg.step tick) hfixed).trans hstep

theorem temperatures_eq_replicate {t : ℚ} (hg : g.WellFormed) (h : g.Within t t) :
    g.temperatures = List.replicate g.extent.count t := by
  refine List.eq_replicate_iff.mpr ⟨hg.length_temperatures, fun s hs => ?_⟩
  obtain ⟨p, hp, rfl⟩ := hg.mem_temperatures_iff.mp hs
  exact le_antisymm (h p hp).2 (h p hp).1

/-- **Only uniform fields are at rest.** -/
theorem temperatures_step_eq_iff (hg : g.WellFormed) (hcount : 0 < g.extent.count)
    (hrate : 0 < g.rate) (hrate' : g.rate < 1) (tick : UInt64) :
    (g.step tick).temperatures = g.temperatures
      ↔ ∀ s ∈ g.temperatures, ∀ t ∈ g.temperatures, s = t := by
  obtain ⟨p, q, hp, hq, hspread, hwithin⟩ := exists_extremes hg hcount
  refine ⟨fun hstep => ?_, fun huniform => ?_⟩
  · -- The spread is unchanged after any number of steps, and has to shrink.
    let ticks : List UInt64 := List.replicate g.extent.diameter tick
    have hfixed := temperatures_steps_of_fixed hg ((temperatures_step hg tick).symm.trans hstep) ticks
    have hshrunk : (g.steps ticks).spread ≤ g.remainder * g.spread :=
      spread_steps_le hg hcount hrate hrate' List.length_replicate
    rw [spread_congr hfixed] at hshrunk
    have hflat : g.spread ≤ 0 := by
      by_contra hpos
      have hless := mul_lt_mul_of_pos_right (remainder_lt_one hrate hrate') (not_le.mp hpos)
      linarith
    intro s hs t ht
    obtain ⟨a, ha, rfl⟩ := hg.mem_temperatures_iff.mp hs
    obtain ⟨b, hb, rfl⟩ := hg.mem_temperatures_iff.mp ht
    have hbounds := hwithin a ha
    have hbounds' := hwithin b hb
    linarith
  · have hsame : g.temperatureAt p.1 p.2 = g.temperatureAt q.1 q.2 :=
      huniform _ (hg.mem_temperatures_iff.mpr ⟨p, hp, rfl⟩) _
        (hg.mem_temperatures_iff.mpr ⟨q, hq, rfl⟩)
    rw [hsame] at hwithin
    rw [temperatures_eq_replicate hg hwithin,
      temperatures_eq_replicate (hg.step tick) (hwithin.step hg hrate.le hrate'.le tick)]
    rfl

/-- **Diffusion converges.** The spread of a field, at any time, is its greatest temperature
less its least. With `D` steps, the way along both sides of the field, it goes down to at most
the part `1 - m ^ D` of what it was, where `m` is the least share of a temperature that is
handed on or kept in a step; with `k` times as many steps it goes down by the `k`-th power of
that part. Only fields of one temperature are left as they are by a step. -/
theorem spread_shrinks (hg : g.WellFormed) (hwidth : 0 < g.extent.width)
    (hheight : 0 < g.extent.height) (hrate : 0 < g.rate) (hrate' : g.rate < 1) :
    let D := g.extent.width.toNat + g.extent.height.toNat - 2
    let m := min (1 - g.rate) (g.rate / 4)
    (∀ ticks : List UInt64, ∃ least ∈ (g.steps ticks).temperatures,
      ∃ greatest ∈ (g.steps ticks).temperatures, (g.steps ticks).spread = greatest - least
        ∧ ∀ t ∈ (g.steps ticks).temperatures, least ≤ t ∧ t ≤ greatest)
    ∧ (∀ ticks : List UInt64, ticks.length = D →
        (g.steps ticks).spread ≤ (1 - m ^ D) * g.spread)
    ∧ (∀ (k : Nat) (ticks : List UInt64), ticks.length = k * D →
        (g.steps ticks).spread ≤ (1 - m ^ D) ^ k * g.spread)
    ∧ ∀ tick, (g.step tick).temperatures = g.temperatures
        ↔ ∀ s ∈ g.temperatures, ∀ t ∈ g.temperatures, s = t := by
  intro D m
  have hcount : 0 < g.extent.count :=
    Nat.mul_pos (UInt32.lt_iff_toNat_lt.mp hwidth) (UInt32.lt_iff_toNat_lt.mp hheight)
  refine ⟨?_, ?_, ?_, ?_⟩
  · intro ticks
    exact spread_eq_sub (hg.steps ticks) (by rwa [extent_steps])
  · intro ticks hticks
    exact spread_steps_le hg hcount hrate hrate' hticks
  · intro k ticks hticks
    exact spread_steps_mul_le k hg hcount hrate hrate' hticks
  · intro tick
    exact temperatures_step_eq_iff hg hcount hrate hrate' tick

/-- A strip of three cells with a warm end, whose pending values do not belong to it: four
steps leave at most 3969 of 4096 parts of its spread, so no two cells differ by more, and a
step changes it. -/
theorem spread_shrinks_strip :
    let g : Grid ℚ :=
      { extent := ⟨3, 1⟩, ambient := 100, rate := 1 / 2
        cells := #[⟨0, 7, 0⟩, ⟨0, 7, 0⟩, ⟨8, 7, 0⟩] }
    g.WellFormed ∧ 0 < g.extent.width ∧ 0 < g.extent.height ∧ 0 < g.rate ∧ g.rate < 1
      ∧ (g.steps [1, 2, 3, 4]).spread ≤ 3969 / 512
      ∧ (∀ s ∈ (g.steps [1, 2, 3, 4]).temperatures, ∀ t ∈ (g.steps [1, 2, 3, 4]).temperatures,
          s - t ≤ 3969 / 512)
      ∧ (g.step 1).temperatures ≠ g.temperatures := by
  intro g
  have hg : g.WellFormed := rfl
  have hwidth : 0 < g.extent.width := by decide
  have hheight : 0 < g.extent.height := by decide
  have hrate : 0 < g.rate := by norm_num [g]
  have hrate' : g.rate < 1 := by norm_num [g]
  obtain ⟨isSpread, -, shrinks, rests⟩ := spread_shrinks hg hwidth hheight hrate hrate'
  have hspread : g.spread = 8 := by
    norm_num [g, spread, temperatures, rangeBy]
  have shrunk : (g.steps [1, 2, 3, 4]).spread ≤ 3969 / 512 := by
    have bound := shrinks 2 [1, 2, 3, 4] rfl
    have steps : g.extent.width.toNat + g.extent.height.toNat - 2 = 2 := rfl
    rw [hspread, steps] at bound
    refine bound.trans ?_
    norm_num [g]
  refine ⟨hg, hwidth, hheight, hrate, hrate', shrunk, ?_, ?_⟩
  · intro s hs t ht
    obtain ⟨least, -, greatest, -, heq, hall⟩ := isSpread [1, 2, 3, 4]
    linarith [(hall s hs).2, (hall t ht).1]
  · rw [ne_eq, rests 1]
    norm_num [g, temperatures]

end Grid

end Thermoscape
