import Thermoscape.Proofs.Field.Neighbours

/-!
# Thermoscape.Proofs.Field.Propagation

**Heat travels at most one place in a step.** What a place becomes is read from the place
itself and from those beside it. Two fields of one size and rate that agree up to the
distance `n + 1` from a place therefore agree up to the distance `n` after a step
(`AgreeNear.step`), and after `n` steps still at the place itself, if they agreed up to the
distance `n` before. Nothing else that the two fields hold is looked at, neither the ambient
temperature nor pending values nor stamps, and the two runs may be numbered differently.

Distances are counted along both axes. The last cell of a row and the first of the next one
have neighbouring numbers and are far apart. No law of arithmetic is used, so that the
temperatures agree bit for bit.
-/

namespace Thermoscape

namespace Grid

variable {α : Type} {g g' : Grid α} {p : Int × Int} {n : Nat}

/-- Two fields of one size and rate have the same temperatures at all places that are not
farther than `n` from `p`. -/
structure AgreeNear (g g' : Grid α) (p : Int × Int) (n : Nat) : Prop where
  extent_eq : g'.extent = g.extent
  rate_eq : g'.rate = g.rate
  temperature_eq : ∀ q, g.extent.Has q → distance p q ≤ n →
    g'.temperatureAt q.1 q.2 = g.temperatureAt q.1 q.2

/-- A forced temperature is seen nowhere but at its own place. -/
theorem agreeNear_setTemperature {q : Int × Int} (h : n < distance p q) (t : α) :
    AgreeNear g (g.setTemperature q.1 q.2 t) p n where
  extent_eq := g.extent_setTemperature q.1 q.2 t
  rate_eq := g.rate_setTemperature q.1 q.2 t
  temperature_eq := by
    intro r _ hnear
    refine temperatureAt_setTemperature_of_ne (fun hsame => ?_) t
    obtain rfl : r = q := hsame
    omega

variable [Scalar α]

/-- **One step** takes one from the distance up to which two fields agree. -/
theorem AgreeNear.step (h : AgreeNear g g' p (n + 1)) (hg : g.WellFormed) (hg' : g'.WellFormed)
    (tick tick' : UInt64) : AgreeNear (g.step tick) (g'.step tick') p n where
  extent_eq := h.extent_eq
  rate_eq := h.rate_eq
  temperature_eq := by
    intro q hq hnear
    have hat := h.temperature_eq q hq (Nat.le_succ_of_le hnear)
    have hbeside : (g.extent.beside q).map (fun r => g'.temperatureAt r.1 r.2)
        = (g.extent.beside q).map fun r => g.temperatureAt r.1 r.2 := by
      refine List.map_congr_left fun r hr => ?_
      obtain ⟨hr, hone⟩ := Extent.mem_beside_iff.mp hr
      refine h.temperature_eq r hr ?_
      calc distance p r ≤ distance p q + distance q r := distance_triangle p q r
        _ ≤ n + 1 := by omega
    rw [temperatureAt_step hg hq, temperatureAt_step hg' (h.extent_eq ▸ hq), h.extent_eq,
      h.rate_eq, hat, hbeside]

/-- **A number of steps** takes as much from it, however the steps are numbered. -/
theorem AgreeNear.steps {ticks ticks' : List UInt64} (h : AgreeNear g g' p (n + ticks.length))
    (hg : g.WellFormed) (hg' : g'.WellFormed) (hlength : ticks'.length = ticks.length) :
    AgreeNear (g.steps ticks) (g'.steps ticks') p n := by
  induction ticks generalizing g g' ticks' with
  | nil =>
      obtain rfl : ticks' = [] := List.length_eq_zero_iff.mp hlength
      exact h
  | cons tick ticks ih =>
      obtain ⟨tick', rest', rfl⟩ := List.exists_cons_of_length_eq_add_one hlength
      have hrest : rest'.length = ticks.length := Nat.succ.inj hlength
      rw [steps_cons, steps_cons]
      exact ih (h.step hg hg' tick tick') (hg.step tick) (hg'.step tick') hrest

/-- Fields that agree up to as far as steps are made agree at the place itself after them. -/
theorem AgreeNear.temperatureAt_steps {ticks ticks' : List UInt64}
    (h : AgreeNear g g' p ticks.length) (hg : g.WellFormed) (hg' : g'.WellFormed)
    (hp : g.extent.Has p) (hlength : ticks'.length = ticks.length) :
    (g'.steps ticks').temperatureAt p.1 p.2 = (g.steps ticks).temperatureAt p.1 p.2 := by
  rw [← Nat.zero_add ticks.length] at h
  refine (h.steps hg hg' hlength).temperature_eq p ?_ (Nat.le_of_eq (distance_eq_zero_iff.mpr rfl))
  rwa [extent_steps]

/-- **Finite speed of propagation.** If two fields of one size and rate have the same
temperatures at all places not farther than a number of steps from a place, then the place has
the same temperature in both after that number of steps. So what is forced farther away is not
seen at the place up to then. -/
theorem finite_speed (hg : g.WellFormed) (hg' : g'.WellFormed) (hextent : g'.extent = g.extent)
    (hrate : g'.rate = g.rate) (hp : g.extent.Has p) :
    (∀ ticks ticks' : List UInt64, ticks'.length = ticks.length →
      (∀ q, g.extent.Has q → distance p q ≤ ticks.length →
        g'.temperatureAt q.1 q.2 = g.temperatureAt q.1 q.2) →
      (g'.steps ticks').temperatureAt p.1 p.2 = (g.steps ticks).temperatureAt p.1 p.2)
    ∧ ∀ (q : Int × Int) (t : α) (ticks ticks' : List UInt64), ticks'.length = ticks.length →
        ticks.length < distance p q →
        ((g.setTemperature q.1 q.2 t).steps ticks').temperatureAt p.1 p.2
          = (g.steps ticks).temperatureAt p.1 p.2 := by
  constructor
  · intro ticks ticks' hlength hsame
    have agree : AgreeNear g g' p ticks.length := ⟨hextent, hrate, hsame⟩
    exact agree.temperatureAt_steps hg hg' hp hlength
  · intro q t ticks ticks' hlength hfar
    have agree : AgreeNear g (g.setTemperature q.1 q.2 t) p ticks.length :=
      agreeNear_setTemperature hfar t
    exact agree.temperatureAt_steps hg (hg.setTemperature q.1 q.2 t) hp hlength

/-- Two fields of three columns and two rows that differ in the last cell of the first row, and
in all that does not count. The first cell of the second row, which has the next number, is
three places away from it and the same in both after two steps. -/
theorem finite_speed_rows :
    let g : Grid Binary64 :=
      { extent := ⟨3, 2⟩, ambient := .zero, rate := .half
        cells := #[⟨.one, .one, 0⟩, ⟨.two, .two, 0⟩, ⟨.half, .half, 0⟩,
          ⟨.zero, .zero, 0⟩, ⟨.one, .one, 0⟩, ⟨.two, .two, 0⟩] }
    let g' : Grid Binary64 :=
      { extent := ⟨3, 2⟩, ambient := .infinity, rate := .half
        cells := #[⟨.one, .two, 4⟩, ⟨.two, .zero, 4⟩, ⟨.infinity, .half, 4⟩,
          ⟨.zero, .one, 4⟩, ⟨.one, .half, 4⟩, ⟨.two, .one, 4⟩] }
    g.WellFormed ∧ g'.WellFormed ∧ g'.extent = g.extent ∧ g'.rate = g.rate ∧ g.extent.Has (0, 1)
      ∧ (g'.steps [5, 6]).temperatureAt 0 1 = (g.steps [1, 2]).temperatureAt 0 1
      ∧ ((g.setTemperature 2 0 .infinity).steps [1, 2]).temperatureAt 0 1
          = (g.steps [1, 2]).temperatureAt 0 1 := by
  intro g g'
  have hg : g.WellFormed := rfl
  have hg' : g'.WellFormed := rfl
  have hp : g.extent.Has (0, 1) := by decide
  obtain ⟨agree, forced⟩ := finite_speed hg hg' rfl rfl hp
  refine ⟨hg, hg', rfl, rfl, hp, agree [1, 2] [5, 6] rfl ?_, ?_⟩
  · rintro ⟨x, y⟩ ⟨hx₀, hx, hy₀, hy⟩ hnear
    change x < 3 at hx
    change y < 2 at hy
    have places : (x = 0 ∨ x = 1 ∨ x = 2) ∧ (y = 0 ∨ y = 1) := by omega
    rcases places with ⟨rfl | rfl | rfl, rfl | rfl⟩
    · rfl
    · rfl
    · rfl
    · rfl
    · exact absurd hnear (by decide)
    · rfl
  · exact forced (2, 0) .infinity [1, 2] [1, 2] rfl (by decide)

end Grid

end Thermoscape
