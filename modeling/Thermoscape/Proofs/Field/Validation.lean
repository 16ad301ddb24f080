import Mathlib.Data.List.Induction
import Thermoscape.Field.Settings
import Thermoscape.Proofs.Number.Value

/-!
# Thermoscape.Proofs.Field.Validation

**Which settings describe a field, and what is said of the others.** Two things meet here
that are kept apart.

What do settings come to that are given one after the other? For every kind it is the last
one of that kind, or the default where there is none. `Draft.ofLast` says so kind by kind,
and a draft that is set step by step is that draft (`ofSettings_eq_ofLast`).

What is wrong with a draft? `HasFault` names every fault that it may have, with the values
that are reported; a draft may have many of them at once. They are looked for in the order
of their `turn`. The checks go down that order with one invariant, that no fault has an
earlier turn (`ClearBefore`), so that what is reported is the first fault, and a draft that
comes to the end has none (`verdict_build`).

The checks of numbers are stated for the numbers that the words stand for.
-/

namespace Thermoscape

/-! ### The last setting of a kind -/

namespace Setting

@[simp] def width? : Setting → Option UInt32
  | width n => some n
  | _ => none

@[simp] def height? : Setting → Option UInt32
  | height n => some n
  | _ => none

@[simp] def ambient? : Setting → Option Binary64
  | ambient t => some t
  | _ => none

@[simp] def rate? : Setting → Option Binary64
  | rate r => some r
  | _ => none

/-- The last value of a kind that is given. -/
def last {β : Type} (kind : Setting → Option β) (settings : List Setting) : Option β :=
  (settings.filterMap kind).getLast?

/-- One more setting counts if it is of the kind, and changes nothing otherwise. -/
theorem last_concat {β : Type} (kind : Setting → Option β) (settings : List Setting)
    (s : Setting) : last kind (settings ++ [s]) = (kind s).or (last kind settings) := by
  cases h : kind s with
  | none => simp [last, h]
  | some b => simp [last, h]

end Setting

namespace Draft

/-- The last settings of every kind, and the defaults of the kinds that have one. -/
def ofLast (settings : List Setting) : Draft where
  width := Setting.last Setting.width? settings
  height := Setting.last Setting.height? settings
  ambient := (Setting.last Setting.ambient? settings).getD defaultAmbient
  rate := (Setting.last Setting.rate? settings).getD defaultRate

/-- Adding a setting to the last ones gives the last ones again. -/
theorem set_ofLast (settings : List Setting) (s : Setting) :
    (ofLast settings).set s = ofLast (settings ++ [s]) := by
  cases s <;> simp [ofLast, set, Setting.last_concat]

/-- **Only the last setting of a kind counts.** -/
theorem ofSettings_eq_ofLast (settings : List Setting) : ofSettings settings = ofLast settings := by
  induction settings using List.reverseRecOn with
  | nil => rfl
  | append_singleton settings s ih =>
      rw [ofSettings, List.foldl_append, ← ofSettings, ih]
      exact set_ofLast settings s

end Draft

/-! ### Faults -/

/-- When a fault is looked for. -/
def ConfigError.turn : ConfigError → Nat
  | missing .width => 0
  | missing .height => 1
  | empty .width => 2
  | empty .height => 3
  | tooManyCells _ => 4
  | ambientNotFinite _ => 5
  | rateOutOfRange _ => 6

namespace Draft

variable {d : Draft} {err err' : ConfigError}

/-- What has been given for a side. -/
def given (d : Draft) : Side → Option UInt32
  | .width => d.width
  | .height => d.height

/-- The values in the error are those of the draft. -/
def Carries (d : Draft) : ConfigError → Prop
  | .missing _ => True
  | .empty _ => True
  | .tooManyCells e => d.width = some e.width ∧ d.height = some e.height
  | .ambientNotFinite t => t = d.ambient
  | .rateOutOfRange r => r = d.rate

/-- The draft has the fault that the error reports, whatever other faults it has. -/
def HasFault (d : Draft) : ConfigError → Prop
  | .missing s => d.given s = none
  | .empty s => d.given s = some 0
  | .tooManyCells e => d.width = some e.width ∧ d.height = some e.height
      ∧ UInt32.size ≤ e.width.toNat * e.height.toNat
  | .ambientNotFinite t => t = d.ambient ∧ ¬ ∃ q, t.value? = some q
  | .rateOutOfRange r => r = d.rate ∧ ¬ ∃ q, r.value? = some q ∧ 0 < q ∧ q < 1

/-- The draft describes a field. -/
def Acceptable (d : Draft) : Prop :=
  ∃ w h : UInt32, d.width = some w ∧ d.height = some h ∧ w ≠ 0 ∧ h ≠ 0
    ∧ w.toNat * h.toNat < UInt32.size ∧ (∃ q, d.ambient.value? = some q)
    ∧ ∃ q, d.rate.value? = some q ∧ 0 < q ∧ q < 1

theorem HasFault.carries (h : d.HasFault err) : d.Carries err := by
  cases err with
  | missing s => trivial
  | empty s => trivial
  | tooManyCells e => exact ⟨h.1, h.2.1⟩
  | ambientNotFinite t => exact h.1
  | rateOutOfRange r => exact h.1

/-- At every turn there is one error at most that a draft can lead to. -/
theorem Carries.eq_of_turn_eq (carries : d.Carries err) (carries' : d.Carries err')
    (hturn : err.turn = err'.turn) : err = err' := by
  match err, err', hturn, carries, carries' with
  | .missing .width, .missing .width, _, _, _ => rfl
  | .missing .height, .missing .height, _, _, _ => rfl
  | .empty .width, .empty .width, _, _, _ => rfl
  | .empty .height, .empty .height, _, _, _ => rfl
  | .tooManyCells ⟨w, h⟩, .tooManyCells ⟨w', h'⟩, _, ⟨hw, hh⟩, ⟨hw', hh'⟩ =>
      obtain rfl : w = w' := Option.some.inj (hw.symm.trans hw')
      obtain rfl : h = h' := Option.some.inj (hh.symm.trans hh')
      rfl
  | .ambientNotFinite _, .ambientNotFinite _, _, rfl, rfl => rfl
  | .rateOutOfRange _, .rateOutOfRange _, _, rfl, rfl => rfl

theorem Acceptable.not_hasFault (hd : d.Acceptable) (err : ConfigError) : ¬ d.HasFault err := by
  obtain ⟨w, h, hwidth, hheight, hw, hh, hcells, hambient, hrate⟩ := hd
  have side (s : Side) : ∃ n, d.given s = some n ∧ n ≠ 0 := by
    cases s with
    | width => exact ⟨w, hwidth, hw⟩
    | height => exact ⟨h, hheight, hh⟩
  intro fault
  cases err with
  | missing s =>
      obtain ⟨n, hn, -⟩ := side s
      simp [HasFault, hn] at fault
  | empty s =>
      obtain ⟨n, hn, hpos⟩ := side s
      simp [HasFault, hn, hpos] at fault
  | tooManyCells e =>
      obtain ⟨hw', hh', hmany⟩ := fault
      obtain rfl := Option.some.inj (hwidth.symm.trans hw')
      obtain rfl := Option.some.inj (hheight.symm.trans hh')
      exact Nat.not_le.mpr hcells hmany
  | ambientNotFinite t =>
      obtain ⟨rfl, hnone⟩ := fault
      exact hnone hambient
  | rateOutOfRange r =>
      obtain ⟨rfl, hout⟩ := fault
      exact hout hrate

/-! ### The checks -/

/-- No fault has an earlier turn. -/
def ClearBefore (d : Draft) (k : Nat) : Prop := ∀ err, d.HasFault err → k ≤ err.turn

theorem ClearBefore.next (clear : d.ClearBefore err.turn) (carries : d.Carries err)
    (passed : ¬ d.HasFault err) : d.ClearBefore (err.turn + 1) := by
  intro err' fault
  refine Nat.lt_of_le_of_ne (clear err' fault) fun hturn => passed ?_
  rwa [carries.eq_of_turn_eq fault.carries hturn]

/-- What a draft leads to: its own values if it has no fault, and else the first of its
faults. -/
def Verdict (d : Draft) : Except ConfigError Config → Prop
  | .ok c => d.Acceptable ∧ d.width = some c.extent.width ∧ d.height = some c.extent.height
      ∧ d.ambient = c.ambient ∧ d.rate = c.rate
  | .error err => d.HasFault err ∧ d.ClearBefore err.turn

/-- **One check.** If it fails, the fault of its turn is the first; if it passes, the verdict
is that of the checks behind it, before which there is no fault. -/
theorem Verdict.check {p : Prop} [Decidable p] {rest : p → Except ConfigError Config}
    (clear : d.ClearBefore err.turn) (carries : d.Carries err) (hfault : d.HasFault err ↔ ¬ p)
    (hrest : ∀ hp, d.ClearBefore (err.turn + 1) → d.Verdict (rest hp)) :
    d.Verdict (if hp : p then rest hp else throw err) := by
  by_cases hp : p
  · rw [dif_pos hp]
    exact hrest hp (clear.next carries fun fault => hfault.mp fault hp)
  · rw [dif_neg hp]
    exact ⟨hfault.mpr hp, clear⟩

/-- The check that a side has been given. -/
theorem Verdict.side {s : Side} {rest : UInt32 → Except ConfigError Config}
    (clear : d.ClearBefore (ConfigError.missing s).turn)
    (hrest : ∀ n, d.given s = some n → d.ClearBefore ((ConfigError.missing s).turn + 1) →
      d.Verdict (rest n)) :
    d.Verdict (Draft.side s (d.given s) >>= rest) := by
  cases hgiven : d.given s with
  | none => exact ⟨hgiven, clear⟩
  | some n =>
      refine hrest n hgiven (clear.next trivial fun fault => ?_)
      simp [HasFault, hgiven] at fault

/-- **A draft leads to its own values or to the first of its faults.** -/
theorem verdict_build (d : Draft) : d.Verdict d.build := by
  -- One step for each check; behind it `clear` reaches one turn farther.
  have clear : d.ClearBefore 0 := fun err _ => Nat.zero_le _
  refine Verdict.side (s := .width) clear fun w hwidth clear => ?_
  refine Verdict.side (s := .height) clear fun h hheight clear => ?_
  refine Verdict.check clear trivial ?_ fun hw clear => ?_
  · simp [HasFault, hwidth]
  refine Verdict.check clear trivial ?_ fun hh clear => ?_
  · simp [HasFault, hheight]
  refine Verdict.check clear ⟨hwidth, hheight⟩ ?_ fun hc clear => ?_
  · exact ⟨fun fault => Nat.not_le.mpr fault.2.2,
      fun many => ⟨hwidth, hheight, Nat.not_le.mp many⟩⟩
  refine Verdict.check clear rfl ?_ fun ha clear => ?_
  · rw [HasFault, and_iff_right rfl, Binary64.isFinite_iff_value]
  refine Verdict.check clear rfl ?_ fun hr clear => ?_
  · rw [HasFault, and_iff_right rfl, Binary64.inUnitInterval_iff]
  refine ⟨⟨w, h, hwidth, hheight, ?_, ?_, Nat.lt_succ_of_le hc, ?_, ?_⟩, hwidth, hheight, rfl, rfl⟩
  · exact UInt32.pos_iff_ne_zero.mp hw
  · exact UInt32.pos_iff_ne_zero.mp hh
  · exact Binary64.isFinite_iff_value.mp ha
  · exact Binary64.inUnitInterval_iff.mp hr

theorem Verdict.exists_ok {r : Except ConfigError Config} (verdict : d.Verdict r)
    (hd : d.Acceptable) : ∃ c, r = .ok c := by
  cases r with
  | ok c => exact ⟨c, rfl⟩
  | error err => exact absurd verdict.1 (hd.not_hasFault err)

/-- The first fault is reported, and nothing else is. -/
theorem Verdict.eq_error_iff {r : Except ConfigError Config} (verdict : d.Verdict r) :
    r = .error err ↔ d.HasFault err ∧ d.ClearBefore err.turn := by
  constructor
  · rintro rfl
    exact verdict
  · rintro ⟨fault, clear⟩
    cases r with
    | ok c => exact absurd fault (verdict.1.not_hasFault err)
    | error first =>
        have hturn := Nat.le_antisymm (verdict.2 err fault) (clear first verdict.1)
        rw [verdict.1.carries.eq_of_turn_eq fault.carries hturn]

/-- The defaults pass the checks that are made of them. -/
theorem defaults_pass : (∃ q, defaultAmbient.value? = some q)
    ∧ ∃ q, defaultRate.value? = some q ∧ 0 < q ∧ q < 1 := by
  rw [← Binary64.isFinite_iff_value, ← Binary64.inUnitInterval_iff]
  decide

/-- A rate that is a NaN or a zero of either sign is refused. -/
theorem not_acceptable_of_rate
    (h : d.rate.isNaN = true ∨ d.rate = .zero ∨ d.rate = .negativeZero) : ¬ d.Acceptable := by
  rintro ⟨-, -, -, -, -, -, -, -, hrate⟩
  have inside := Binary64.inUnitInterval_iff.mpr hrate
  rcases h with hnan | hzero | hzero
  · simp [Binary64.inUnitInterval, Binary64.lt, hnan] at inside
  · exact absurd (hzero ▸ inside) (by decide)
  · exact absurd (hzero ▸ inside) (by decide)

end Draft

namespace Config

theorem ofSettings_eq_build (settings : List Setting) :
    ofSettings settings = (Draft.ofLast settings).build := by
  rw [ofSettings, Draft.ofSettings_eq_ofLast]

/-- **What settings lead to.** Only the last setting of each kind counts, and the default
where there is none. The settings describe a field exactly when both sides are given and not
zero, the number of cells fits into 32 bits, the ambient temperature is a number and the rate
is one strictly between 0 and 1, which no NaN and no zero is. The field then has the values
that were given. Otherwise the error reports, with the values that were given, that one of
all faults whose turn is first. -/
theorem ofSettings_verdict (settings : List Setting) :
    let d := Draft.ofLast settings
    (∀ settings', Draft.ofLast settings' = d → ofSettings settings' = ofSettings settings)
      ∧ ((∃ c, ofSettings settings = .ok c) ↔ d.Acceptable)
      ∧ (∀ c, ofSettings settings = .ok c →
          d.width = some c.extent.width ∧ d.height = some c.extent.height
            ∧ d.ambient = c.ambient ∧ d.rate = c.rate
            ∧ c.extent.count = c.extent.width.toNat * c.extent.height.toNat
            ∧ c.extent.count < UInt32.size)
      ∧ (∀ err, ofSettings settings = .error err ↔
          d.HasFault err ∧ ∀ err', d.HasFault err' → err.turn ≤ err'.turn)
      ∧ (d.rate.isNaN = true ∨ d.rate = .zero ∨ d.rate = .negativeZero →
          ∀ c, ofSettings settings ≠ .ok c) := by
  intro d
  have verdict : d.Verdict (ofSettings settings) := by
    rw [ofSettings_eq_build]
    exact d.verdict_build
  have accepted {c : Config} (hc : ofSettings settings = .ok c) : d.Verdict (.ok c) := hc ▸ verdict
  refine ⟨fun settings' same => ?_, ⟨?_, verdict.exists_ok⟩, fun c hc => ?_,
    fun err => verdict.eq_error_iff, fun hrate c hc => ?_⟩
  · rw [ofSettings_eq_build, ofSettings_eq_build, same]
  · rintro ⟨c, hc⟩
    exact (accepted hc).1
  · obtain ⟨-, hwidth, hheight, hambient, hrate⟩ := accepted hc
    exact ⟨hwidth, hheight, hambient, hrate, rfl, Nat.lt_succ_of_le c.count_le⟩
  · exact Draft.not_acceptable_of_rate hrate (accepted hc).1

/-- The last sides of the first list make 2³² cells, so that neither its infinite ambient
temperature nor its rate, which is a NaN, is looked at. With one column less and one row more
there are as many cells as there may be, whatever was given before. -/
theorem ofSettings_verdict_edge :
    let refused : List Setting := [.rate ⟨0x7ff8000000000001⟩, .width 0, .height 65536,
      .ambient .infinity, .width 65536]
    let accepted : List Setting := [.height 0, .rate .zero, .height 65537, .width 65535,
      .rate defaultRate]
    ofSettings refused = .error (.tooManyCells ⟨65536, 65536⟩)
      ∧ ∃ c, ofSettings accepted = .ok c ∧ c.extent.width = 65535 ∧ c.extent.height = 65537
        ∧ c.ambient = defaultAmbient ∧ c.rate = defaultRate ∧ c.extent.count < UInt32.size := by
  intro refused accepted
  constructor
  · have hd : Draft.ofLast refused
        = ⟨some 65536, some 65536, .infinity, ⟨0x7ff8000000000001⟩⟩ := by decide
    obtain ⟨-, -, -, herror, -⟩ := ofSettings_verdict refused
    refine (herror _).mpr ⟨⟨by rw [hd], by rw [hd], by decide⟩, fun err fault => ?_⟩
    rw [hd] at fault
    match err, fault with
    | .tooManyCells _, _ => exact Nat.le_refl 4
    | .ambientNotFinite _, _ => exact Nat.le_succ 4
    | .rateOutOfRange _, _ => exact Nat.le_add_right 4 2
  · have hd : Draft.ofLast accepted
        = ⟨some 65535, some 65537, defaultAmbient, defaultRate⟩ := by decide
    obtain ⟨hambient, hrate⟩ := Draft.defaults_pass
    obtain ⟨-, hok, hvalues, -, -⟩ := ofSettings_verdict accepted
    obtain ⟨c, hc⟩ := hok.mpr ⟨65535, 65537, by rw [hd], by rw [hd], by decide, by decide,
      by decide, by rwa [hd], by rwa [hd]⟩
    obtain ⟨hwidth, hheight, ha, hr, -, hcount⟩ := hvalues c hc
    rw [hd] at hwidth hheight ha hr
    exact ⟨c, hc, (Option.some.inj hwidth).symm, (Option.some.inj hheight).symm, ha.symm, hr.symm,
      hcount⟩

end Config

end Thermoscape
