import Thermoscape.Proofs.Field.Simultaneous

/-!
# Thermoscape.Proofs.Field.Neighbours

**Which places are beside each other.** `Extent.beside` lists the places of a field that
share an edge with a place. They are the places at distance 1, each listed once
(`mem_beside_iff`, `nodup_beside`), so that being beside is symmetric, and from every
place one can come nearer to any other (`exists_nearer`). A step draws every place to the
temperatures beside it (`temperatureAt_step`).
-/

namespace Thermoscape

/-- The number of edges that have to be crossed on the way from one place to another. -/
def distance (p q : Int × Int) : Nat := (p.1 - q.1).natAbs + (p.2 - q.2).natAbs

theorem distance_comm (p q : Int × Int) : distance p q = distance q p := by
  unfold distance
  omega

theorem distance_eq_zero_iff {p q : Int × Int} : distance p q = 0 ↔ p = q := by
  rw [Prod.ext_iff]
  unfold distance
  omega

theorem distance_triangle (p q r : Int × Int) : distance p r ≤ distance p q + distance q r := by
  unfold distance
  omega

namespace Extent

variable {e : Extent} {p q : Int × Int}

/-- The place lies in the field. -/
abbrev Has (e : Extent) (p : Int × Int) : Prop := e.Contains p.1 p.2

/-- The places of the field above, below, left and right of a place. -/
def beside (e : Extent) (p : Int × Int) : List (Int × Int) :=
  [(p.1, p.2 - 1), (p.1, p.2 + 1), (p.1 - 1, p.2), (p.1 + 1, p.2)].filter
    fun q => decide (e.Contains q.1 q.2)

theorem length_beside_le (e : Extent) (p : Int × Int) : (e.beside p).length ≤ 4 :=
  List.length_filter_le _ _

/-- The places beside a place are those of the field at distance 1. -/
theorem mem_beside_iff : q ∈ e.beside p ↔ e.Has q ∧ distance p q = 1 := by
  obtain ⟨x, y⟩ := p
  obtain ⟨x', y'⟩ := q
  simp only [beside, List.mem_filter, List.mem_cons, List.not_mem_nil, Prod.mk.injEq, or_false,
    decide_eq_true_eq, distance]
  rw [and_comm]
  refine and_congr_right fun _ => ?_
  omega

theorem has_of_mem_beside (h : q ∈ e.beside p) : e.Has q := (mem_beside_iff.mp h).1

/-- Being beside is symmetric. -/
theorem mem_beside_symm : e.Has p ∧ q ∈ e.beside p ↔ p ∈ e.beside q ∧ e.Has q := by
  rw [mem_beside_iff, mem_beside_iff, distance_comm p q, and_assoc, and_comm (a := e.Has q)]

/-- No place is listed twice. -/
theorem nodup_beside (e : Extent) (p : Int × Int) : (e.beside p).Nodup := by
  refine List.filter_sublist.nodup ?_
  simp only [List.nodup_cons, List.mem_cons, Prod.mk.injEq, List.not_mem_nil, or_false, not_or,
    not_false_eq_true, List.nodup_nil, and_true]
  omega

/-- Two places of a field are at most the way along both sides apart. -/
theorem distance_le (hp : e.Has p) (hq : e.Has q) :
    distance p q ≤ e.width.toNat + e.height.toNat - 2 := by
  unfold Has Contains at hp hq
  unfold distance
  omega

/-- A place that is not farther than `n + 1` away, or one beside it, is not farther than
`n` away. -/
theorem exists_nearer {n : Nat} (hp : e.Has p) (hq : e.Has q) (h : distance p q ≤ n + 1) :
    ∃ q', e.Has q' ∧ distance p q' ≤ n ∧ (q' = q ∨ q ∈ e.beside q') := by
  obtain ⟨x, y⟩ := p
  obtain ⟨x', y'⟩ := q
  simp only [Has, Contains, distance] at hp hq h
  by_cases hnear : distance (x, y) (x', y') ≤ n
  · exact ⟨(x', y'), hq, hnear, .inl rfl⟩
  · -- Go along the row as long as the columns differ, and then along the column.
    simp only [distance] at hnear
    have along : ∀ a b : Int, e.Has (a, b) → distance (x, y) (a, b) ≤ n →
        distance (a, b) (x', y') = 1 →
        ∃ q', e.Has q' ∧ distance (x, y) q' ≤ n ∧ (q' = (x', y') ∨ (x', y') ∈ e.beside q') := by
      intro a b hab hdistance hone
      exact ⟨(a, b), hab, hdistance, .inr (mem_beside_iff.mpr ⟨hq, hone⟩)⟩
    simp only [Has, Contains, distance] at along
    by_cases hx : x' < x
    · exact along (x' + 1) y' (by omega) (by omega) (by omega)
    · by_cases hx' : x < x'
      · exact along (x' - 1) y' (by omega) (by omega) (by omega)
      · by_cases hy : y' < y
        · exact along x' (y' + 1) (by omega) (by omega) (by omega)
        · exact along x' (y' - 1) (by omega) (by omega) (by omega)

end Extent

namespace Grid

variable {α : Type} {g : Grid α} {p : Int × Int}

/-- The temperatures of a field are those of its places. -/
theorem WellFormed.mem_temperatures_iff (hg : g.WellFormed) {t : α} :
    t ∈ g.temperatures ↔ ∃ p, g.extent.Has p ∧ g.temperatureAt p.1 p.2 = t := by
  refine ⟨fun ht => ?_, fun ⟨p, hp, hpt⟩ => ?_⟩
  · obtain ⟨c, hc, rfl⟩ := List.mem_map.mp ht
    obtain ⟨i, hi⟩ := Array.mem_iff_getElem?.mp (Array.mem_toList_iff.mp hc)
    have hcount : i < g.extent.count := hg ▸ (Array.getElem?_eq_some_iff.mp hi).1
    have hp : g.extent.Has (g.extent.column i, g.extent.row i) :=
      Extent.contains_natCast_iff.mpr ⟨Extent.column_lt hcount, Extent.row_lt hcount⟩
    refine ⟨_, hp, ?_⟩
    rw [temperatureAt, cell?_of_index (Extent.index?_column_row hcount), hi]
  · have index := Extent.index?_of_contains hp
    obtain ⟨c, hc⟩ := hg.exists_cell (Extent.index?_eq_some_iff.mp index).1
    rw [temperatureAt, cell?_of_index index, hc] at hpt
    rw [← hpt]
    exact List.mem_map_of_mem (Array.mem_toList_iff.mpr (Array.mem_iff_getElem?.mpr ⟨_, hc⟩))

variable [Scalar α]

/-- What a place becomes, by the temperatures at the places beside it. -/
theorem relaxed_eq_relax (g : Grid α) (p : Int × Int) :
    g.relaxed p.1 p.2 = relax g.rate (g.temperatureAt p.1 p.2)
      ((g.extent.beside p).map fun q => g.temperatureAt q.1 q.2) := by
  rw [relax_eq]
  rfl

/-- A step draws a place to the temperatures beside it. -/
theorem temperatureAt_step (hg : g.WellFormed) (hp : g.extent.Has p) (tick : UInt64) :
    (g.step tick).temperatureAt p.1 p.2
      = relax g.rate (g.temperatureAt p.1 p.2)
          ((g.extent.beside p).map fun q => g.temperatureAt q.1 q.2) := by
  rw [temperatureAt, cell?_step hg hp]
  exact relaxed_eq_relax g p

end Grid

end Thermoscape
