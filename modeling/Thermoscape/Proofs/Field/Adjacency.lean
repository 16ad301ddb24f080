import Mathlib.Data.List.Nodup
import Mathlib.Data.Set.Function
import Thermoscape.Proofs.Field.Neighbours

/-!
# Thermoscape.Proofs.Field.Adjacency

**Cells that follow each other are not neighbours for that reason.** The last cell of a row
and the first of the row below it have numbers that follow each other, and the neighbours of
a cell are given by number. What keeps the rows apart is that a place has a number only if it
lies in the field: numbering is a bijection from these places (`bijOn_index`). Whatever is
known of the places beside a place therefore holds of the numbers (`mem_neighbours_iff`): the
neighbours are the cells at distance 1, each once, and being neighbours is symmetric.

Which of the four there are can be read off the coordinates (`neighbours_eq_append`).
-/

namespace Thermoscape

namespace Extent

variable {e : Extent} {p q : Int × Int} {i : Nat}

/-- **Numbering is a bijection** from the places of the field to the numbers below `count`. -/
theorem bijOn_index (e : Extent) :
    Set.BijOn (fun p : Int × Int => e.index? p.1 p.2) {p | e.Has p}
      (Set.image some {i | i < e.count}) := by
  refine ⟨fun p hp => ?_, fun p hp q _ same => ?_, ?_⟩
  · have index := index?_of_contains hp
    exact ⟨_, (index?_eq_some_iff.mp index).1, index.symm⟩
  · have index := index?_of_contains hp
    exact index?_inj (same.symm.trans index) index
  · rintro _ ⟨i, hi, rfl⟩
    exact ⟨(e.column i, e.row i), contains_natCast_iff.mpr ⟨column_lt hi, row_lt hi⟩,
      index?_column_row hi⟩

theorem has_of_index (h : e.index? p.1 p.2 = some i) : e.Has p := by
  by_contra outside
  rw [index?_of_not_contains outside] at h
  cases h

/-! ### Neighbours by number -/

/-- The neighbours of a place are the numbers of the places beside it, in the same order. -/
theorem neighbours_eq_filterMap (e : Extent) (p : Int × Int) :
    e.neighbours p.1 p.2 = (e.beside p).filterMap fun q => e.index? q.1 q.2 := by
  rw [neighbours, beside, four_places, List.filterMap_filter, List.filterMap_map]
  congr 1
  funext d
  by_cases inside : e.Contains (p.1 + d.1) (p.2 + d.2)
  · simp [inside]
  · simp [inside, index?_of_not_contains inside]

/-- The neighbours of a place are the cells at distance 1. -/
theorem mem_neighbours_iff_exists :
    i ∈ e.neighbours p.1 p.2 ↔ ∃ q : Int × Int, e.index? q.1 q.2 = some i ∧ distance p q = 1 := by
  rw [neighbours_eq_filterMap, List.mem_filterMap]
  constructor
  · rintro ⟨q, hq, index⟩
    exact ⟨q, index, (mem_beside_iff.mp hq).2⟩
  · rintro ⟨q, index, hone⟩
    exact ⟨q, mem_beside_iff.mpr ⟨has_of_index index, hone⟩, index⟩

/-- Whether a cell is a neighbour is decided by its own place. -/
theorem mem_neighbours_iff (h : e.index? q.1 q.2 = some i) :
    i ∈ e.neighbours p.1 p.2 ↔ distance p q = 1 := by
  rw [mem_neighbours_iff_exists]
  constructor
  · rintro ⟨q', index, hone⟩
    obtain rfl : q = q' := index?_inj index h
    exact hone
  · exact fun hone => ⟨q, h, hone⟩

theorem nodup_neighbours (e : Extent) (p : Int × Int) : (e.neighbours p.1 p.2).Nodup := by
  rw [neighbours_eq_filterMap]
  exact (e.nodup_beside p).filterMap fun q q' i h h' => index?_inj h' h

/-! ### Neighbours by coordinates -/

/-- The number of a place, as a list, when the place lies in the field under a condition. -/
theorem toList_index? {x y : Int} {a b : Nat} {c : Prop} [Decidable c]
    (hinside : e.Contains x y ↔ c) (hplace : c → x = a ∧ y = b) :
    (e.index? x y).toList = if c then [b * e.width.toNat + a] else [] := by
  by_cases hc : c
  · obtain ⟨rfl, rfl⟩ := hplace hc
    rw [if_pos hc, index?_of_contains (hinside.mpr hc), Int.toNat_natCast, Int.toNat_natCast]
    rfl
  · rw [if_neg hc, index?_of_not_contains (mt hinside.mp hc)]
    rfl

/-- The neighbours of a place of the field: above, below, left and right of it, as far as
there is a row or a column. -/
theorem neighbours_eq_append {x y : Nat} (hx : x < e.width.toNat) (hy : y < e.height.toNat) :
    e.neighbours x y
      = (if 0 < y then [(y - 1) * e.width.toNat + x] else [])
        ++ (if y + 1 < e.height.toNat then [(y + 1) * e.width.toNat + x] else [])
        ++ (if 0 < x then [y * e.width.toNat + (x - 1)] else [])
        ++ (if x + 1 < e.width.toNat then [y * e.width.toNat + (x + 1)] else []) := by
  have up : (e.index? (x + 0) (y + -1)).toList
      = if 0 < y then [(y - 1) * e.width.toNat + x] else [] :=
    toList_index? (by unfold Contains; omega) (by omega)
  have down : (e.index? (x + 0) (y + 1)).toList
      = if y + 1 < e.height.toNat then [(y + 1) * e.width.toNat + x] else [] :=
    toList_index? (by unfold Contains; omega) (by omega)
  have left : (e.index? (x + -1) (y + 0)).toList
      = if 0 < x then [y * e.width.toNat + (x - 1)] else [] :=
    toList_index? (by unfold Contains; omega) (by omega)
  have right : (e.index? (x + 1) (y + 0)).toList
      = if x + 1 < e.width.toNat then [y * e.width.toNat + (x + 1)] else [] :=
    toList_index? (by unfold Contains; omega) (by omega)
  rw [neighbours, List.filterMap_eq_flatMap_toList]
  simp only [directions, List.flatMap_cons, List.flatMap_nil, List.append_nil, up, down, left,
    right, List.append_assoc]

/-- **Numbers and neighbours.** The places of the field and the numbers below `width · height`
correspond, and no other place has a number. The neighbours of a place of the field are the
cells above, below, left and right of it, in this order and each once: one for every row and
column that there is on its four sides, all cells whose place is at distance 1, never the
cell itself. A cell is a neighbour of another exactly when the other is one of it. -/
theorem numbers_and_neighbours (e : Extent) :
    Set.BijOn (fun p : Int × Int => e.index? p.1 p.2)
        {p | 0 ≤ p.1 ∧ p.1 < e.width.toNat ∧ 0 ≤ p.2 ∧ p.2 < e.height.toNat}
        (Set.image some {i | i < e.width.toNat * e.height.toNat})
      ∧ (∀ x y : Int, ¬ (0 ≤ x ∧ x < e.width.toNat ∧ 0 ≤ y ∧ y < e.height.toNat) →
          e.index? x y = none)
      ∧ ∀ x y : Nat, x < e.width.toNat → y < e.height.toNat →
          e.neighbours x y
              = (if 0 < y then [(y - 1) * e.width.toNat + x] else [])
                ++ (if y + 1 < e.height.toNat then [(y + 1) * e.width.toNat + x] else [])
                ++ (if 0 < x then [y * e.width.toNat + (x - 1)] else [])
                ++ (if x + 1 < e.width.toNat then [y * e.width.toNat + (x + 1)] else [])
            ∧ (e.neighbours x y).Nodup
            ∧ (∀ i, i ∈ e.neighbours x y ↔
                ∃ x' y' : Int, e.index? x' y' = some i ∧ (x - x').natAbs + (y - y').natAbs = 1)
            ∧ (∀ i, e.index? x y = some i → i ∉ e.neighbours x y)
            ∧ (e.neighbours x y).length
                = (if 0 < y then 1 else 0) + (if y + 1 < e.height.toNat then 1 else 0)
                  + (if 0 < x then 1 else 0) + (if x + 1 < e.width.toNat then 1 else 0)
            ∧ ∀ (x' y' : Nat) (i i' : Nat), e.index? x y = some i → e.index? x' y' = some i' →
                (i' ∈ e.neighbours x y ↔ i ∈ e.neighbours x' y') := by
  refine ⟨e.bijOn_index, fun x y => index?_of_not_contains, fun x y hx hy => ?_⟩
  have closed := neighbours_eq_append hx hy
  have mem {a b : Nat} {q : Int × Int} {i : Nat} (index : e.index? q.1 q.2 = some i) :
      i ∈ e.neighbours a b ↔ distance (a, b) q = 1 :=
    mem_neighbours_iff (p := (a, b)) index
  refine ⟨closed, e.nodup_neighbours (x, y), fun i => ?_, fun i index hi => ?_, ?_,
    fun x' y' i i' index index' => ?_⟩
  · exact (mem_neighbours_iff_exists (p := (x, y))).trans Prod.exists
  · have hone := (mem (q := (x, y)) index).mp hi
    rw [distance_eq_zero_iff.mpr rfl] at hone
    cases hone
  · rw [closed]
    simp only [List.length_append, apply_ite List.length, List.length_singleton, List.length_nil]
  · rw [mem (q := (x', y')) index', mem (q := (x, y)) index, distance_comm]

/-- In a field of two columns the last cell of a row and the first of the next have the numbers
1 and 2, and neither is a neighbour of the other. In a field of one column there is nothing
to the left or to the right. -/
theorem numbers_and_neighbours_narrow :
    let e : Extent := ⟨2, 3⟩
    let column : Extent := ⟨1, 3⟩
    e.index? 1 0 = some 1 ∧ e.index? 0 1 = some 2
      ∧ e.neighbours 1 0 = [3, 0] ∧ 2 ∉ e.neighbours 1 0 ∧ 1 ∉ e.neighbours 0 1
      ∧ column.neighbours 0 1 = [0, 2] := by
  intro e column
  obtain ⟨-, -, around⟩ := numbers_and_neighbours e
  obtain ⟨-, -, aroundColumn⟩ := numbers_and_neighbours column
  obtain ⟨list, -, -, -, -, symm⟩ := around 1 0 (by decide) (by decide)
  obtain ⟨list', -⟩ := aroundColumn 0 1 (by decide) (by decide)
  have hlist : e.neighbours 1 0 = [3, 0] := list
  have away : 2 ∉ e.neighbours 1 0 := by
    rw [hlist]
    decide
  exact ⟨by decide, by decide, hlist, away, mt (symm 0 1 1 2 (by decide) (by decide)).mpr away,
    list'⟩

end Extent

end Thermoscape
