import Mathlib.Algebra.GroupWithZero.Nat
import Mathlib.Data.List.Basic
import Mathlib.Data.List.Nodup
import Mathlib.Data.List.Pairwise

/-!
# Tables with an `AUTOINCREMENT` key

A table is its rows in key order together with the largest key ever used
(`sqlite_sequence`). The two facts an `INTEGER PRIMARY KEY AUTOINCREMENT` column promises —
keys are positive and grow — are fields, so every table a program can build satisfies them
and no proof about a program re-derives them.

The column type `R` is arbitrary, and `mapCols` projects it: a program whose threads only
disagree about one column is compared through the projection that forgets that column.
-/

set_option autoImplicit false

namespace EdgeFlow
namespace Lib

variable {R S : Type}

@[ext]
structure Table (R : Type) where
  /-- Key and columns, in key order. -/
  rows : List (Nat × R)
  /-- The largest key ever used. -/
  seq : Nat
  ids : ∀ p ∈ rows, 0 < p.1 ∧ p.1 ≤ seq
  sorted : rows.Pairwise fun p q => p.1 < q.1

namespace Table

/-- The largest 64-bit row id; at this point an insert fails. -/
def maxRowid : Nat := 2 ^ 63 - 1

def empty : Table R := ⟨[], 0, by simp, List.Pairwise.nil⟩

/-- `INSERT`: the new key is one more than the largest ever used. -/
def insert (t : Table R) (r : R) : Table R where
  rows := t.rows ++ [(t.seq + 1, r)]
  seq := t.seq + 1
  ids := by
    intro p hp
    rcases List.mem_append.mp hp with hp | hp
    · exact ⟨(t.ids p hp).1, Nat.le_succ_of_le (t.ids p hp).2⟩
    · obtain rfl : p = (t.seq + 1, r) := by simpa using hp
      exact ⟨Nat.succ_pos _, Nat.le_refl _⟩
  sorted := by
    refine List.pairwise_append.mpr ⟨t.sorted, List.pairwise_singleton _ _, ?_⟩
    intro p hp q hq
    obtain rfl : q = (t.seq + 1, r) := by simpa using hq
    exact Nat.lt_succ_of_le (t.ids p hp).2

/-- One row under `UPDATE … SET … WHERE id = ?`. -/
def updateRow (id : Nat) (f : R → R) (p : Nat × R) : Nat × R :=
  if p.1 = id then (p.1, f p.2) else p

@[simp] theorem updateRow_fst (id : Nat) (f : R → R) (p : Nat × R) :
    (updateRow id f p).1 = p.1 := by
  unfold updateRow
  split <;> rfl

/-- `UPDATE … SET … WHERE id = ?`. -/
def update (t : Table R) (id : Nat) (f : R → R) : Table R where
  rows := t.rows.map (updateRow id f)
  seq := t.seq
  ids := by
    intro p hp
    obtain ⟨q, hq, rfl⟩ := List.mem_map.mp hp
    rw [updateRow_fst]
    exact t.ids q hq
  sorted := by
    rw [List.pairwise_map]
    simpa only [updateRow_fst] using t.sorted

/-- Forget or rewrite columns; the keys stay. -/
def mapCols (f : R → S) (t : Table R) : Table S where
  rows := t.rows.map fun p => (p.1, f p.2)
  seq := t.seq
  ids := by
    intro p hp
    obtain ⟨q, hq, rfl⟩ := List.mem_map.mp hp
    exact t.ids q hq
  sorted := by
    rw [List.pairwise_map]
    exact t.sorted

/-! ## Keys are unique -/

theorem nodup_ids (t : Table R) : (t.rows.map Prod.fst).Nodup := by
  rw [List.Nodup, List.pairwise_map]
  exact t.sorted.imp fun hlt => Nat.ne_of_lt hlt

theorem eq_of_id_eq {t : Table R} {p q : Nat × R} (hp : p ∈ t.rows) (hq : q ∈ t.rows)
    (h : p.1 = q.1) : p = q :=
  List.inj_on_of_nodup_map t.nodup_ids hp hq h

/-- Selecting a keyed list by some of its keys keeps one row for each. -/
theorem length_filter_mem {l : List (Nat × R)} {ids : List Nat} (hl : (l.map Prod.fst).Nodup)
    (hids : List.Sublist ids (l.map Prod.fst)) :
    (l.filter fun p => p.1 ∈ ids).length = ids.length := by
  have hperm : ((l.filter fun p => p.1 ∈ ids).map Prod.fst).Perm ids := by
    refine (List.perm_ext_iff_of_nodup (hl.sublist (List.filter_sublist.map _))
      (hl.sublist hids)).mpr fun id => ?_
    simp only [List.mem_map, List.mem_filter, decide_eq_true_eq]
    constructor
    · intro h
      obtain ⟨p, ⟨-, hp⟩, rfl⟩ := h
      exact hp
    · intro h
      obtain ⟨p, hp, rfl⟩ := List.mem_map.mp (hids.subset h)
      exact ⟨p, ⟨hp, h⟩, rfl⟩
  rw [← hperm.length_eq, List.length_map]

/-- Dropping the rows of the first keys drops the first rows. -/
theorem filter_not_mem_take {l : List (Nat × R)} (hl : (l.map Prod.fst).Nodup) (n : Nat) :
    (l.filter fun p => p.1 ∉ (l.take n).map Prod.fst) = l.drop n := by
  have hapart : ∀ p ∈ l.drop n, p.1 ∉ (l.take n).map Prod.fst := by
    intro p hp hmem
    rw [← List.take_append_drop n l, List.map_append, List.nodup_append] at hl
    exact hl.2.2 p.1 hmem p.1 (List.mem_map_of_mem hp) rfl
  conv_lhs =>
    arg 2
    rw [← List.take_append_drop n l]
  rw [List.filter_append, List.filter_eq_nil_iff.mpr, List.nil_append, List.filter_eq_self.mpr]
  · intro p hp
    exact decide_eq_true (hapart p hp)
  · intro p hp
    have hin : p.1 ∈ (l.take n).map Prod.fst := List.mem_map_of_mem hp
    simpa only [decide_eq_true_eq, not_not] using hin

theorem mem_insert {t : Table R} {r : R} {p : Nat × R} :
    p ∈ (t.insert r).rows ↔ p ∈ t.rows ∨ p = (t.seq + 1, r) := by
  simp [insert]

theorem mem_update {t : Table R} {id : Nat} {f : R → R} {p : Nat × R} :
    p ∈ (t.update id f).rows ↔ ∃ q ∈ t.rows, updateRow id f q = p := by
  simp [update]

/-! ## Projections -/

theorem mapCols_insert (f : R → S) (t : Table R) (r : R) :
    (t.insert r).mapCols f = (t.mapCols f).insert (f r) := by
  ext1
  · simp [mapCols, insert]
  · rfl

/-- An update of forgotten columns is invisible. -/
theorem mapCols_update {f : R → S} {g : R → R} (h : ∀ r, f (g r) = f r) (t : Table R) (id : Nat) :
    (t.update id g).mapCols f = t.mapCols f := by
  ext1
  · simp only [mapCols, update, List.map_map]
    refine List.map_congr_left fun p _ => ?_
    simp only [Function.comp, updateRow]
    split <;> simp [h]
  · rfl

end Table

end Lib
end EdgeFlow
