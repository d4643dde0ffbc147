import Mathlib.Data.List.Basic

/-!
# Slices

A slice of Go that starts where its array does, with `append` and `s[:0]`. Behind its length the
array may hold what was written there before.

* `Slice`    : the cells that have been written, the capacity, and the length;
* `append`   : one element more, in the same array if there is room;
* `truncate` : `s[:0]`, which keeps the array.

The elements are `toList`; `toList_append` and `toList_truncate` say what the operations do to them.
-/

namespace GoStd

/-- A slice: the cells that have been written, of which the first `len` are its elements. -/
structure Slice (α : Type) where
  cells : List α
  cap : Nat
  len : Nat
  len_le : len ≤ cells.length
  cells_le : cells.length ≤ cap

namespace Slice

variable {α : Type}

/-- `make([]T, 0, cap)`. -/
def make (cap : Nat) : Slice α :=
  { cells := [], cap, len := 0, len_le := Nat.le_refl _, cells_le := Nat.zero_le _ }

def toList (s : Slice α) : List α := s.cells.take s.len

/-- `s[i]`, if there is one. -/
def get? (s : Slice α) (i : Nat) : Option α := if i < s.len then s.cells[i]? else none

theorem length_take_len (s : Slice α) : (s.cells.take s.len).length = s.len := by
  rw [List.length_take, Nat.min_eq_left s.len_le]

theorem length_overwrite (s : Slice α) (x : α) :
    (s.cells.take s.len ++ x :: s.cells.drop (s.len + 1)).length =
      s.len + (s.cells.length - (s.len + 1) + 1) := by
  rw [List.length_append, s.length_take_len, List.length_cons, List.length_drop]

theorem length_extend (s : Slice α) (x : α) : (s.cells.take s.len ++ [x]).length = s.len + 1 := by
  rw [List.length_append, s.length_take_len, List.length_singleton]

theorem overwrite_le (s : Slice α) (x : α) (h : s.len < s.cap) :
    (s.cells.take s.len ++ x :: s.cells.drop (s.len + 1)).length ≤ s.cap := by
  have hcells := s.cells_le
  rw [s.length_overwrite x]
  omega

theorem le_overwrite (s : Slice α) (x : α) :
    s.len + 1 ≤ (s.cells.take s.len ++ x :: s.cells.drop (s.len + 1)).length := by
  rw [s.length_overwrite x]
  omega

theorem extend_le (s : Slice α) (x : α) : (s.cells.take s.len ++ [x]).length ≤ 2 * s.cap + 1 := by
  have hlen := s.len_le
  have hcells := s.cells_le
  rw [s.length_extend x]
  omega

/-- `append(s, x)`: over what was written behind the length, or into a new array. How much larger
that is does not matter here. -/
def append (s : Slice α) (x : α) : Slice α :=
  if h : s.len < s.cap then
    { cells := s.cells.take s.len ++ x :: s.cells.drop (s.len + 1)
      cap := s.cap
      len := s.len + 1
      len_le := s.le_overwrite x
      cells_le := s.overwrite_le x h }
  else
    { cells := s.cells.take s.len ++ [x]
      cap := 2 * s.cap + 1
      len := s.len + 1
      len_le := Nat.le_of_eq (s.length_extend x).symm
      cells_le := s.extend_le x }

/-- `s[:0]`. -/
def truncate (s : Slice α) : Slice α := { s with len := 0, len_le := Nat.zero_le _ }

@[simp] theorem length_toList (s : Slice α) : s.toList.length = s.len := s.length_take_len

@[simp] theorem toList_append (s : Slice α) (x : α) : (s.append x).toList = s.toList ++ [x] := by
  have := s.len_le
  unfold append
  split
  · simp [toList, List.take_append, List.take_take, Nat.min_eq_left this]
  · simp [toList, List.take_append, List.take_take, Nat.min_eq_left this]

@[simp] theorem toList_truncate (s : Slice α) : s.truncate.toList = [] := by
  simp [toList, truncate]

theorem get?_eq (s : Slice α) (i : Nat) : s.get? i = s.toList[i]? := by
  by_cases h : i < s.len
  · simp [get?, toList, h]
  · simp [get?, h]

theorem len_eq_zero (s : Slice α) : s.len = 0 ↔ s.toList = [] := by
  rw [← length_toList, List.length_eq_zero_iff]

end Slice

end GoStd
