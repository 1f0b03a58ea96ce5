import Mathlib.Data.String.Basic
import Std.Data.ExtTreeMap.Lemmas

/-!
# Maps ordered by string keys

`StringMap V` is the ordered map with string keys. The lemmas read a lookup
after an edit with plain equality of keys in place of the comparison, and bound
the size of the edited map.
-/

namespace Foundation

abbrev StringMap (V : Type) := Std.ExtTreeMap String V compare

namespace StringMap

variable {V : Type} {m : StringMap V} {k a : String} {v : V}

theorem get_insert (m : StringMap V) (k a : String) (v : V) :
    (m.insert k v)[a]? = if k = a then some v else m[a]? := by
  rw [Std.ExtTreeMap.getElem?_insert]
  simp only [Std.compare_eq_iff_eq]

@[simp] theorem get_insert_self (m : StringMap V) (k : String) (v : V) :
    (m.insert k v)[k]? = some v := by
  rw [get_insert, if_pos rfl]

theorem get_insert_of_ne (m : StringMap V) (v : V) (h : k ≠ a) :
    (m.insert k v)[a]? = m[a]? := by
  rw [get_insert, if_neg h]

/-- The later of two writes to one key counts. -/
theorem insert_insert (m : StringMap V) (k : String) (v w : V) :
    (m.insert k v).insert k w = m.insert k w := by
  apply Std.ExtTreeMap.ext_getElem?
  intro a
  simp only [get_insert]
  split
  · rfl
  · rfl

theorem get_erase (m : StringMap V) (k a : String) :
    (m.erase k)[a]? = if k = a then none else m[a]? := by
  rw [Std.ExtTreeMap.getElem?_erase]
  simp only [Std.compare_eq_iff_eq]

theorem get_filter (m : StringMap V) (f : String → V → Bool) (a : String) :
    (m.filter f)[a]? = m[a]?.filter (f a) :=
  Std.ExtTreeMap.getElem?_filter' (t := m)

theorem mem_of_get (h : m[k]? = some v) : k ∈ m := by
  rw [Std.ExtTreeMap.mem_iff_isSome_getElem?, h]
  rfl

theorem contains_of_get (h : m[k]? = some v) : m.contains k = true :=
  Std.ExtTreeMap.contains_iff_mem.mpr (mem_of_get h)

theorem get_of_contains (h : m.contains k = true) : ∃ v, m[k]? = some v :=
  Option.isSome_iff_exists.mp
    (Std.ExtTreeMap.mem_iff_isSome_getElem?.mp (Std.ExtTreeMap.contains_iff_mem.mp h))

theorem contains_eq_isSome (m : StringMap V) (k : String) : m.contains k = m[k]?.isSome := by
  rw [Bool.eq_iff_iff, Std.ExtTreeMap.contains_iff_mem,
    Std.ExtTreeMap.mem_iff_isSome_getElem?]

/-- Writing a key that is present keeps the size. -/
theorem size_insert_of_contains (h : m.contains k = true) (v : V) :
    (m.insert k v).size = m.size := by
  rw [Std.ExtTreeMap.size_insert, if_pos h]

theorem size_insert_le (m : StringMap V) (k : String) (v : V) :
    (m.insert k v).size ≤ m.size + 1 :=
  Std.ExtTreeMap.size_insert_le

end StringMap

end Foundation
