import Mathlib.Data.List.Rotate
import Mathlib.Data.Finset.Card
import Mathlib.Algebra.Group.Defs

/-! A ring that remembers the last values given to it, with an index of the remembered ones; the zero value
marks an empty cell. -/

namespace UrConnect.Lib

namespace RecentRing

variable {α : Type}

lemma set_rotate_succ {l : List α} {a : α} {k : ℕ} (hk : k < l.length) :
    (l.set k a).rotate (k + 1) = (l.rotate k).tail ++ [a] := by
  have hlength : (l.take k).length = k := by
    rw [List.length_take]
    omega
  rw [List.rotate_eq_drop_append_take (by rw [List.length_set]; omega),
    List.rotate_eq_drop_append_take (by omega), List.set_eq_take_append_cons_drop, if_pos hk,
    List.drop_eq_getElem_cons hk, List.cons_append, List.tail_cons]
  have hsplit : l.take k ++ a :: l.drop (k + 1) = (l.take k ++ [a]) ++ l.drop (k + 1) := by
    rw [List.append_assoc, List.singleton_append]
  have hfirst : (l.take k ++ [a]).length = k + 1 := by
    rw [List.length_append, hlength, List.length_singleton]
  rw [hsplit, List.drop_left' hfirst, List.take_left' hfirst, List.append_assoc]

end RecentRing

end UrConnect.Lib
