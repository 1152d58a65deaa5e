import Mathlib

/-! Sums over the values of a map, and the entries of a map that pass a test. -/

namespace UrConnect.Lib.Tally

variable {κ α : Type} [DecidableEq κ]

def keep (p : α → Bool) (m : AList fun _ : κ => α) : AList fun _ : κ => α where
  entries := m.entries.filter fun e => p e.2
  nodupKeys := m.nodupKeys.sublist List.filter_sublist

def total (f : α → ℕ) (m : AList fun _ : κ => α) : ℕ := (m.entries.map fun e => f e.2).sum

variable {m : AList fun _ : κ => α} {k : κ} {a : α} {f g : α → ℕ}

lemma perm_cons_erase (h : m.lookup k = some a) : m.entries.Perm (⟨k, a⟩ :: (m.erase k).entries) := by
  have hmem : ⟨k, a⟩ ∈ m.entries := AList.mem_lookup_iff.mp h
  obtain ⟨b, before, after, -, hsplit, herase⟩ := List.exists_of_kerase (List.mem_keys_of_mem hmem)
  have hb : m.lookup k = some b := by
    apply AList.mem_lookup_iff.mpr
    rw [hsplit]
    exact List.mem_append_right before List.mem_cons_self
  cases h.symm.trans hb
  rw [show (m.erase k).entries = before ++ after from herase, hsplit]
  exact List.perm_middle

lemma total_insert_of_notMem (h : k ∉ m) : total f (m.insert k a) = f a + total f m := by
  rw [total, AList.entries_insert_of_notMem h, List.map_cons, List.sum_cons, total]

lemma total_erase (h : m.lookup k = some a) : f a + total f (m.erase k) = total f m := by
  rw [total, total, ← List.sum_cons, ((perm_cons_erase h).map fun e => f e.2).sum_eq, List.map_cons]

lemma total_congr (h : ∀ k a, m.lookup k = some a → f a = g a) : total f m = total g m := by
  rw [total, total, List.map_congr_left]
  intro e he
  exact h e.1 e.2 (AList.mem_lookup_iff.mpr he)

lemma total_of_eq_off (h : m.lookup k = some a) (hoff : ∀ k' b, k' ≠ k → m.lookup k' = some b → f b = g b) :
    total f m + g a = total g m + f a := by
  have hrest : total f (m.erase k) = total g (m.erase k) := by
    apply total_congr
    intro k' b hb
    have hne : k' ≠ k := by
      rintro rfl
      rw [AList.lookup_erase] at hb
      cases hb
    rw [AList.lookup_erase_ne hne] at hb
    exact hoff k' b hne hb
  rw [← total_erase (f := f) h, ← total_erase (f := g) h, hrest]
  omega

end UrConnect.Lib.Tally
