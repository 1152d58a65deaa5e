import Mathlib.Algebra.BigOperators.Group.Finset.Basic
import Mathlib.Algebra.BigOperators.Group.Finset.Piecewise
import Mathlib.Data.List.Basic

/-! Forests of numbered nodes in which a parent is always older than its children. -/

namespace UrConnect.Lib

structure Forest where
  parent : ℕ → Option ℕ
  parent_lt : ∀ {i p : ℕ}, parent i = some p → p < i

namespace Forest

variable (F : Forest)

def walk : ℕ → ℕ → List ℕ
  | 0, _ => []
  | fuel + 1, i => i :: (F.parent i).elim [] (walk fuel)

def chain (i : ℕ) : List ℕ := F.walk (i + 1) i

lemma walk_eq_chain {fuel i : ℕ} (h : i < fuel) : F.walk fuel i = F.chain i := by
  induction i using Nat.strong_induction_on generalizing fuel with
  | _ i ih =>
    obtain ⟨fuel, rfl⟩ := Nat.exists_eq_succ_of_ne_zero (by omega : fuel ≠ 0)
    unfold chain walk
    cases hp : F.parent i with
    | none => rfl
    | some p =>
      have hlt := F.parent_lt hp
      simp only [Option.elim_some, List.cons.injEq, true_and]
      rw [ih p hlt (by omega), ih p hlt hlt]

lemma chain_eq (i : ℕ) : F.chain i = i :: (F.parent i).elim [] F.chain := by
  rw [chain, walk]
  cases hp : F.parent i with
  | none => rfl
  | some p => simp only [Option.elim_some, F.walk_eq_chain (F.parent_lt hp)]

lemma le_of_mem_chain {i j : ℕ} (h : j ∈ F.chain i) : j ≤ i := by
  induction i using Nat.strong_induction_on with
  | _ i ih =>
    rw [chain_eq, List.mem_cons] at h
    rcases h with rfl | h
    · exact le_refl j
    · cases hp : F.parent i with
      | none => simp [hp] at h
      | some p =>
        have hlt := F.parent_lt hp
        have := ih p hlt (by simpa [hp] using h)
        omega

lemma chain_nodup (i : ℕ) : (F.chain i).Nodup := by
  induction i using Nat.strong_induction_on with
  | _ i ih =>
    rw [chain_eq, List.nodup_cons]
    cases hp : F.parent i with
    | none => simp
    | some p =>
      have hlt := F.parent_lt hp
      refine ⟨fun hm => ?_, ih p hlt⟩
      have := F.le_of_mem_chain hm
      omega

def graft (n : ℕ) (p : Option ℕ) (hp : ∀ q, p = some q → q < n) : Forest where
  parent := Function.update F.parent n p
  parent_lt {i q} h := by
    by_cases hi : i = n
    · subst hi
      exact hp q (by simpa using h)
    · exact F.parent_lt (by simpa [hi] using h)

lemma graft_chain_of_lt {n i : ℕ} {p : Option ℕ} (hp : ∀ q, p = some q → q < n) (h : i < n) :
    (F.graft n p hp).chain i = F.chain i := by
  induction i using Nat.strong_induction_on with
  | _ i ih =>
    have hi : (F.graft n p hp).parent i = F.parent i := by
      simp [graft, Nat.ne_of_lt h]
    rw [chain_eq, chain_eq, hi]
    cases hq : F.parent i with
    | none => rfl
    | some q =>
      have hlt := F.parent_lt hq
      simp only [Option.elim_some, ih q hlt (by omega)]

variable {M : Type} [AddCommMonoid M]

def subtreeSum (size : ℕ) (f : ℕ → M) (i : ℕ) : M :=
  ∑ j ∈ Finset.range size with i ∈ F.chain j, f j

lemma subtreeSum_update {size k : ℕ} (hk : k < size) (f : ℕ → M) (b : M) (i : ℕ) :
    F.subtreeSum size (Function.update f k (f k + b)) i =
      F.subtreeSum size f i + if i ∈ F.chain k then b else 0 := by
  have hsplit : ∀ j, Function.update f k (f k + b) j = f j + if j = k then b else 0 := by
    intro j
    by_cases hj : j = k
    · subst hj
      simp
    · simp [hj]
  simp only [subtreeSum, hsplit, Finset.sum_add_distrib, Finset.sum_ite_eq', Finset.mem_filter,
    Finset.mem_range, hk, true_and]

lemma subtreeSum_graft {n : ℕ} {p : Option ℕ} (hp : ∀ q, p = some q → q < n) {f : ℕ → M}
    (hf : f n = 0) (i : ℕ) :
    (F.graft n p hp).subtreeSum (n + 1) f i = F.subtreeSum n f i := by
  rw [subtreeSum, Finset.range_add_one, Finset.filter_insert]
  have hold : ∑ j ∈ Finset.range n with i ∈ (F.graft n p hp).chain j, f j = F.subtreeSum n f i := by
    refine Finset.sum_congr (Finset.filter_congr fun j hj => ?_) fun _ _ => rfl
    rw [F.graft_chain_of_lt hp (Finset.mem_range.mp hj)]
  split
  · rw [Finset.sum_insert (by simp), hf, zero_add, hold]
  · exact hold

end Forest

end UrConnect.Lib
