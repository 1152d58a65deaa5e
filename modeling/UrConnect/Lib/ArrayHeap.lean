import Mathlib.Data.List.Basic
import Mathlib.Algebra.Order.Group.Int
import Mathlib.Data.Int.Order.Basic
import Mathlib.Data.Nat.Basic
import Mathlib.Order.WithBot

/-! Binary heaps stored in a list, with the sift loops of an index-based heap. Every
operation only moves elements, so contents are tracked up to permutation. -/

namespace UrConnect.Lib.ArrayHeap

variable {α : Type}

def swap (l : List α) (i j : ℕ) : List α :=
  match l[i]?, l[j]? with
  | some a, some b => (l.set i b).set j a
  | _, _ => l

def lessAt (less : α → α → Bool) (l : List α) (i j : ℕ) : Bool :=
  match l[i]?, l[j]? with
  | some a, some b => less a b
  | _, _ => false

def up (less : α → α → Bool) : ℕ → List α → ℕ → List α
  | 0, l, _ => l
  | fuel + 1, l, j =>
    if (j - 1) / 2 = j ∨ lessAt less l j ((j - 1) / 2) = false then l
    else up less fuel (swap l ((j - 1) / 2) j) ((j - 1) / 2)

def child (less : α → α → Bool) (l : List α) (i n : ℕ) : ℕ :=
  if 2 * i + 2 < n ∧ lessAt less l (2 * i + 2) (2 * i + 1) = true then 2 * i + 2 else 2 * i + 1

def down (less : α → α → Bool) : ℕ → List α → ℕ → ℕ → List α × ℕ
  | 0, l, i, _ => (l, i)
  | fuel + 1, l, i, n =>
    if n ≤ 2 * i + 1 ∨ lessAt less l (child less l i n) i = false then (l, i)
    else down less fuel (swap l i (child less l i n)) (child less l i n) n

def push (less : α → α → Bool) (l : List α) (x : α) : List α :=
  up less (l.length + 1) (l ++ [x]) l.length

def fix (less : α → α → Bool) (l : List α) (i n : ℕ) : List α :=
  let sifted := down less n l i n
  if i < sifted.2 then sifted.1 else up less (i + 1) sifted.1 i

def removeAt (less : α → α → Bool) (l : List α) (i : ℕ) : Option (α × List α) :=
  let n := l.length - 1
  let moved := if n = i then l else fix less (swap l i n) i n
  if i < l.length then moved[n]?.map (fun x => (x, moved.take n)) else none

lemma swap_perm (l : List α) (i j : ℕ) : (swap l i j).Perm l := by
  unfold swap
  split
  · rename_i a b ha hb
    obtain ⟨hi, rfl⟩ := List.getElem?_eq_some_iff.mp ha
    obtain ⟨hj, rfl⟩ := List.getElem?_eq_some_iff.mp hb
    exact List.set_set_perm hi hj
  · exact .refl _

lemma swap_other (l : List α) {i j k : ℕ} (hi : i ≠ k) (hj : j ≠ k) : (swap l i j)[k]? = l[k]? := by
  unfold swap
  split
  · simp [hi, hj]
  · rfl

lemma swap_right (l : List α) {i j : ℕ} (hi : i < l.length) (hj : j < l.length) :
    (swap l i j)[j]? = l[i]? := by
  simp only [swap, List.getElem?_eq_getElem hi, List.getElem?_eq_getElem hj]
  simp [hj]

lemma up_perm (less : α → α → Bool) (fuel : ℕ) (l : List α) (j : ℕ) : (up less fuel l j).Perm l := by
  induction fuel generalizing l j with
  | zero => exact .refl _
  | succ fuel ih =>
    unfold up
    split
    · exact .refl _
    · exact (ih _ _).trans (swap_perm l _ _)

lemma up_other (less : α → α → Bool) (fuel : ℕ) (l : List α) {j k : ℕ} (h : j < k) :
    (up less fuel l j)[k]? = l[k]? := by
  induction fuel generalizing l j with
  | zero => rfl
  | succ fuel ih =>
    unfold up
    split
    · rfl
    · rw [ih _ (by omega), swap_other l (by omega) (by omega)]

lemma child_lt (less : α → α → Bool) (l : List α) {i n : ℕ} (h : 2 * i + 1 < n) :
    child less l i n < n := by
  unfold child
  split <;> omega

lemma down_perm (less : α → α → Bool) (fuel : ℕ) (l : List α) (i n : ℕ) :
    (down less fuel l i n).1.Perm l := by
  induction fuel generalizing l i with
  | zero => exact .refl _
  | succ fuel ih =>
    unfold down
    split
    · exact .refl _
    · exact (ih _ _).trans (swap_perm l _ _)

lemma down_other (less : α → α → Bool) (fuel : ℕ) (l : List α) {i n : ℕ} (h : i < n) :
    (down less fuel l i n).1[n]? = l[n]? := by
  induction fuel generalizing l i with
  | zero => rfl
  | succ fuel ih =>
    unfold down
    split
    · rfl
    · rename_i hc
      have hlt : child less l i n < n := child_lt less l (by omega)
      rw [ih _ hlt, swap_other l (by omega) (by omega)]

lemma push_perm (less : α → α → Bool) (l : List α) (x : α) : (push less l x).Perm (x :: l) :=
  (up_perm less _ _ _).trans (List.perm_append_singleton x l)

lemma fix_perm (less : α → α → Bool) (l : List α) (i n : ℕ) : (fix less l i n).Perm l := by
  unfold fix
  dsimp only
  split
  · exact down_perm less n l i n
  · exact (up_perm less _ _ _).trans (down_perm less n l i n)

lemma fix_last (less : α → α → Bool) (l : List α) {i n : ℕ} (h : i < n) :
    (fix less l i n)[n]? = l[n]? := by
  unfold fix
  dsimp only
  split
  · exact down_other less n l h
  · rw [up_other less _ _ h, down_other less n l h]

lemma removeAt_spec (less : α → α → Bool) (l : List α) {i : ℕ} (h : i < l.length) :
    ∃ rest, removeAt less l i = some (l[i], rest) ∧ (l[i] :: rest).Perm l := by
  have hn : l.length - 1 < l.length := by omega
  obtain ⟨moved, hm, hp, hl⟩ : ∃ moved : List α,
      (if l.length - 1 = i then l else fix less (swap l i (l.length - 1)) i (l.length - 1)) = moved ∧
        moved.Perm l ∧ moved[l.length - 1]? = some l[i] := by
    refine ⟨_, rfl, ?_, ?_⟩
    · split
      · exact .refl _
      · exact (fix_perm less _ _ _).trans (swap_perm l _ _)
    · split
      · rename_i he
        subst he
        exact List.getElem?_eq_getElem h
      · rw [fix_last less _ (by omega), swap_right l h hn, List.getElem?_eq_getElem h]
  refine ⟨moved.take (l.length - 1), ?_, ?_⟩
  · simp only [removeAt, hm, if_pos h, hl, Option.map_some]
  · have hlen : moved.length = l.length := hp.length_eq
    have hlast : moved.take (l.length - 1) ++ [l[i]] = moved := by
      have hs : moved.drop (l.length - 1) = [l[i]] := by
        obtain ⟨hk, he⟩ := List.getElem?_eq_some_iff.mp hl
        rw [List.drop_eq_getElem_cons hk, he, List.drop_eq_nil_of_le (by omega)]
      rw [← hs, List.take_append_drop]
    have hc : (l[i] :: moved.take (l.length - 1)).Perm moved := by
      have hs := (List.perm_append_singleton l[i] (moved.take (l.length - 1))).symm
      rwa [hlast] at hs
    exact hc.trans hp

end UrConnect.Lib.ArrayHeap

/-! The order of a binary heap whose elements are compared by a key in a total preorder: the sift loops repair a
heap that is open at one position, so the first element has a least key. -/

namespace UrConnect.Lib.ArrayHeap

section Order

variable {α κ : Type}

def keyAt (key : α → κ) (l : List α) (k : ℕ) : WithBot κ := (l[k]?.map fun a => (key a : WithBot κ)).getD ⊥

variable {key : α → κ} {l : List α} {i j k n fuel : ℕ}

lemma keyAt_swap (hi : i < l.length) (hj : j < l.length) (k : ℕ) :
    keyAt key (swap l i j) k =
      if k = j then keyAt key l i else if k = i then keyAt key l j else keyAt key l k := by
  simp only [keyAt, swap, List.getElem?_eq_getElem hi, List.getElem?_eq_getElem hj, List.getElem?_set,
    List.length_set]
  by_cases hkj : k = j
  · subst hkj
    simp [hj]
  · by_cases hki : k = i
    · subst hki
      simp [hkj, hi, Ne.symm hkj]
    · simp [hkj, hki, Ne.symm hkj, Ne.symm hki]

lemma keyAt_append_left (x : α) (hk : k < l.length) : keyAt key (l ++ [x]) k = keyAt key l k := by
  rw [keyAt, List.getElem?_append_left hk, keyAt]

lemma keyAt_take {m : ℕ} (hk : k < m) : keyAt key (l.take m) k = keyAt key l k := by
  rw [keyAt, List.getElem?_take, if_pos hk, keyAt]

def keyLess [LT κ] [DecidableLT κ] (key : α → κ) (a b : α) : Bool := key a < key b

variable [Preorder κ]

def Heaped (key : α → κ) (n : ℕ) (l : List α) : Prop :=
  ∀ k, 0 < k → k < n → keyAt key l ((k - 1) / 2) ≤ keyAt key l k

structure OpenAt (key : α → κ) (n : ℕ) (l : List α) (i : ℕ) : Prop where
  apart : ∀ k, 0 < k → k < n → k ≠ i → (k - 1) / 2 ≠ i → keyAt key l ((k - 1) / 2) ≤ keyAt key l k
  across : ∀ k, 0 < k → k < n → (k - 1) / 2 = i → 0 < i → keyAt key l ((i - 1) / 2) ≤ keyAt key l k

lemma swap_length (l : List α) (i j : ℕ) : (swap l i j).length = l.length := (swap_perm l i j).length_eq

lemma heaped_nil (key : α → κ) : Heaped key ([] : List α).length [] := by
  intro k _ hk
  simp at hk

lemma OpenAt.heaped (h : OpenAt key n l i) (habove : 0 < i → i < n → keyAt key l ((i - 1) / 2) ≤ keyAt key l i)
    (hbelow : ∀ k, 0 < k → k < n → (k - 1) / 2 = i → keyAt key l i ≤ keyAt key l k) : Heaped key n l := by
  intro k hk hn
  by_cases hki : k = i
  · subst hki
    exact habove hk hn
  · by_cases hp : (k - 1) / 2 = i
    · rw [hp]
      exact hbelow k hk hn hp
    · exact h.apart k hk hn hki hp

lemma OpenAt.raise (h : OpenAt key n l j) (hj : 0 < j) (hjn : j < n) (hn : n ≤ l.length)
    (hless : keyAt key l j < keyAt key l ((j - 1) / 2))
    (hbelow : ∀ k, 0 < k → k < n → (k - 1) / 2 = j → keyAt key l j ≤ keyAt key l k) :
    OpenAt key n (swap l ((j - 1) / 2) j) ((j - 1) / 2) ∧
      ∀ k, 0 < k → k < n → (k - 1) / 2 = (j - 1) / 2 →
        keyAt key (swap l ((j - 1) / 2) j) ((j - 1) / 2) ≤ keyAt key (swap l ((j - 1) / 2) j) k := by
  have hp : (j - 1) / 2 < l.length := by omega
  have hjl : j < l.length := by omega
  have hpair : 0 < (j - 1) / 2 →
      keyAt key l (((j - 1) / 2 - 1) / 2) ≤ keyAt key l ((j - 1) / 2) := by
    intro hpos
    apply h.apart <;> omega
  refine ⟨⟨?_, ?_⟩, ?_⟩
  · intro k hk hkn hne hpne
    have hkj : k ≠ j := by
      rintro rfl
      exact hpne rfl
    rw [keyAt_swap hp hjl, keyAt_swap hp hjl, if_neg hpne, if_neg hkj, if_neg hne]
    by_cases hkp : (k - 1) / 2 = j
    · rw [if_pos hkp]
      exact h.across k hk hkn hkp hj
    · rw [if_neg hkp]
      exact h.apart k hk hkn hkj hkp
  · intro k hk hkn hpk hpos
    rw [keyAt_swap hp hjl, keyAt_swap hp hjl, if_neg (by omega), if_neg (by omega)]
    by_cases hkj : k = j
    · rw [if_pos hkj]
      exact hpair hpos
    · rw [if_neg hkj, if_neg (by omega)]
      have hstep := h.apart k hk hkn hkj (by omega)
      rw [hpk] at hstep
      exact (hpair hpos).trans hstep
  · intro k hk hkn hpk
    rw [keyAt_swap hp hjl, keyAt_swap hp hjl, if_neg (by omega), if_pos rfl]
    by_cases hkj : k = j
    · rw [if_pos hkj]
      exact hless.le
    · rw [if_neg hkj, if_neg (by omega)]
      have hstep := h.apart k hk hkn hkj (by omega)
      rw [hpk] at hstep
      exact hless.le.trans hstep

lemma OpenAt.lower {c : ℕ} (h : OpenAt key n l i) (hpc : (c - 1) / 2 = i) (hic : i < c) (hcn : c < n)
    (hn : n ≤ l.length) (hless : keyAt key l c < keyAt key l i)
    (hleast : ∀ k, 0 < k → k < n → (k - 1) / 2 = i → keyAt key l c ≤ keyAt key l k) :
    OpenAt key n (swap l i c) c ∧ keyAt key (swap l i c) i ≤ keyAt key (swap l i c) c := by
  have hi : i < l.length := by omega
  have hc : c < l.length := by omega
  refine ⟨⟨?_, ?_⟩, ?_⟩
  · intro k hk hkn hne hpne
    rw [keyAt_swap hi hc, keyAt_swap hi hc, if_neg hpne, if_neg hne]
    by_cases hpk : (k - 1) / 2 = i
    · rw [if_pos hpk, if_neg (by omega)]
      exact hleast k hk hkn hpk
    · rw [if_neg hpk]
      by_cases hki : k = i
      · subst hki
        rw [if_pos rfl]
        exact h.across c (by omega) hcn hpc hk
      · rw [if_neg hki]
        exact h.apart k hk hkn hki hpk
  · intro k hk hkn hpk _
    rw [hpc, keyAt_swap hi hc, keyAt_swap hi hc, if_neg (by omega), if_pos rfl, if_neg (by omega), if_neg (by omega)]
    have hstep := h.apart k hk hkn (by omega) (by omega)
    rwa [hpk] at hstep
  · rw [keyAt_swap hi hc, keyAt_swap hi hc, if_neg (by omega), if_pos rfl, if_pos rfl]
    exact hless.le

lemma Heaped.openAt (h : Heaped key n l) (i : ℕ) : OpenAt key n l i := by
  refine ⟨fun k hk hkn _ _ => h k hk hkn, ?_⟩
  intro k hk hkn hpk hpos
  have hup := h i hpos (by omega)
  have hdown := h k hk hkn
  rw [hpk] at hdown
  exact hup.trans hdown

lemma OpenAt.swap_last (h : OpenAt key l.length l i) (hi : i < l.length - 1) :
    OpenAt key (l.length - 1) (swap l i (l.length - 1)) i := by
  have hlast : l.length - 1 < l.length := by omega
  have hkeep : ∀ k, k < l.length - 1 → k ≠ i → keyAt key (swap l i (l.length - 1)) k = keyAt key l k := by
    intro k hk hki
    rw [keyAt_swap (by omega) hlast, if_neg (by omega), if_neg hki]
  refine ⟨?_, ?_⟩
  · intro k hk hkn hki hpk
    rw [hkeep k hkn hki, hkeep _ (by omega) hpk]
    exact h.apart k hk (by omega) hki hpk
  · intro k hk hkn hpk hpos
    rw [hkeep k hkn (by omega), hkeep _ (by omega) (by omega)]
    exact h.across k hk (by omega) hpk hpos

lemma Heaped.first_le (h : Heaped key n l) (hk : k < n) : keyAt key l 0 ≤ keyAt key l k := by
  induction k using Nat.strong_induction_on with
  | _ k ih =>
    by_cases hzero : k = 0
    · rw [hzero]
    · exact (ih ((k - 1) / 2) (by omega) (by omega)).trans (h k (by omega) hk)

lemma Heaped.first_least {x y : α} (h : Heaped key l.length l) (hx : l.head? = some x) (hy : y ∈ l) : key x ≤ key y := by
  obtain ⟨k, hk, rfl⟩ := List.mem_iff_getElem.mp hy
  have hle := h.first_le hk
  rw [keyAt, keyAt, ← List.head?_eq_getElem?, hx, List.getElem?_eq_getElem hk] at hle
  exact WithBot.coe_le_coe.mp hle

lemma Heaped.map (h : Heaped key l.length l) {f : α → α} (hf : ∀ a b, key a ≤ key b → key (f a) ≤ key (f b)) :
    Heaped key (l.map f).length (l.map f) := by
  rw [List.length_map]
  intro k hk hkn
  have hle := h k hk hkn
  have hparent : (k - 1) / 2 < l.length := by omega
  rw [keyAt, keyAt, List.getElem?_eq_getElem hparent, List.getElem?_eq_getElem hkn] at hle
  rw [keyAt, keyAt, List.getElem?_map, List.getElem?_map, List.getElem?_eq_getElem hparent, List.getElem?_eq_getElem hkn]
  exact WithBot.coe_le_coe.mpr (hf _ _ (WithBot.coe_le_coe.mp hle))

lemma down_le (less : α → α → Bool) (fuel : ℕ) (l : List α) (i n : ℕ) : i ≤ (down less fuel l i n).2 := by
  induction fuel generalizing l i with
  | zero => exact le_rfl
  | succ fuel ih =>
    unfold down
    split
    · exact le_rfl
    · have hchild : i ≤ child less l i n := by
        unfold child
        split <;> omega
      exact hchild.trans (ih _ _)

lemma lessAt_iff [DecidableLT κ] (hi : i < l.length) (hj : j < l.length) :
    lessAt (keyLess key) l i j = true ↔ keyAt key l i < keyAt key l j := by
  simp [lessAt, keyAt, keyLess, List.getElem?_eq_getElem hi, List.getElem?_eq_getElem hj]

variable [DecidableLT κ] [@Std.Total κ (· ≤ ·)]

omit [DecidableLT κ] in
lemma lt_of_not_le {a b : WithBot κ} (h : ¬ a ≤ b) : b < a :=
  lt_of_le_not_ge ((Std.Total.total a b).resolve_left h) h

lemma up_heaped (hfuel : j < fuel) (hjn : j < n) (hn : n ≤ l.length) (h : OpenAt key n l j)
    (hbelow : ∀ k, 0 < k → k < n → (k - 1) / 2 = j → keyAt key l j ≤ keyAt key l k) :
    Heaped key n (up (keyLess key) fuel l j) := by
  induction fuel generalizing l j with
  | zero => omega
  | succ fuel ih =>
    unfold up
    split
    · next hstop =>
      apply h.heaped _ hbelow
      intro hj _
      rcases hstop with hroot | hless
      · omega
      · by_contra hlt
        rw [(lessAt_iff (by omega) (by omega)).mpr (lt_of_not_le hlt)] at hless
        exact Bool.noConfusion hless
    · next hgo =>
      rw [not_or, Bool.not_eq_false] at hgo
      have hj : 0 < j := by
        by_contra hzero
        exact hgo.1 (by omega)
      have hless := (lessAt_iff (by omega) (by omega)).mp hgo.2
      obtain ⟨hopen, hnext⟩ := h.raise hj hjn hn hless hbelow
      apply ih (by omega) (by omega) _ hopen hnext
      rw [swap_length]
      exact hn

lemma child_cases (key : α → κ) (l : List α) (i n : ℕ) (hn : n ≤ l.length) :
    (child (keyLess key) l i n - 1) / 2 = i ∧ i < child (keyLess key) l i n ∧
      ∀ k, 0 < k → k < n → (k - 1) / 2 = i → keyAt key l (child (keyLess key) l i n) ≤ keyAt key l k := by
  unfold child
  split
  · next hright =>
    refine ⟨by omega, by omega, ?_⟩
    intro k hk hkn hpk
    have hless := (lessAt_iff (by omega) (by omega)).mp hright.2
    obtain hk | hk : k = 2 * i + 1 ∨ k = 2 * i + 2 := by omega
    · rw [hk]
      exact hless.le
    · rw [hk]
  · next hleft =>
    refine ⟨by omega, by omega, ?_⟩
    intro k hk hkn hpk
    obtain hk | hk : k = 2 * i + 1 ∨ k = 2 * i + 2 := by omega
    · rw [hk]
    · rw [hk] at hkn ⊢
      by_contra hlt
      exact hleft ⟨hkn, (lessAt_iff (by omega) (by omega)).mpr (lt_of_not_le hlt)⟩

lemma OpenAt.below_of_stop (hn : n ≤ l.length)
    (hstop : n ≤ 2 * i + 1 ∨ lessAt (keyLess key) l (child (keyLess key) l i n) i = false) :
    ∀ k, 0 < k → k < n → (k - 1) / 2 = i → keyAt key l i ≤ keyAt key l k := by
  intro k hk hkn hpk
  obtain ⟨hpc, hic, hleast⟩ := child_cases key l i n hn
  rcases hstop with hleaf | hless
  · omega
  · have hcn := child_lt (keyLess key) l (i := i) (n := n) (by omega)
    have hle : keyAt key l i ≤ keyAt key l (child (keyLess key) l i n) := by
      by_contra hlt
      rw [(lessAt_iff (by omega) (by omega)).mpr (lt_of_not_le hlt)] at hless
      exact Bool.noConfusion hless
    exact hle.trans (hleast k hk hkn hpk)

lemma down_heaped (hfuel : n ≤ fuel + i) (hin : i < n) (hn : n ≤ l.length) (h : OpenAt key n l i)
    (habove : 0 < i → keyAt key l ((i - 1) / 2) ≤ keyAt key l i) :
    Heaped key n (down (keyLess key) fuel l i n).1 := by
  induction fuel generalizing l i with
  | zero => omega
  | succ fuel ih =>
    unfold down
    split
    · next hstop => exact h.heaped (fun hi _ => habove hi) (OpenAt.below_of_stop hn hstop)
    · next hgo =>
      rw [not_or, Bool.not_eq_false] at hgo
      obtain ⟨hpc, hic, hleast⟩ := child_cases key l i n hn
      have hcn := child_lt (keyLess key) l (i := i) (n := n) (by omega)
      have hless := (lessAt_iff (by omega) (by omega)).mp hgo.2
      obtain ⟨hopen, habove'⟩ := h.lower hpc hic hcn hn hless hleast
      apply ih (by omega) hcn _ hopen
      · intro _
        rw [hpc]
        exact habove'
      · rw [swap_length]
        exact hn

lemma fix_heaped (hin : i < n) (hn : n ≤ l.length) (h : OpenAt key n l i) :
    Heaped key n (fix (keyLess key) l i n) := by
  obtain ⟨fuel, rfl⟩ : ∃ fuel, n = fuel + 1 := ⟨n - 1, by omega⟩
  unfold fix down
  by_cases hstop : fuel + 1 ≤ 2 * i + 1 ∨
      lessAt (keyLess key) l (child (keyLess key) l i (fuel + 1)) i = false
  · simp only [if_pos hstop, lt_irrefl, if_false]
    exact up_heaped (by omega) hin hn h (OpenAt.below_of_stop hn hstop)
  · have hgo := hstop
    rw [not_or, Bool.not_eq_false] at hgo
    obtain ⟨hpc, hic, hleast⟩ := child_cases key l i (fuel + 1) hn
    have hcn := child_lt (keyLess key) l (i := i) (n := fuel + 1) (by omega)
    have hless := (lessAt_iff (by omega) (by omega)).mp hgo.2
    obtain ⟨hopen, habove⟩ := h.lower hpc hic hcn hn hless hleast
    have hmoved := hic.trans_le (down_le (keyLess key) fuel
      (swap l i (child (keyLess key) l i (fuel + 1))) (child (keyLess key) l i (fuel + 1)) (fuel + 1))
    simp only [if_neg hstop, if_pos hmoved]
    apply down_heaped (by omega) hcn _ hopen
    · intro _
      rw [hpc]
      exact habove
    · rw [swap_length]
      exact hn

lemma push_heaped (x : α) (h : Heaped key l.length l) :
    Heaped key (l.length + 1) (push (keyLess key) l x) := by
  apply up_heaped (by omega) (by omega) (by simp)
  · refine ⟨?_, ?_⟩
    · intro k hk hkn hne _
      rw [keyAt_append_left x (by omega), keyAt_append_left x (by omega)]
      exact h k hk (by omega)
    · intro k hk hkn hpk _
      omega
  · intro k hk hkn hpk
    omega

lemma OpenAt.removeAt {x : α} {rest : List α} (h : OpenAt key l.length l i)
    (hr : ArrayHeap.removeAt (keyLess key) l i = some (x, rest)) : Heaped key rest.length rest := by
  unfold ArrayHeap.removeAt at hr
  dsimp only at hr
  split at hr
  · next hi =>
    obtain ⟨y, -, heq⟩ := Option.map_eq_some_iff.mp hr
    obtain ⟨-, rfl⟩ := Prod.mk.inj heq
    intro k hk hkn
    rw [List.length_take] at hkn
    rw [keyAt_take (by omega), keyAt_take (by omega)]
    split
    · exact h.apart k hk (by omega) (by omega) (by omega)
    · have hopen := h.swap_last (by omega)
      apply fix_heaped (by omega) _ hopen k hk (by omega)
      rw [swap_length]
      omega
  · exact absurd hr (by simp)

lemma removeAt_heaped {x : α} {rest : List α} (h : Heaped key l.length l)
    (hr : removeAt (keyLess key) l i = some (x, rest)) : Heaped key rest.length rest :=
  (h.openAt i).removeAt hr

lemma Heaped.push (h : Heaped key l.length l) (x : α) :
    Heaped key (ArrayHeap.push (keyLess key) l x).length (ArrayHeap.push (keyLess key) l x) := by
  rw [(push_perm (keyLess key) l x).length_eq]
  exact push_heaped x h

end Order

end UrConnect.Lib.ArrayHeap
