import UrConnect.Lib.ArrayHeap
import Mathlib.Logic.Function.Basic

/-! A binary heap whose elements remember their position, kept by the swaps of the sift loops. -/

namespace UrConnect.Lib

structure IndexedHeap (α : Type) where
  items : List α
  index : α → ℕ

namespace IndexedHeap

variable {α : Type} [DecidableEq α]

def swap (h : IndexedHeap α) (i j : ℕ) : IndexedHeap α :=
  match h.items[i]?, h.items[j]? with
  | some a, some b =>
    { items := (h.items.set i b).set j a
      index := Function.update (Function.update h.index b i) a j }
  | _, _ => h

def up (less : α → α → Bool) : ℕ → IndexedHeap α → ℕ → IndexedHeap α
  | 0, h, _ => h
  | fuel + 1, h, j =>
    if (j - 1) / 2 = j ∨ ArrayHeap.lessAt less h.items j ((j - 1) / 2) = false then h
    else up less fuel (h.swap ((j - 1) / 2) j) ((j - 1) / 2)

def down (less : α → α → Bool) : ℕ → IndexedHeap α → ℕ → ℕ → IndexedHeap α × ℕ
  | 0, h, i, _ => (h, i)
  | fuel + 1, h, i, n =>
    if n ≤ 2 * i + 1 ∨ ArrayHeap.lessAt less h.items (ArrayHeap.child less h.items i n) i = false then (h, i)
    else down less fuel (h.swap i (ArrayHeap.child less h.items i n)) (ArrayHeap.child less h.items i n) n

def push (less : α → α → Bool) (h : IndexedHeap α) (x : α) : IndexedHeap α :=
  up less (h.items.length + 1)
    { items := h.items ++ [x]
      index := Function.update h.index x h.items.length }
    h.items.length

def fix (less : α → α → Bool) (h : IndexedHeap α) (i n : ℕ) : IndexedHeap α :=
  let sifted := down less n h i n
  if i < sifted.2 then sifted.1 else up less (i + 1) sifted.1 i

def removeAt (less : α → α → Bool) (h : IndexedHeap α) (i : ℕ) : Option (α × IndexedHeap α) :=
  let n := h.items.length - 1
  let moved := if n = i then h else fix less (h.swap i n) i n
  if i < h.items.length then moved.items[n]?.map (fun x => (x, { moved with items := moved.items.take n })) else none

def Tracks (h : IndexedHeap α) : Prop := ∀ i a, h.items[i]? = some a → h.index a = i

variable {less : α → α → Bool} {h : IndexedHeap α} {i j k n fuel : ℕ} {x : α}

@[simp] lemma swap_items (h : IndexedHeap α) (i j : ℕ) : (h.swap i j).items = ArrayHeap.swap h.items i j := by
  unfold swap ArrayHeap.swap
  cases h.items[i]? <;> cases h.items[j]? <;> rfl

lemma up_items (less : α → α → Bool) (fuel : ℕ) (h : IndexedHeap α) (j : ℕ) :
    (up less fuel h j).items = ArrayHeap.up less fuel h.items j := by
  induction fuel generalizing h j with
  | zero => rfl
  | succ fuel ih =>
    unfold up ArrayHeap.up
    split
    · rfl
    · rw [ih, swap_items]

lemma down_items (less : α → α → Bool) (fuel : ℕ) (h : IndexedHeap α) (i n : ℕ) :
    (down less fuel h i n).1.items = (ArrayHeap.down less fuel h.items i n).1 ∧
      (down less fuel h i n).2 = (ArrayHeap.down less fuel h.items i n).2 := by
  induction fuel generalizing h i with
  | zero => exact ⟨rfl, rfl⟩
  | succ fuel ih =>
    unfold down ArrayHeap.down
    split
    · exact ⟨rfl, rfl⟩
    · rw [← swap_items]
      exact ih _ _

@[simp] lemma push_items (less : α → α → Bool) (h : IndexedHeap α) (x : α) :
    (push less h x).items = ArrayHeap.push less h.items x := up_items less _ _ _

lemma fix_items (less : α → α → Bool) (h : IndexedHeap α) (i n : ℕ) :
    (fix less h i n).items = ArrayHeap.fix less h.items i n := by
  obtain ⟨hitems, hplace⟩ := down_items less n h i n
  unfold fix ArrayHeap.fix
  dsimp only
  rw [hplace]
  split
  · exact hitems
  · rw [up_items, hitems]

lemma removeAt_items (less : α → α → Bool) (h : IndexedHeap α) (i : ℕ) :
    (removeAt less h i).map (fun r => (r.1, r.2.items)) = ArrayHeap.removeAt less h.items i := by
  have hmoved : (if h.items.length - 1 = i then h else fix less (h.swap i (h.items.length - 1)) i
      (h.items.length - 1)).items = if h.items.length - 1 = i then h.items
        else ArrayHeap.fix less (ArrayHeap.swap h.items i (h.items.length - 1)) i (h.items.length - 1) := by
    split
    · rfl
    · rw [fix_items, swap_items]
  unfold removeAt ArrayHeap.removeAt
  dsimp only
  rw [← hmoved]
  split
  · rw [Option.map_map]
    rfl
  · rfl

lemma Tracks.swap (ht : Tracks h) (i j : ℕ) : Tracks (h.swap i j) := by
  unfold IndexedHeap.swap
  split
  · next a b ha hb =>
    intro k c hc
    rw [List.getElem?_set] at hc
    dsimp only
    by_cases hjk : j = k
    · rw [if_pos hjk] at hc
      split at hc
      · obtain rfl := Option.some.inj hc
        rw [Function.update_self, hjk]
      · exact absurd hc (by simp)
    · rw [if_neg hjk, List.getElem?_set] at hc
      by_cases hik : i = k
      · rw [if_pos hik] at hc
        split at hc
        · obtain rfl := Option.some.inj hc
          have hne : b ≠ a := by
            rintro rfl
            have hi := ht i b ha
            have hj := ht j b hb
            exact hjk (hj.symm.trans (hi.trans hik))
          rw [Function.update_of_ne hne, Function.update_self, hik]
        · exact absurd hc (by simp)
      · rw [if_neg hik] at hc
        have hk := ht k c hc
        have hca : c ≠ a := by
          rintro rfl
          exact hik ((ht i c ha).symm.trans hk)
        have hcb : c ≠ b := by
          rintro rfl
          exact hjk ((ht j c hb).symm.trans hk)
        rw [Function.update_of_ne hca, Function.update_of_ne hcb, hk]
  · exact ht

lemma Tracks.up (ht : Tracks h) (fuel j : ℕ) : Tracks (up less fuel h j) := by
  induction fuel generalizing h j with
  | zero => exact ht
  | succ fuel ih =>
    unfold IndexedHeap.up
    split
    · exact ht
    · exact ih (ht.swap _ _) _

lemma Tracks.down (ht : Tracks h) (fuel i n : ℕ) : Tracks (down less fuel h i n).1 := by
  induction fuel generalizing h i with
  | zero => exact ht
  | succ fuel ih =>
    unfold IndexedHeap.down
    split
    · exact ht
    · exact ih (ht.swap _ _) _

lemma Tracks.fix (ht : Tracks h) (i n : ℕ) : Tracks (fix less h i n) := by
  unfold IndexedHeap.fix
  dsimp only
  split
  · exact ht.down _ _ _
  · exact (ht.down _ _ _).up _ _

lemma Tracks.push (ht : Tracks h) (hx : x ∉ h.items) : Tracks (push less h x) := by
  apply Tracks.up
  intro k a ha
  dsimp only at ha ⊢
  rw [List.getElem?_append] at ha
  split at ha
  · have hne : a ≠ x := by
      rintro rfl
      exact hx (List.mem_of_getElem? ha)
    rw [Function.update_of_ne hne, ht k a ha]
  · next hk =>
    obtain ⟨hlt, rfl⟩ := List.getElem?_eq_some_iff.mp ha
    rw [List.length_singleton] at hlt
    rw [List.getElem_singleton, Function.update_self]
    omega

lemma Tracks.removeAt (ht : Tracks h) (less : α → α → Bool) (hx : x ∈ h.items) :
    ∃ rest, IndexedHeap.removeAt less h (h.index x) = some (x, rest) ∧ Tracks rest ∧
      (x :: rest.items).Perm h.items ∧
        ArrayHeap.removeAt less h.items (h.index x) = some (x, rest.items) := by
  obtain ⟨i, hi, rfl⟩ := List.mem_iff_getElem.mp hx
  have hindex := ht i _ (List.getElem?_eq_getElem hi)
  rw [hindex]
  obtain ⟨rest, hremove, hperm⟩ := ArrayHeap.removeAt_spec less h.items hi
  have hitems := removeAt_items less h i
  rw [hremove, Option.map_eq_some_iff] at hitems
  obtain ⟨⟨y, r⟩, hr, heq⟩ := hitems
  obtain ⟨rfl, rfl⟩ := Prod.mk.inj heq
  refine ⟨r, hr, ?_, hperm, hremove⟩
  unfold IndexedHeap.removeAt at hr
  dsimp only at hr
  rw [if_pos hi, Option.map_eq_some_iff] at hr
  obtain ⟨z, -, hz⟩ := hr
  obtain ⟨-, rfl⟩ := Prod.mk.inj hz
  intro k a ha
  have hmoved : Tracks (if h.items.length - 1 = i then h
      else IndexedHeap.fix less (h.swap i (h.items.length - 1)) i (h.items.length - 1)) := by
    split
    · exact ht
    · exact (ht.swap _ _).fix _ _
  rw [List.getElem?_take] at ha
  split at ha
  · exact hmoved k a ha
  · exact absurd ha (by simp)

end IndexedHeap

end UrConnect.Lib
