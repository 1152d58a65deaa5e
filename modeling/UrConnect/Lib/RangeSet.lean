import Mathlib

/-! The binary search for the first index at which a test fails, over a test that may fail to read. -/

namespace UrConnect.Lib.BinarySearch

def search (test : ℕ → Option Bool) : ℕ → ℕ → ℕ → Option ℕ
  | 0, lo, _ => some lo
  | fuel + 1, lo, hi =>
    if lo < hi then
      (test ((lo + hi) / 2)).bind fun passed =>
        if passed then search test fuel ((lo + hi) / 2 + 1) hi else search test fuel lo ((lo + hi) / 2)
    else some lo

variable {test : ℕ → Option Bool} {P : ℕ → Prop} [DecidablePred P] {count fuel lo hi : ℕ}

lemma search_spec (htest : ∀ i < count, test i = some (decide (P i))) (hdown : ∀ i j, i ≤ j → j < count → P j → P i)
    (hfuel : hi ≤ lo + fuel) (hle : lo ≤ hi) (hhi : hi ≤ count) (hbefore : ∀ i < lo, P i)
    (hafter : ∀ i, hi ≤ i → i < count → ¬ P i) :
    ∃ k ≤ count, search test fuel lo hi = some k ∧ (∀ i < k, P i) ∧ ∀ i, k ≤ i → i < count → ¬ P i := by
  induction fuel generalizing lo hi with
  | zero =>
    obtain rfl : lo = hi := by omega
    exact ⟨lo, hhi, rfl, hbefore, hafter⟩
  | succ fuel ih =>
    rw [search]
    split
    · next hlt =>
      have hmid : (lo + hi) / 2 < count := by omega
      rw [htest _ hmid, Option.bind_some]
      split
      · next hpassed =>
        have hp := of_decide_eq_true hpassed
        apply ih (by omega) (by omega) hhi _ hafter
        intro i hi'
        exact hdown i _ (by omega) hmid hp
      · next hpassed =>
        have hp : ¬ P ((lo + hi) / 2) := fun hp => hpassed (decide_eq_true hp)
        apply ih (by omega) (by omega) (by omega) hbefore
        intro i hle' hi' hi''
        exact hp (hdown _ i hle' hi' hi'')
    · obtain rfl : lo = hi := by omega
      exact ⟨lo, hhi, rfl, hbefore, hafter⟩

lemma search_whole (htest : ∀ i < count, test i = some (decide (P i)))
    (hdown : ∀ i j, i ≤ j → j < count → P j → P i) :
    ∃ k ≤ count, search test count 0 count = some k ∧ (∀ i < k, P i) ∧ ∀ i, k ≤ i → i < count → ¬ P i := by
  apply search_spec htest hdown (by omega) (Nat.zero_le _) le_rfl
  · intro i hi
    exact absurd hi (Nat.not_lt_zero i)
  · intro i hi hlt
    omega

end UrConnect.Lib.BinarySearch

/-! Lists of closed ranges of a linear order: coalescing a sorted list, taking ranges out of it, and the sets that
they cover. -/

namespace UrConnect.Lib

structure ClosedRange (α : Type) where
  lo : α
  hi : α
deriving DecidableEq

namespace ClosedRange

variable {α : Type} [LinearOrder α]

def Contains (r : ClosedRange α) (x : α) : Prop := r.lo ≤ x ∧ x ≤ r.hi

def Covers (rs : List (ClosedRange α)) (x : α) : Prop := ∃ r ∈ rs, r.Contains x

def Apart (rs : List (ClosedRange α)) : Prop := rs.Pairwise fun a b => a.hi < b.lo

def Proper (rs : List (ClosedRange α)) : Prop := ∀ r ∈ rs, r.lo ≤ r.hi

def before (a b : ClosedRange α) : Bool := if a.lo = b.lo then a.hi ≤ b.hi else a.lo ≤ b.lo

def coalesce (adjacent : α → α → Bool) : ClosedRange α → List (ClosedRange α) → List (ClosedRange α)
  | last, [] => [last]
  | last, r :: rs =>
    if r.lo ≤ last.hi then coalesce adjacent ⟨last.lo, if last.hi < r.hi then r.hi else last.hi⟩ rs
    else if adjacent last.hi r.lo then coalesce adjacent ⟨last.lo, r.hi⟩ rs
    else last :: coalesce adjacent r rs

def merge (adjacent : α → α → Bool) (rs : List (ClosedRange α)) : List (ClosedRange α) :=
  match rs.mergeSort before with
  | [] => []
  | first :: rest => coalesce adjacent first rest

def cut (prev next : α → α) (r b : ClosedRange α) : List (ClosedRange α) :=
  if r.hi < b.lo ∨ b.hi < r.lo then [b]
  else (if b.lo < r.lo then [⟨b.lo, prev r.lo⟩] else []) ++ if r.hi < b.hi then [⟨next r.hi, b.hi⟩] else []

def subtract (prev next : α → α) (block reserved : List (ClosedRange α)) : List (ClosedRange α) :=
  reserved.foldl (fun res r => res.flatMap (cut prev next r)) block

def Touching (adjacent : α → α → Bool) : Prop := ∀ a b, adjacent a b = true → a < b ∧ ∀ x, x ≤ a ∨ b ≤ x

structure Neighbours (prev next : α → α) : Prop where
  prev : ∀ a b, b < a → ∀ x, x ≤ prev a ↔ x < a
  next : ∀ a b, a < b → ∀ x, next a ≤ x ↔ a < x

variable {adjacent : α → α → Bool} {prev next : α → α} {last r b : ClosedRange α} {rs : List (ClosedRange α)} {x : α}

@[simp] lemma covers_nil : Covers ([] : List (ClosedRange α)) x ↔ False := by simp [Covers]

@[simp] lemma covers_cons : Covers (r :: rs) x ↔ r.Contains x ∨ Covers rs x := by simp [Covers]

lemma covers_append {rs' : List (ClosedRange α)} : Covers (rs ++ rs') x ↔ Covers rs x ∨ Covers rs' x := by
  simp [Covers, or_and_right, exists_or]

lemma covers_coalesce (htouching : Touching adjacent) (hsorted : (last :: rs).Pairwise fun a b => a.lo ≤ b.lo)
    (hproper : Proper (last :: rs)) : Covers (coalesce adjacent last rs) x ↔ Covers (last :: rs) x := by
  induction rs generalizing last with
  | nil => rfl
  | cons r rs ih =>
    obtain ⟨hlast, hrest⟩ := List.pairwise_cons.mp hsorted
    obtain ⟨hself, hothers⟩ := List.forall_mem_cons.mp hproper
    obtain ⟨hr, hothers'⟩ := List.forall_mem_cons.mp hothers
    have hfirst := hlast r List.mem_cons_self
    have hgrown : ∀ hi, ((⟨last.lo, hi⟩ : ClosedRange α) :: rs).Pairwise fun a b => a.lo ≤ b.lo := fun hi =>
      List.pairwise_cons.mpr ⟨fun s hs => hlast s (List.mem_cons_of_mem r hs), (List.pairwise_cons.mp hrest).2⟩
    rw [coalesce]
    split
    · next hoverlap =>
      have hgrow : last.lo ≤ if last.hi < r.hi then r.hi else last.hi := by
        split
        · exact hfirst.trans hr
        · exact hself
      rw [ih (hgrown _) (List.forall_mem_cons.mpr ⟨hgrow, hothers'⟩)]
      simp only [covers_cons, ← or_assoc]
      apply or_congr_left
      simp only [Contains]
      split
      · next hlonger =>
        constructor
        · rintro ⟨hlo, hhi⟩
          obtain hx | hx := le_or_gt x last.hi
          · exact .inl ⟨hlo, hx⟩
          · exact .inr ⟨hoverlap.trans hx.le, hhi⟩
        · rintro (⟨hlo, hhi⟩ | ⟨hlo, hhi⟩)
          · exact ⟨hlo, hhi.trans hlonger.le⟩
          · exact ⟨hfirst.trans hlo, hhi⟩
      · next hshorter =>
        constructor
        · exact .inl
        · rintro (h | ⟨hlo, hhi⟩)
          · exact h
          · exact ⟨hfirst.trans hlo, hhi.trans (not_lt.mp hshorter)⟩
    · split
      · next hadjacent =>
        obtain ⟨hlt, hgap⟩ := htouching _ _ hadjacent
        rw [ih (hgrown r.hi) (List.forall_mem_cons.mpr ⟨hfirst.trans hr, hothers'⟩)]
        simp only [covers_cons, ← or_assoc]
        apply or_congr_left
        constructor
        · rintro ⟨hlo, hhi⟩
          obtain hx | hx := hgap x
          · exact .inl ⟨hlo, hx⟩
          · exact .inr ⟨hx, hhi⟩
        · rintro (⟨hlo, hhi⟩ | ⟨hlo, hhi⟩)
          · exact ⟨hlo, hhi.trans (hlt.le.trans hr)⟩
          · exact ⟨hfirst.trans hlo, hhi⟩
      · simp only [covers_cons, ih hrest hothers]

lemma apart_coalesce (adjacent : α → α → Bool) (hsorted : (last :: rs).Pairwise fun a b => a.lo ≤ b.lo) (hproper : Proper (last :: rs)) :
    Apart (coalesce adjacent last rs) ∧ Proper (coalesce adjacent last rs) ∧
      ∀ s ∈ coalesce adjacent last rs, last.lo ≤ s.lo := by
  induction rs generalizing last with
  | nil =>
    refine ⟨List.pairwise_singleton _ _, hproper, ?_⟩
    intro s hs
    rw [List.mem_singleton.mp hs]
  | cons r rs ih =>
    obtain ⟨hlast, hrest⟩ := List.pairwise_cons.mp hsorted
    obtain ⟨hself, hothers⟩ := List.forall_mem_cons.mp hproper
    obtain ⟨hr, hothers'⟩ := List.forall_mem_cons.mp hothers
    have hfirst := hlast r List.mem_cons_self
    have hgrown : ∀ hi, ((⟨last.lo, hi⟩ : ClosedRange α) :: rs).Pairwise fun a b => a.lo ≤ b.lo := fun hi =>
      List.pairwise_cons.mpr ⟨fun s hs => hlast s (List.mem_cons_of_mem r hs), (List.pairwise_cons.mp hrest).2⟩
    rw [coalesce]
    split
    · apply ih (hgrown _) (List.forall_mem_cons.mpr ⟨_, hothers'⟩)
      dsimp only
      split
      · exact hfirst.trans hr
      · exact hself
    · next hbeyond =>
      split
      · exact ih (hgrown r.hi) (List.forall_mem_cons.mpr ⟨hfirst.trans hr, hothers'⟩)
      · obtain ⟨hapart, hprop, hstart⟩ := ih hrest hothers
        refine ⟨?_, List.forall_mem_cons.mpr ⟨hself, hprop⟩, ?_⟩
        · apply List.pairwise_cons.mpr
          exact ⟨fun s hs => (not_le.mp hbeyond).trans_le (hstart s hs), hapart⟩
        · exact List.forall_mem_cons.mpr ⟨le_rfl, fun s hs => hfirst.trans (hstart s hs)⟩

lemma before_trans (a b c : ClosedRange α) (hab : before a b = true) (hbc : before b c = true) : before a c = true := by
  simp only [before] at *
  grind

lemma before_total (a b : ClosedRange α) : (before a b || before b a) = true := by
  simp only [before]
  grind

lemma lo_le_of_before (a b : ClosedRange α) (h : before a b = true) : a.lo ≤ b.lo := by
  simp only [before] at h
  grind

lemma sorted_lo (rs : List (ClosedRange α)) : (rs.mergeSort before).Pairwise fun a b => a.lo ≤ b.lo :=
  (List.pairwise_mergeSort before_trans before_total rs).imp fun {a b} h => lo_le_of_before a b h

lemma merge_spec (htouching : Touching adjacent) (hproper : Proper rs) :
    (∀ x, Covers (merge adjacent rs) x ↔ Covers rs x) ∧ Apart (merge adjacent rs) ∧ Proper (merge adjacent rs) := by
  have hperm := List.mergeSort_perm rs before
  have hsorted := sorted_lo rs
  have hcovers : ∀ x, Covers (rs.mergeSort before) x ↔ Covers rs x := by
    intro x
    simp only [Covers, hperm.mem_iff]
  have hproper' : Proper (rs.mergeSort before) := fun r hr => hproper r (hperm.subset hr)
  rw [merge]
  cases hall : rs.mergeSort before with
  | nil =>
    refine ⟨?_, List.Pairwise.nil, List.forall_mem_nil _⟩
    intro x
    rw [← hcovers, hall]
  | cons first rest =>
    rw [hall] at hsorted hproper'
    obtain ⟨hapart, hprop, -⟩ := apart_coalesce adjacent hsorted hproper'
    refine ⟨?_, hapart, hprop⟩
    intro x
    rw [covers_coalesce htouching hsorted hproper', ← hcovers, hall]

lemma covers_left (h : Neighbours prev next) :
    Covers (if b.lo < r.lo then [⟨b.lo, prev r.lo⟩] else []) x ↔ b.lo ≤ x ∧ x < r.lo := by
  split
  · next hleft => rw [covers_cons, covers_nil, or_false, Contains, h.prev _ _ hleft]
  · next hnone =>
    rw [covers_nil, false_iff]
    rintro ⟨hlo, hhi⟩
    exact hnone (hlo.trans_lt hhi)

lemma covers_right (h : Neighbours prev next) :
    Covers (if r.hi < b.hi then [⟨next r.hi, b.hi⟩] else []) x ↔ r.hi < x ∧ x ≤ b.hi := by
  split
  · next hright => rw [covers_cons, covers_nil, or_false, Contains, h.next _ _ hright]
  · next hnone =>
    rw [covers_nil, false_iff]
    rintro ⟨hlo, hhi⟩
    exact hnone (hlo.trans_le hhi)

lemma left_within (h : Neighbours prev next) (s : ClosedRange α)
    (hs : s ∈ if b.lo < r.lo then [(⟨b.lo, prev r.lo⟩ : ClosedRange α)] else []) :
    (s.lo = b.lo ∧ s.lo ≤ s.hi) ∧ s.hi < r.lo := by
  split at hs
  · next hleft =>
    rw [List.mem_singleton.mp hs]
    exact ⟨⟨rfl, (h.prev _ _ hleft _).mpr hleft⟩, (h.prev _ _ hleft _).mp le_rfl⟩
  · cases hs

lemma right_within (h : Neighbours prev next) (s : ClosedRange α)
    (hs : s ∈ if r.hi < b.hi then [(⟨next r.hi, b.hi⟩ : ClosedRange α)] else []) :
    r.hi < s.lo ∧ s.lo ≤ s.hi ∧ s.hi = b.hi := by
  split at hs
  · next hright =>
    rw [List.mem_singleton.mp hs]
    exact ⟨(h.next _ _ hright _).mp le_rfl, (h.next _ _ hright _).mpr hright, rfl⟩
  · cases hs

lemma cut_spec (h : Neighbours prev next) (hb : b.lo ≤ b.hi) (hr : r.lo ≤ r.hi) :
    (∀ x, Covers (cut prev next r b) x ↔ b.Contains x ∧ ¬ r.Contains x) ∧ Apart (cut prev next r b) ∧
      ∀ s ∈ cut prev next r b, b.lo ≤ s.lo ∧ s.lo ≤ s.hi ∧ s.hi ≤ b.hi := by
  rw [cut]
  split
  · next hoff =>
    refine ⟨?_, List.pairwise_singleton _ _, ?_⟩
    · intro x
      rw [covers_cons, covers_nil, or_false, Contains, Contains]
      constructor
      · rintro ⟨hlo, hhi⟩
        refine ⟨⟨hlo, hhi⟩, ?_⟩
        rintro ⟨hlo', hhi'⟩
        obtain hoff | hoff := hoff
        · exact absurd (hlo.trans hhi') (not_le.mpr hoff)
        · exact absurd (hlo'.trans hhi) (not_le.mpr hoff)
      · exact And.left
    · intro s hs
      rw [List.mem_singleton.mp hs]
      exact ⟨le_rfl, hb, le_rfl⟩
  · next hon =>
    rw [not_or, not_lt, not_lt] at hon
    refine ⟨?_, ?_, ?_⟩
    · intro x
      rw [covers_append, covers_left h, covers_right h, Contains, Contains, not_and_or, not_le, not_le]
      constructor
      · rintro (⟨hlo, hhi⟩ | ⟨hlo, hhi⟩)
        · exact ⟨⟨hlo, hhi.le.trans hon.2⟩, .inl hhi⟩
        · exact ⟨⟨hon.1.trans hlo.le, hhi⟩, .inr hlo⟩
      · rintro ⟨⟨hlo, hhi⟩, hout | hout⟩
        · exact .inl ⟨hlo, hout⟩
        · exact .inr ⟨hout, hhi⟩
    · apply List.pairwise_append.mpr
      refine ⟨?_, ?_, ?_⟩
      · split
        · exact List.pairwise_singleton _ _
        · exact List.Pairwise.nil
      · split
        · exact List.pairwise_singleton _ _
        · exact List.Pairwise.nil
      · intro s hs t ht
        obtain ⟨-, hs⟩ := left_within h s hs
        obtain ⟨ht, -⟩ := right_within h t ht
        exact hs.trans (hr.trans_lt ht)
    · intro s hs
      obtain hs | hs := List.mem_append.mp hs
      · obtain ⟨⟨hlo, hproper⟩, hhi⟩ := left_within h s hs
        exact ⟨hlo.ge, hproper, hhi.le.trans hon.2⟩
      · obtain ⟨hlo, hproper, hhi⟩ := right_within h s hs
        exact ⟨hon.1.trans hlo.le, hproper, hhi.le⟩

lemma flatMap_cut_spec (h : Neighbours prev next) (hapart : Apart rs) (hproper : Proper rs) (hr : r.lo ≤ r.hi) :
    (∀ x, Covers (rs.flatMap (cut prev next r)) x ↔ Covers rs x ∧ ¬ r.Contains x) ∧
      Apart (rs.flatMap (cut prev next r)) ∧ Proper (rs.flatMap (cut prev next r)) := by
  induction rs with
  | nil => exact ⟨fun x => by simp, List.Pairwise.nil, List.forall_mem_nil _⟩
  | cons b rs ih =>
    obtain ⟨hfirst, hrest⟩ := List.pairwise_cons.mp hapart
    obtain ⟨hb, hothers⟩ := List.forall_mem_cons.mp hproper
    obtain ⟨hcovers, hapart', hproper'⟩ := ih hrest hothers
    obtain ⟨hcut, hcutApart, hwithin⟩ := cut_spec h hb hr
    rw [List.flatMap_cons]
    refine ⟨?_, ?_, ?_⟩
    · intro x
      rw [covers_append, hcut, hcovers, covers_cons, or_and_right]
    · apply List.pairwise_append.mpr
      refine ⟨hcutApart, hapart', ?_⟩
      intro s hs t ht
      obtain ⟨c, hc, ht⟩ := List.mem_flatMap.mp ht
      have hstart := ((cut_spec h (hothers c hc) hr).2.2 t ht).1
      exact (hwithin s hs).2.2.trans_lt ((hfirst c hc).trans_le hstart)
    · intro s hs
      obtain hs | hs := List.mem_append.mp hs
      · exact (hwithin s hs).2.1
      · exact hproper' s hs

lemma subtract_spec {reserved : List (ClosedRange α)} (h : Neighbours prev next) (hapart : Apart rs)
    (hproper : Proper rs) (hreserved : Proper reserved) :
    (∀ x, Covers (subtract prev next rs reserved) x ↔ Covers rs x ∧ ¬ Covers reserved x) ∧
      Apart (subtract prev next rs reserved) ∧ Proper (subtract prev next rs reserved) := by
  induction reserved generalizing rs with
  | nil => exact ⟨fun x => by simp [subtract], hapart, hproper⟩
  | cons r reserved ih =>
    obtain ⟨hr, hothers⟩ := List.forall_mem_cons.mp hreserved
    obtain ⟨hcovers, hapart', hproper'⟩ := flatMap_cut_spec h hapart hproper hr
    obtain ⟨hall, hresult⟩ := ih hapart' hproper' hothers
    refine ⟨?_, hresult⟩
    intro x
    rw [covers_cons, not_or, ← and_assoc, ← hcovers]
    exact hall x

lemma covers_iff_getElem {k : ℕ} (hk : k ≤ rs.length) (hapart : Apart rs)
    (hbelow : ∀ i r, i < k → rs[i]? = some r → r.lo ≤ x) (habove : ∀ i r, k ≤ i → rs[i]? = some r → ¬ r.lo ≤ x) :
    Covers rs x ↔ ∃ r, 0 < k ∧ rs[k - 1]? = some r ∧ x ≤ r.hi := by
  constructor
  · rintro ⟨r, hr, hlo, hhi⟩
    obtain ⟨i, hi, rfl⟩ := List.mem_iff_getElem.mp hr
    have hik : i < k := by
      by_contra hge
      exact habove i _ (not_lt.mp hge) (List.getElem?_eq_getElem hi) hlo
    obtain rfl | hlt : i = k - 1 ∨ i < k - 1 := by omega
    · exact ⟨_, by omega, List.getElem?_eq_getElem hi, hhi⟩
    · -- a later range that starts at or below the element would overlap this one
      have hlast : k - 1 < rs.length := by omega
      have hnext := hbelow (k - 1) _ (by omega) (List.getElem?_eq_getElem hlast)
      have hgap := List.pairwise_iff_getElem.mp hapart i (k - 1) hi hlast hlt
      exact absurd (hgap.trans_le hnext) (not_lt.mpr hhi)
  · rintro ⟨r, hpos, hr, hhi⟩
    exact ⟨r, List.mem_of_getElem? hr, hbelow (k - 1) r (by omega) hr, hhi⟩

end ClosedRange

end UrConnect.Lib
