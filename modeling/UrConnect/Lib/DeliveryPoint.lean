import Mathlib.Data.List.Basic
import Mathlib.Order.Nat

/-! Deliveries in order of their numbers, up to a delivery point that a head may move forward.
The log of a run has its latest mark first. -/

namespace UrConnect.Lib.DeliveryPoint

inductive Mark where
  | head (n point : ℕ)
  | deliver (n : ℕ)
deriving DecidableEq

inductive Reaches : ℕ → List Mark → Prop
  | start : Reaches 0 []
  | stale {point n : ℕ} {log : List Mark} : Reaches point log → n ≤ point →
      Reaches point (.head n point :: log)
  | jump {point n : ℕ} {log : List Mark} : Reaches point log → point < n →
      Reaches n (.head n point :: log)
  | deliver {point : ℕ} {log : List Mark} : Reaches point log →
      Reaches (point + 1) (.deliver point :: log)

def number : Mark → Option ℕ
  | .head _ _ => none
  | .deliver n => some n

def delivered (log : List Mark) : List ℕ := log.filterMap number

def NoDelivery (log : List Mark) : Prop := delivered log = []

def NoJump (log : List Mark) : Prop := ∀ n point, .head n point ∈ log → n ≤ point

@[simp] lemma delivered_head (n point : ℕ) (log : List Mark) :
    delivered (.head n point :: log) = delivered log := rfl

@[simp] lemma delivered_deliver (n : ℕ) (log : List Mark) :
    delivered (.deliver n :: log) = n :: delivered log := rfl

variable {point : ℕ} {log : List Mark}

lemma Reaches.delivered_lt (h : Reaches point log) : ∀ n ∈ delivered log, n < point := by
  induction h with
  | start => simp [delivered]
  | stale _ _ ih => exact ih
  | jump _ hn ih => exact fun n hm => (ih n hm).trans hn
  | deliver _ ih =>
    intro n hm
    rcases List.mem_cons.mp hm with rfl | hm
    · exact Nat.lt_succ_self _
    · exact (ih n hm).trans (Nat.lt_succ_self _)

lemma Reaches.delivered_pairwise (h : Reaches point log) : (delivered log).Pairwise (· > ·) := by
  induction h with
  | start => exact .nil
  | stale _ _ ih => exact ih
  | jump _ _ ih => exact ih
  | deliver hr ih => exact List.pairwise_cons.mpr ⟨fun n hn => hr.delivered_lt n hn, ih⟩

lemma Reaches.tail {m : Mark} (h : Reaches point (m :: log)) : ∃ p, Reaches p log := by
  cases h with
  | stale hr _ => exact ⟨_, hr⟩
  | jump hr _ => exact ⟨_, hr⟩
  | deliver hr => exact ⟨_, hr⟩

lemma Reaches.drop {before : List Mark} (h : Reaches point (before ++ log)) : ∃ p, Reaches p log := by
  induction before generalizing point with
  | nil => exact ⟨point, h⟩
  | cons m before ih =>
    obtain ⟨p, hp⟩ := h.tail
    exact ih hp

lemma Reaches.gap_to_point {between : List Mark} {m : ℕ}
    (h : Reaches point (between ++ .deliver m :: log)) (hb : NoDelivery between) :
    m + 1 ≤ point ∧ (m + 1 < point → ∃ n p, .head n p ∈ between ∧ m + 1 < n ∧ n ≤ point) := by
  induction between generalizing point with
  | nil =>
    cases h
    exact ⟨le_refl _, fun hlt => absurd hlt (lt_irrefl _)⟩
  | cons x between ih =>
    cases h with
    | stale hr hn =>
      obtain ⟨hle, hgap⟩ := ih hr hb
      refine ⟨hle, fun hlt => ?_⟩
      obtain ⟨n, p, hmem, hm, hp⟩ := hgap hlt
      exact ⟨n, p, List.mem_cons_of_mem _ hmem, hm, hp⟩
    | jump hr hn =>
      obtain ⟨hle, hgap⟩ := ih hr hb
      exact ⟨hle.trans hn.le, fun hlt => ⟨_, _, List.mem_cons_self, hlt, le_refl _⟩⟩
    | deliver hr => simp [NoDelivery] at hb

lemma Reaches.gap {before between after : List Mark} {m n : ℕ}
    (h : Reaches point (before ++ .deliver n :: between ++ .deliver m :: after))
    (hb : NoDelivery between) :
    m < n ∧ (m + 1 < n → ∃ k p, .head k p ∈ between ∧ m + 1 < k ∧ k ≤ n) := by
  rw [List.append_assoc] at h
  obtain ⟨p, hp⟩ := h.drop
  cases hp with
  | deliver hr => exact hr.gap_to_point hb

lemma Reaches.delivered_dense (h : Reaches point log) (hj : NoJump log) :
    delivered log = (List.range point).reverse := by
  induction h with
  | start => rfl
  | stale _ _ ih => exact ih fun n p hm => hj n p (List.mem_cons_of_mem _ hm)
  | jump _ hn ih =>
    have := hj _ _ List.mem_cons_self
    omega
  | deliver _ ih =>
    have hrest := ih fun n p hm => hj n p (List.mem_cons_of_mem _ hm)
    rw [delivered_deliver, hrest, List.range_succ, List.reverse_append]
    rfl

end UrConnect.Lib.DeliveryPoint
