import Mathlib.Data.List.Nodup
import Mathlib.Logic.Function.Basic
import Mathlib.Data.Nat.Basic

/-! A partial function that indexes the elements of a list by a key. -/

namespace UrConnect.Lib

variable {T K : Type}

def Indexes (key : T → K) (items : List T) (index : K → Option T) : Prop :=
  ∀ k x, index k = some x ↔ x ∈ items ∧ key x = k

namespace Indexes

variable {key : T → K} {items rest : List T} {index : K → Option T} {item : T}

lemma nil (key : T → K) : Indexes key [] fun _ => none := by
  simp [Indexes]

lemma eq_none (h : Indexes key items index) {k : K} (hk : index k = none) {x : T} (hx : x ∈ items) :
    key x ≠ k := by
  intro he
  have := (h k x).mpr ⟨hx, he⟩
  simp [hk] at this

variable [DecidableEq K]

lemma insert (h : Indexes key items index) (hp : rest.Perm (item :: items))
    (hfresh : ∀ x ∈ items, key x ≠ key item) :
    Indexes key rest (Function.update index (key item) (some item)) := by
  intro k x
  rw [hp.mem_iff, List.mem_cons]
  by_cases hk : k = key item
  · subst hk
    rw [Function.update_self, Option.some.injEq]
    constructor
    · rintro rfl
      exact ⟨Or.inl rfl, rfl⟩
    · rintro ⟨rfl | hx, he⟩
      · rfl
      · exact absurd he (hfresh x hx)
  · rw [Function.update_of_ne hk, h]
    constructor
    · exact fun hx => ⟨Or.inr hx.1, hx.2⟩
    · rintro ⟨rfl | hx, rfl⟩
      · exact absurd rfl hk
      · exact ⟨hx, rfl⟩

lemma erase (h : Indexes key items index) (hp : (item :: rest).Perm items)
    (hn : (items.map key).Nodup) : Indexes key rest (Function.update index (key item) none) := by
  have hfresh : ∀ x ∈ rest, key x ≠ key item := by
    intro x hx he
    have hd := (hp.map key).nodup_iff.mpr hn
    rw [List.map_cons, List.nodup_cons] at hd
    exact hd.1 (he ▸ List.mem_map_of_mem hx)
  intro k x
  by_cases hk : k = key item
  · subst hk
    rw [Function.update_self]
    constructor
    · intro hx
      cases hx
    · rintro ⟨hx, he⟩
      exact absurd he (hfresh x hx)
  · rw [Function.update_of_ne hk, h, ← hp.mem_iff, List.mem_cons]
    constructor
    · rintro ⟨rfl | hx, rfl⟩
      · exact absurd rfl hk
      · exact ⟨hx, rfl⟩
    · exact fun hx => ⟨Or.inr hx.1, hx.2⟩

omit [DecidableEq K] in
lemma map (h : Indexes key items index) {f : T → T} (hf : ∀ x, key (f x) = key x) :
    Indexes key (items.map f) fun k => (index k).map f := by
  intro k x
  rw [Option.map_eq_some_iff, List.mem_map]
  constructor
  · rintro ⟨y, hy, rfl⟩
    exact ⟨⟨y, ((h k y).mp hy).1, rfl⟩, (hf y).trans ((h k y).mp hy).2⟩
  · rintro ⟨⟨y, hy, rfl⟩, hk⟩
    exact ⟨y, (h k y).mpr ⟨hy, (hf y).symm.trans hk⟩, rfl⟩

end Indexes

end UrConnect.Lib
