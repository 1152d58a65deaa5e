import Mathlib.Data.List.AList

/-! Finite maps: a change of one entry, and a pass that changes or drops each entry by itself. -/

namespace UrConnect.Lib

abbrev Table (κ α : Type) := AList fun _ : κ => α

namespace Table

variable {κ α : Type}

def pass (f : κ → α → Option α) (e : Sigma fun _ : κ => α) : Option (Sigma fun _ : κ => α) :=
  (f e.1 e.2).map fun a => ⟨e.1, a⟩

lemma keys_pass_sublist (f : κ → α → Option α) (es : List (Sigma fun _ : κ => α)) :
    (es.filterMap (pass f)).keys.Sublist es.keys := by
  induction es with
  | nil => exact List.Sublist.slnil
  | cons e es ih =>
    cases hf : f e.1 e.2 with
    | none => simpa [List.filterMap_cons, pass, hf] using ih.cons e.1
    | some a => simpa [List.filterMap_cons, pass, hf] using ih.cons_cons e.1

def sweep (m : Table κ α) (f : κ → α → Option α) : Table κ α where
  entries := m.entries.filterMap (pass f)
  nodupKeys := List.Nodup.sublist (keys_pass_sublist f m.entries) m.nodupKeys

variable [DecidableEq κ]

def modify (m : Table κ α) (k : κ) (f : α → α) : Table κ α :=
  match m.lookup k with
  | none => m
  | some a => m.insert k (f a)

variable {m : Table κ α} {k k' : κ} {a : α} {f : κ → α → Option α}

@[simp] lemma lookup_modify_self (m : Table κ α) (k : κ) (f : α → α) :
    (m.modify k f).lookup k = (m.lookup k).map f := by
  rw [modify]
  cases hk : m.lookup k with
  | none => simp [hk]
  | some a => simp

lemma lookup_modify_ne (f : α → α) (h : k' ≠ k) : (m.modify k f).lookup k' = m.lookup k' := by
  rw [modify]
  cases m.lookup k with
  | none => rfl
  | some a => exact AList.lookup_insert_ne h

lemma lookup_sweep (m : Table κ α) (f : κ → α → Option α) (k : κ) :
    (m.sweep f).lookup k = (m.lookup k).bind (f k) := by
  apply Option.ext
  intro a
  rw [← Option.mem_def, AList.mem_lookup_iff, Option.bind_eq_some_iff]
  constructor
  · intro hmem
    obtain ⟨⟨k', b⟩, hb, hf⟩ := List.mem_filterMap.mp hmem
    obtain ⟨a', ha', heq⟩ := Option.map_eq_some_iff.mp hf
    cases heq
    exact ⟨b, AList.mem_lookup_iff.mpr hb, ha'⟩
  · rintro ⟨b, hb, hf⟩
    apply List.mem_filterMap.mpr
    exact ⟨⟨k, b⟩, AList.mem_lookup_iff.mp hb, by rw [pass, hf, Option.map_some]⟩

lemma lookup_erase_eq (m : Table κ α) (k k' : κ) :
    (m.erase k).lookup k' = if k' = k then none else m.lookup k' := by
  split
  · next h => rw [h, AList.lookup_erase]
  · next h => exact AList.lookup_erase_ne h

lemma lookup_insert_eq (m : Table κ α) (k k' : κ) (a : α) :
    (m.insert k a).lookup k' = if k' = k then some a else m.lookup k' := by
  split
  · next h => rw [h, AList.lookup_insert]
  · next h => exact AList.lookup_insert_ne h

lemma mem_keys_iff {m : Table κ α} : k ∈ m.keys ↔ ∃ a, m.lookup k = some a := by
  rw [← AList.mem_keys, ← AList.lookup_isSome, Option.isSome_iff_exists]

lemma lookup_insertAll (g : κ → α) (ks : List κ) (m : Table κ α) (k : κ) :
    (ks.foldl (fun m k => m.insert k (g k)) m).lookup k = if k ∈ ks then some (g k) else m.lookup k := by
  induction ks generalizing m with
  | nil => rfl
  | cons k' ks ih =>
    rw [List.foldl_cons, ih, lookup_insert_eq]
    by_cases hk : k = k'
    · subst hk
      simp
    · simp [hk]

lemma lookup_eraseAll (ks : List κ) (m : Table κ α) (k : κ) :
    (ks.foldl (fun m k => m.erase k) m).lookup k = if k ∈ ks then none else m.lookup k := by
  induction ks generalizing m with
  | nil => rfl
  | cons k' ks ih =>
    rw [List.foldl_cons, ih, lookup_erase_eq]
    by_cases hk : k = k'
    · simp [hk]
    · simp [hk]

end Table

end UrConnect.Lib
