import Mathlib
import UrConnect.Lib.Table

/-! A restore covers its original inventory when the owners' claims are a partition of it. -/

namespace UrConnect.DurableVolume

open Lib

section Lists

variable {α : Type}

lemma cons_subperm_iff [DecidableEq α] {c : α} {claims cs : List α} :
    (c :: claims).Subperm cs ↔ c ∈ cs ∧ claims.Subperm (cs.erase c) := by
  constructor
  · intro h
    have herase := h.erase c
    rw [List.erase_cons_head] at herase
    exact ⟨h.subset List.mem_cons_self, herase⟩
  · rintro ⟨hc, h⟩
    exact ((List.subperm_cons c).mpr h).trans (List.perm_cons_erase hc).symm.subperm

lemma subperm_append_diff [DecidableEq α] {claims cs : List α} (h : claims.Subperm cs) : (claims ++ cs.diff claims).Perm cs :=
  List.subperm_append_diff_self_of_count_le (List.subperm_ext_iff.mp h)

lemma perm_flatten_iff {ls : List (List α)} {xs : List α} (hxs : xs.Nodup) :
    ls.flatten.Perm xs ↔ (∀ x ∈ xs, ∃! i : ℕ, ∃ l, ls[i]? = some l ∧ x ∈ l) ∧
      ∀ l ∈ ls, l.Nodup ∧ ∀ x ∈ l, x ∈ xs := by
  constructor
  · intro h
    have hnodup := List.nodup_flatten.mp (h.nodup_iff.mpr hxs)
    refine ⟨fun x hx => ?_, fun l hl => ⟨hnodup.1 l hl, fun x hx => ?_⟩⟩
    · obtain ⟨l, hl, hxl⟩ := List.mem_flatten.mp (h.mem_iff.mpr hx)
      obtain ⟨i, hi⟩ := List.mem_iff_getElem?.mp hl
      refine ⟨i, ⟨l, hi, hxl⟩, ?_⟩
      rintro j ⟨l', hj, hxl'⟩
      by_contra hne
      obtain ⟨hilt, rfl⟩ := List.getElem?_eq_some_iff.mp hi
      obtain ⟨hjlt, rfl⟩ := List.getElem?_eq_some_iff.mp hj
      have hdisjoint := List.pairwise_iff_getElem.mp hnodup.2
      rcases Nat.lt_or_gt_of_ne hne with hlt | hlt
      · exact hdisjoint j i hjlt hilt hlt hxl' hxl
      · exact hdisjoint i j hilt hjlt hlt hxl hxl'
    · exact h.mem_iff.mp (List.mem_flatten.mpr ⟨l, hl, hx⟩)
  · rintro ⟨hone, hls⟩
    refine (List.perm_ext_iff_of_nodup (List.nodup_flatten.mpr ⟨fun l hl => (hls l hl).1, ?_⟩) hxs).mpr fun x => ?_
    · refine List.pairwise_iff_getElem.mpr fun i j hi hj hlt x hxi hxj => Nat.ne_of_lt hlt ?_
      have hx := (hls _ (List.getElem_mem hi)).2 x hxi
      exact (hone x hx).unique ⟨_, List.getElem?_eq_getElem hi, hxi⟩ ⟨_, List.getElem?_eq_getElem hj, hxj⟩
    · constructor
      · intro hx
        obtain ⟨l, hl, hxl⟩ := List.mem_flatten.mp hx
        exact (hls l hl).2 x hxl
      · intro hx
        obtain ⟨i, ⟨l, hi, hxl⟩, -⟩ := hone x hx
        exact List.mem_flatten.mpr ⟨l, List.mem_of_getElem? hi, hxl⟩

lemma exists_of_forall₂ {β : Type} {R : α → β → Prop} {l : List α} {l' : List β} (h : List.Forall₂ R l l') :
    ∀ b ∈ l', ∃ a ∈ l, R a b := by
  induction h with
  | nil => simp
  | @cons a b l l' hab _ ih =>
    rw [List.forall_mem_cons]
    refine ⟨⟨a, List.mem_cons_self, hab⟩, fun b' hb' => ?_⟩
    obtain ⟨a', ha', hr⟩ := ih b' hb'
    exact ⟨a', List.mem_cons_of_mem _ ha', hr⟩

lemma perm_flatMap_of_forall₂ {β γ : Type} {f : α → List γ} {g : β → List γ} {R : α → β → Prop}
    (hR : ∀ a b, R a b → (f a).Perm (g b)) {l : List α} {l' : List β} (h : List.Forall₂ R l l') :
    (l.flatMap f).Perm (l'.flatMap g) := by
  induction h with
  | nil => exact List.Perm.refl _
  | cons hab _ ih =>
    rw [List.flatMap_cons, List.flatMap_cons]
    exact (hR _ _ hab).append ih

end Lists

section Model

structure PreparationFile where
  path : String
  kind : String
  mode : ℕ
  bytes : ℕ
  sha256 : String
  deriving DecidableEq

structure PreparationAttributeSpec where
  path : String
  name : String
  deriving DecidableEq

structure InventoryEntry where
  path : String
  kind : String
  mode : ℕ
  size : ℕ
  sha256 : String
  ownerAttributes : List String

structure PreparationOwnerPlan where
  purpose : String
  relativePath : String
  restoreCoverage : String
  exclusiveRoot : Bool
  files : List PreparationFile
  attributes : List PreparationAttributeSpec
  census : List ℕ

def preparationAttribute : String := "user.urnetwork.storage-preparation"

def preparationCompleteUnion : String := "complete-union-v1"

inductive Claim
  | member (f : PreparationFile)
  | checkpoint (a : PreparationAttributeSpec)
  deriving DecidableEq

def Claim.member? : Claim → Option PreparationFile
  | member f => some f
  | checkpoint _ => none

def Claim.checkpoint? : Claim → Option PreparationAttributeSpec
  | member _ => none
  | checkpoint a => some a

def InventoryEntry.file (e : InventoryEntry) : PreparationFile := ⟨e.path, e.kind, e.mode, e.size, e.sha256⟩

def InventoryEntry.target (e : InventoryEntry) : String := if e.path = "" then "." else e.path

def InventoryEntry.claims (e : InventoryEntry) : List Claim :=
  (if e.path ≠ "" then [.member e.file] else []) ++
    (e.ownerAttributes.filter fun name => ¬ (e.path = "" ∧ name = preparationAttribute)).map
      fun name => .checkpoint ⟨e.target, name⟩

def PreparationOwnerPlan.claims (o : PreparationOwnerPlan) : List Claim :=
  o.files.map .member ++ o.attributes.map .checkpoint

def originals (entries : List InventoryEntry) : List Claim := entries.flatMap InventoryEntry.claims

structure Originals where
  files : Table String PreparationFile
  attributes : Finset PreparationAttributeSpec

def Originals.add (strict : Bool) (o : Originals) : Claim → Except String Originals
  | .member f =>
    if strict ∧ (o.files.lookup f.path).isSome then .error "restore coverage source repeats an original member"
    else .ok { o with files := o.files.insert f.path f }
  | .checkpoint a =>
    if strict ∧ a ∈ o.attributes then .error "restore coverage source repeats an original checkpoint"
    else .ok { o with attributes := insert a o.attributes }

def Originals.take (fileErr attributeErr : String) (o : Originals) : Claim → Except String Originals
  | .member f =>
    if o.files.lookup f.path = some f then .ok { o with files := o.files.erase f.path } else .error fileErr
  | .checkpoint a =>
    if a ∈ o.attributes then .ok { o with attributes := o.attributes.erase a } else .error attributeErr

def collect (strict : Bool) (entries : List InventoryEntry) : Except String Originals :=
  (originals entries).foldlM (Originals.add strict) ⟨∅, ∅⟩

def validatePreparationRestoreOwner (entries : List InventoryEntry) (owner : PreparationOwnerPlan) :
    Except String Unit := do
  if owner.purpose ≠ "restore" ∨ owner.relativePath ≠ "." ∨ owner.census = [] then
    throw "restore adapter lacks its exact retained semantic census"
  let o ← collect false entries
  if o.files.keys.length ≠ owner.files.length ∨ o.attributes.card ≠ owner.attributes.length then
    throw "restore adapter omitted or invented retained members or checkpoints"
  let _ ← owner.claims.foldlM (Originals.take "restore adapter changed original portable member bytes"
    "restore adapter changed the original owner checkpoint destinations") o

def consumeOwner (count : ℕ) (o : Originals) (owner : PreparationOwnerPlan) : Except String Originals := do
  if owner.purpose ≠ "restore" ∨ owner.relativePath ≠ "." ∨ owner.restoreCoverage ≠ preparationCompleteUnion ∨
      owner.census = [] ∨ (owner.exclusiveRoot ∧ count ≠ 1) then
    throw "restore coverage changed its fixed owner scope or overlaps an exclusive root"
  owner.claims.foldlM (Originals.take "restore coverage overlaps, invents or changes an original member"
    "restore coverage overlaps or invents an original checkpoint") o

def validateUnion (entries : List InventoryEntry) (owners : List PreparationOwnerPlan) : Except String Unit := do
  let o ← collect true entries
  let o ← owners.foldlM (consumeOwner owners.length) o
  if o.files.keys.length ≠ 0 ∨ o.attributes.card ≠ 0 then
    throw "restore coverage omitted original members or owner checkpoints"

def validatePreparationRestoreCoverage (entries : List InventoryEntry) (owners : List PreparationOwnerPlan) :
    Except String Unit :=
  match owners with
  | [owner] => if owner.restoreCoverage = "" then validatePreparationRestoreOwner entries owner
    else validateUnion entries owners
  | _ => validateUnion entries owners

end Model

section Stored

structure Stored (o : Originals) (cs : List Claim) : Prop where
  files : ∀ k f, o.files.lookup k = some f ↔ .member f ∈ cs ∧ f.path = k
  attributes : ∀ a, a ∈ o.attributes ↔ .checkpoint a ∈ cs
  nodup : cs.Nodup

def Distinct (cs : List Claim) : Prop :=
  cs.Nodup ∧ ∀ f g, .member f ∈ cs → .member g ∈ cs → f.path = g.path → f = g

variable {o : Originals} {cs : List Claim}

lemma Stored.path_inj (h : Stored o cs) {f g : PreparationFile} (hf : .member f ∈ cs) (hg : .member g ∈ cs)
    (hp : f.path = g.path) : f = g := by
  have hlf := (h.files f.path f).mpr ⟨hf, rfl⟩
  have hlg := (h.files f.path g).mpr ⟨hg, hp.symm⟩
  exact Option.some.inj (hlf.symm.trans hlg)

lemma stored_empty : Stored ⟨∅, ∅⟩ [] where
  files := by simp
  attributes := by simp
  nodup := List.nodup_nil

lemma Stored.add (h : Stored o cs) (strict : Bool) {c : Claim} (hd : Distinct (cs ++ [c])) :
    ∃ o', o.add strict c = .ok o' ∧ Stored o' (cs ++ [c]) := by
  have hnot : c ∉ cs := fun hc => (List.nodup_append.mp hd.1).2.2 c hc c (List.mem_singleton_self c) rfl
  cases c with
  | member f =>
    have hnone : o.files.lookup f.path = none := by
      rw [Option.eq_none_iff_forall_ne_some]
      intro g hg
      obtain ⟨hgm, hgp⟩ := (h.files _ _).mp hg
      have he := hd.2 g f (List.mem_append_left _ hgm) (List.mem_append_right _ (List.mem_singleton_self _)) hgp
      exact hnot (he ▸ hgm)
    refine ⟨{ o with files := o.files.insert f.path f }, by simp [Originals.add, hnone], ?_, ?_, hd.1⟩
    · intro k g
      rw [Table.lookup_insert_eq]
      by_cases hk : k = f.path
      · rw [if_pos hk]
        constructor
        · intro he
          obtain rfl := Option.some.inj he
          simp [hk]
        · rintro ⟨hm, hp⟩
          rw [hd.2 g f hm (by simp) (hp.trans hk)]
      · rw [if_neg hk, h.files]
        have hne : g.path = k → g ≠ f := by
          rintro rfl rfl
          exact hk rfl
        simp only [List.mem_append, List.mem_singleton, Claim.member.injEq]
        tauto
    · intro a
      simp [h.attributes]
  | checkpoint a =>
    have hnm : a ∉ o.attributes := fun hm => hnot ((h.attributes a).mp hm)
    refine ⟨{ o with attributes := insert a o.attributes }, by simp [Originals.add, hnm], ?_, ?_, hd.1⟩
    · intro k g
      simp [h.files]
    · intro b
      simp [h.attributes, or_comm]

lemma Stored.collect (strict : Bool) (h : Stored o cs) {rest : List Claim} (hd : Distinct (cs ++ rest)) :
    ∃ o', rest.foldlM (Originals.add strict) o = .ok o' ∧ Stored o' (cs ++ rest) := by
  induction rest generalizing o cs with
  | nil => exact ⟨o, rfl, by simpa using h⟩
  | cons c rest ih =>
    rw [List.append_cons] at hd ⊢
    have hfirst : Distinct (cs ++ [c]) :=
      ⟨(List.nodup_append.mp hd.1).1, fun f g hf hg => hd.2 f g (List.mem_append_left _ hf) (List.mem_append_left _ hg)⟩
    obtain ⟨o', ho', h'⟩ := h.add strict hfirst
    rw [List.foldlM_cons, ho']
    exact ih h' hd

variable {fileErr attributeErr : String}

lemma Stored.take (fileErr attributeErr : String) (h : Stored o cs) {c : Claim} (hc : c ∈ cs) :
    ∃ o', o.take fileErr attributeErr c = .ok o' ∧ Stored o' (cs.erase c) := by
  cases c with
  | member f =>
    have hf := (h.files f.path f).mpr ⟨hc, rfl⟩
    refine ⟨{ o with files := o.files.erase f.path }, by simp [Originals.take, hf], ?_, ?_, h.nodup.erase _⟩
    · intro k g
      rw [Table.lookup_erase_eq, h.nodup.mem_erase_iff]
      by_cases hk : k = f.path
      · rw [if_pos hk]
        refine iff_of_false (by rintro ⟨⟩) ?_
        rintro ⟨⟨hne, hm⟩, hp⟩
        exact hne (congrArg _ (h.path_inj hm hc (hp.trans hk)))
      · rw [if_neg hk, h.files]
        have hne : g.path = k → g ≠ f := by
          rintro rfl rfl
          exact hk rfl
        simp only [ne_eq, Claim.member.injEq]
        tauto
    · intro a
      rw [h.nodup.mem_erase_iff, h.attributes]
      simp
  | checkpoint a =>
    have ha := (h.attributes a).mpr hc
    refine ⟨{ o with attributes := o.attributes.erase a }, by simp [Originals.take, ha], ?_, ?_, h.nodup.erase _⟩
    · intro k g
      rw [h.nodup.mem_erase_iff, h.files]
      simp
    · intro b
      rw [h.nodup.mem_erase_iff, Finset.mem_erase, h.attributes]
      simp

lemma Stored.mem_of_take (h : Stored o cs) {c : Claim} {o' : Originals}
    (ho : o.take fileErr attributeErr c = .ok o') : c ∈ cs := by
  cases c with
  | member f =>
    unfold Originals.take at ho
    dsimp only at ho
    split at ho
    · next hl => exact ((h.files _ _).mp hl).1
    · cases ho
  | checkpoint a =>
    unfold Originals.take at ho
    dsimp only at ho
    split at ho
    · next hm => exact (h.attributes a).mp hm
    · cases ho

lemma Stored.consume (h : Stored o cs) {claims : List Claim} (hsub : claims.Subperm cs) :
    ∃ o', claims.foldlM (Originals.take fileErr attributeErr) o = .ok o' ∧ Stored o' (cs.diff claims) := by
  induction claims generalizing o cs with
  | nil => exact ⟨o, rfl, by simpa using h⟩
  | cons c claims ih =>
    obtain ⟨hc, hrest⟩ := cons_subperm_iff.mp hsub
    obtain ⟨o', ho', h'⟩ := h.take fileErr attributeErr hc
    rw [List.foldlM_cons, ho', List.diff_cons]
    exact ih h' hrest

lemma Stored.subperm_of_consume (h : Stored o cs) {claims : List Claim} {o' : Originals}
    (ho : claims.foldlM (Originals.take fileErr attributeErr) o = .ok o') : claims.Subperm cs := by
  induction claims generalizing o cs with
  | nil => exact List.nil_subperm
  | cons c claims ih =>
    rw [List.foldlM_cons] at ho
    cases hc : o.take fileErr attributeErr c with
    | error err =>
      rw [hc] at ho
      cases ho
    | ok o₁ =>
      rw [hc] at ho
      have hmem := h.mem_of_take hc
      obtain ⟨o₂, ho₂, h₂⟩ := h.take fileErr attributeErr hmem
      obtain rfl : o₁ = o₂ := Except.ok.inj (hc.symm.trans ho₂)
      exact cons_subperm_iff.mpr ⟨hmem, ih h₂ ho⟩

lemma Stored.length_keys (h : Stored o cs) : o.files.keys.length = (cs.filterMap Claim.member?).length := by
  have hmem : ∀ f, f ∈ cs.filterMap Claim.member? ↔ .member f ∈ cs := by
    intro f
    rw [List.mem_filterMap]
    constructor
    · rintro ⟨c, hc, hf⟩
      cases c with
      | member g =>
        obtain rfl := Option.some.inj hf
        exact hc
      | checkpoint a => cases hf
    · intro hf
      exact ⟨_, hf, rfl⟩
  have hnodup : ((cs.filterMap Claim.member?).map PreparationFile.path).Nodup := by
    refine List.Nodup.map_on (fun f hf g hg => h.path_inj ((hmem f).mp hf) ((hmem g).mp hg)) ?_
    refine h.nodup.filterMap fun c c' f hf hf' => ?_
    cases c <;> cases c' <;> simp_all [Claim.member?]
  have hperm : o.files.keys.Perm ((cs.filterMap Claim.member?).map PreparationFile.path) := by
    refine (List.perm_ext_iff_of_nodup o.files.keys_nodup hnodup).mpr fun k => ?_
    rw [Table.mem_keys_iff, List.mem_map]
    refine exists_congr fun f => ?_
    rw [h.files, hmem]
  rw [hperm.length_eq, List.length_map]

lemma Stored.card_attributes (h : Stored o cs) : o.attributes.card = (cs.filterMap Claim.checkpoint?).length := by
  have hnodup : (cs.filterMap Claim.checkpoint?).Nodup := by
    refine h.nodup.filterMap fun c c' a ha ha' => ?_
    cases c <;> cases c' <;> simp_all [Claim.checkpoint?]
  rw [← List.toFinset_card_of_nodup hnodup]
  congr 1
  ext a
  rw [h.attributes, List.mem_toFinset, List.mem_filterMap]
  constructor
  · intro ha
    exact ⟨_, ha, rfl⟩
  · rintro ⟨c, hc, ha⟩
    cases c with
    | member f => cases ha
    | checkpoint b =>
      obtain rfl := Option.some.inj ha
      exact hc

lemma length_eq_add (cs : List Claim) :
    cs.length = (cs.filterMap Claim.member?).length + (cs.filterMap Claim.checkpoint?).length := by
  induction cs with
  | nil => rfl
  | cons c cs ih =>
    cases c with
    | member f =>
      simp only [List.filterMap_cons, Claim.member?, Claim.checkpoint?, List.length_cons, ih]
      omega
    | checkpoint a =>
      simp only [List.filterMap_cons, Claim.member?, Claim.checkpoint?, List.length_cons, ih]
      omega

lemma Stored.empty_iff (h : Stored o cs) : o.files.keys.length = 0 ∧ o.attributes.card = 0 ↔ cs = [] := by
  rw [h.length_keys, h.card_attributes, ← List.length_eq_zero_iff, length_eq_add cs]
  omega

end Stored

section Coverage

variable {entries : List InventoryEntry} {owners : List PreparationOwnerPlan}

structure DistinctInventory (entries : List InventoryEntry) : Prop where
  paths : (entries.map InventoryEntry.path).Nodup
  no_dot : ∀ e ∈ entries, e.path ≠ "."
  names : ∀ e ∈ entries, e.ownerAttributes.Nodup

lemma mem_claims {e : InventoryEntry} {c : Claim} (h : c ∈ e.claims) :
    (c = .member e.file ∧ e.path ≠ "") ∨ ∃ name ∈ e.ownerAttributes, c = .checkpoint ⟨e.target, name⟩ := by
  rcases List.mem_append.mp h with h | h
  · split at h
    · next hp => exact Or.inl ⟨List.mem_singleton.mp h, hp⟩
    · exact absurd h List.not_mem_nil
  · obtain ⟨name, hname, rfl⟩ := List.mem_map.mp h
    exact Or.inr ⟨name, (List.mem_filter.mp hname).1, rfl⟩

lemma target_inj {e e' : InventoryEntry} (he : e.path ≠ ".") (he' : e'.path ≠ ".") (h : e.target = e'.target) :
    e.path = e'.path := by
  unfold InventoryEntry.target at h
  split at h <;> split at h <;> simp_all

lemma distinct_originals (h : DistinctInventory entries) : Distinct (originals entries) := by
  have hpaths : entries.Pairwise fun e e' => e.path ≠ e'.path := List.pairwise_map.mp h.paths
  refine ⟨List.nodup_flatMap.mpr ⟨fun e he => ?_, ?_⟩, ?_⟩
  · refine List.nodup_append.mpr ⟨?_, ?_, ?_⟩
    · split
      · exact List.nodup_singleton _
      · exact List.nodup_nil
    · refine ((h.names e he).filter _).map fun name name' heq => ?_
      simpa using heq
    · rintro c hc d hd rfl
      obtain ⟨name, -, rfl⟩ := List.mem_map.mp hd
      split at hc
      · cases List.mem_singleton.mp hc
      · exact absurd hc List.not_mem_nil
  · refine hpaths.imp_of_mem fun {e e'} he he' hne c hc hc' => hne ?_
    rcases mem_claims hc with ⟨rfl, -⟩ | ⟨name, -, rfl⟩
    · rcases mem_claims hc' with ⟨heq, -⟩ | ⟨name', -, heq⟩
      · exact congrArg PreparationFile.path (Claim.member.inj heq)
      · cases heq
    · rcases mem_claims hc' with ⟨heq, -⟩ | ⟨name', -, heq⟩
      · cases heq
      · exact target_inj (h.no_dot e he) (h.no_dot e' he')
          (congrArg PreparationAttributeSpec.path (Claim.checkpoint.inj heq))
  · intro f g hf hg hp
    obtain ⟨e, he, hf⟩ := List.mem_flatMap.mp hf
    obtain ⟨e', he', hg⟩ := List.mem_flatMap.mp hg
    rcases mem_claims hf with ⟨hf, -⟩ | ⟨_, -, hf⟩
    · rcases mem_claims hg with ⟨hg, -⟩ | ⟨_, -, hg⟩
      · obtain rfl := Claim.member.inj hf
        obtain rfl := Claim.member.inj hg
        rw [List.inj_on_of_nodup_map h.paths he he' hp]
      · cases hg
    · cases hf

lemma collect_stored (h : DistinctInventory entries) (strict : Bool) :
    ∃ o, collect strict entries = .ok o ∧ Stored o (originals entries) :=
  stored_empty.collect strict (distinct_originals h)

def OldScope (o : PreparationOwnerPlan) : Prop :=
  o.purpose = "restore" ∧ o.relativePath = "." ∧ o.restoreCoverage = "" ∧ o.census ≠ []

def UnionScope (count : ℕ) (o : PreparationOwnerPlan) : Prop :=
  o.purpose = "restore" ∧ o.relativePath = "." ∧ o.restoreCoverage = preparationCompleteUnion ∧ o.census ≠ [] ∧
    (o.exclusiveRoot = true → count = 1)

def ValidScope (owners : List PreparationOwnerPlan) : Prop :=
  (∃ o, owners = [o] ∧ OldScope o) ∨ ∀ o ∈ owners, UnionScope owners.length o

def claimed (owners : List PreparationOwnerPlan) : List Claim := owners.flatMap PreparationOwnerPlan.claims

lemma validateOwner_iff (h : DistinctInventory entries) {owner : PreparationOwnerPlan} (hs : OldScope owner) :
    validatePreparationRestoreOwner entries owner = .ok () ↔ owner.claims.Perm (originals entries) := by
  obtain ⟨o, ho, hst⟩ := collect_stored h false
  obtain ⟨hp, hr, -, hc⟩ := hs
  have hfiles : owner.claims.filterMap Claim.member? = owner.files := by
    simp [PreparationOwnerPlan.claims, List.filterMap_append, List.filterMap_map, Function.comp_def, Claim.member?]
  have hattributes : owner.claims.filterMap Claim.checkpoint? = owner.attributes := by
    simp [PreparationOwnerPlan.claims, List.filterMap_append, List.filterMap_map, Function.comp_def,
      Claim.checkpoint?]
  have hlengths : owner.claims.Perm (originals entries) →
      o.files.keys.length = owner.files.length ∧ o.attributes.card = owner.attributes.length := by
    intro hperm
    rw [hst.length_keys, hst.card_attributes, ← hfiles, ← hattributes, (hperm.filterMap _).length_eq,
      (hperm.filterMap _).length_eq]
    exact ⟨rfl, rfl⟩
  unfold validatePreparationRestoreOwner
  simp only [hp, hr, hc, ho, ne_eq, not_true, false_or, if_false, bind, Except.bind, pure, Except.pure]
  by_cases hlen : o.files.keys.length = owner.files.length ∧ o.attributes.card = owner.attributes.length
  · rw [if_neg (by tauto)]
    constructor
    · intro hok
      split at hok
      · cases hok
      · next o' ho' =>
        -- Nothing is left over, because the counts agree.
        refine (hst.subperm_of_consume ho').perm_of_length_le ?_
        rw [length_eq_add, length_eq_add, hfiles, hattributes, ← hst.length_keys, ← hst.card_attributes, hlen.1, hlen.2]
    · intro hperm
      obtain ⟨o', ho', -⟩ := hst.consume hperm.subperm
      rw [ho']
  · rw [if_pos (by tauto)]
    exact iff_of_false (by rintro ⟨⟩) fun hperm => hlen (hlengths hperm)

lemma foldlM_consumeOwner {count : ℕ} (hs : ∀ o ∈ owners, UnionScope count o) (o : Originals) :
    owners.foldlM (consumeOwner count) o = (claimed owners).foldlM
      (Originals.take "restore coverage overlaps, invents or changes an original member"
        "restore coverage overlaps or invents an original checkpoint") o := by
  induction owners generalizing o with
  | nil => rfl
  | cons owner owners ih =>
    obtain ⟨⟨hp, hr, hcov, hc, hx⟩, hrest⟩ := List.forall_mem_cons.mp hs
    have howner : consumeOwner count o owner = owner.claims.foldlM
        (Originals.take "restore coverage overlaps, invents or changes an original member"
          "restore coverage overlaps or invents an original checkpoint") o := by
      have hx' : ¬ (owner.exclusiveRoot = true ∧ count ≠ 1) := fun hh => hh.2 (hx hh.1)
      simp [consumeOwner, hp, hr, hcov, hc, hx']
    rw [List.foldlM_cons, howner, claimed, List.flatMap_cons, List.foldlM_append]
    exact bind_congr fun o' => ih hrest o'

lemma validateUnion_iff (h : DistinctInventory entries) (hs : ∀ o ∈ owners, UnionScope owners.length o) :
    validateUnion entries owners = .ok () ↔ (claimed owners).Perm (originals entries) := by
  obtain ⟨o, ho, hst⟩ := collect_stored h true
  unfold validateUnion
  simp only [ho, bind, Except.bind, foldlM_consumeOwner hs]
  constructor
  · intro hok
    split at hok
    · cases hok
    · next o' ho' =>
      have hsub := hst.subperm_of_consume ho'
      obtain ⟨o₁, ho₁, hst₁⟩ := hst.consume hsub
      obtain rfl : o' = o₁ := Except.ok.inj (ho'.symm.trans ho₁)
      have hempty : o'.files.keys.length = 0 ∧ o'.attributes.card = 0 := by
        by_contra hne
        rw [if_pos (by tauto)] at hok
        cases hok
      have hperm := subperm_append_diff hsub
      rw [hst₁.empty_iff.mp hempty, List.append_nil] at hperm
      exact hperm
  · intro hperm
    obtain ⟨o', ho', hst'⟩ := hst.consume hperm.subperm
    have hdiff : (originals entries).diff (claimed owners) = [] := by
      have hlen := (subperm_append_diff hperm.subperm).length_eq
      rw [List.length_append, hperm.length_eq] at hlen
      exact List.length_eq_zero_iff.mp (by omega)
    have hempty := hst'.empty_iff.mpr hdiff
    rw [ho']
    simp [hempty.1, hempty.2, pure, Except.pure]

lemma validate_iff (h : DistinctInventory entries) (hs : ValidScope owners) :
    validatePreparationRestoreCoverage entries owners = .ok () ↔ (claimed owners).Perm (originals entries) := by
  rcases hs with ⟨owner, rfl, hold⟩ | hunion
  · have hclaimed : claimed [owner] = owner.claims := List.flatMap_singleton _ _
    rw [hclaimed, ← validateOwner_iff h hold]
    simp only [validatePreparationRestoreCoverage, hold.2.2.1, if_true]
  · rw [← validateUnion_iff h hunion]
    unfold validatePreparationRestoreCoverage
    split
    · next owner =>
      have hcov := (hunion owner (List.mem_singleton_self owner)).2.2.1
      rw [if_neg (by rw [hcov]; decide)]
    · rfl

def Partitions (entries : List InventoryEntry) (owners : List PreparationOwnerPlan) : Prop :=
  (∀ c ∈ originals entries, ∃! i : ℕ, ∃ o, owners[i]? = some o ∧ c ∈ o.claims) ∧
    ∀ o ∈ owners, o.claims.Nodup ∧ ∀ c ∈ o.claims, c ∈ originals entries

lemma partitions_iff (h : DistinctInventory entries) :
    (claimed owners).Perm (originals entries) ↔ Partitions entries owners := by
  rw [claimed, List.flatMap_def, perm_flatten_iff (distinct_originals h).1]
  refine and_congr (forall₂_congr fun c _ => existsUnique_congr fun i => ?_) List.forall_mem_map
  rw [List.getElem?_map]
  constructor
  · rintro ⟨l, hl, hc⟩
    obtain ⟨o, ho, rfl⟩ := Option.map_eq_some_iff.mp hl
    exact ⟨o, ho, hc⟩
  · rintro ⟨o, ho, hc⟩
    exact ⟨o.claims, by rw [ho, Option.map_some], hc⟩

def SameInventory (entries entries' : List InventoryEntry) : Prop :=
  ∃ middle, entries.Perm middle ∧ List.Forall₂ (fun e e' => ∃ names, e.ownerAttributes.Perm names ∧
    e' = { e with ownerAttributes := names }) middle entries'

def SameOwners (owners owners' : List PreparationOwnerPlan) : Prop :=
  ∃ middle, owners.Perm middle ∧ List.Forall₂ (fun o o' => ∃ files attributes, o.files.Perm files ∧
    o.attributes.Perm attributes ∧ o' = { o with files := files, attributes := attributes }) middle owners'

lemma SameInventory.distinct {entries' : List InventoryEntry} (h : SameInventory entries entries')
    (hd : DistinctInventory entries) : DistinctInventory entries' := by
  obtain ⟨middle, hperm, hsame⟩ := h
  have hpaths : middle.map InventoryEntry.path = entries'.map InventoryEntry.path := by
    clear hperm
    induction hsame with
    | nil => rfl
    | cons hab _ ih =>
      obtain ⟨names, -, rfl⟩ := hab
      rw [List.map_cons, List.map_cons, ih]
  have hfrom := exists_of_forall₂ hsame
  refine ⟨?_, fun e' he' => ?_, fun e' he' => ?_⟩
  · rw [← hpaths]
    exact (hperm.map _).nodup_iff.mp hd.paths
  · obtain ⟨e, he, names, -, rfl⟩ := hfrom e' he'
    exact hd.no_dot e (hperm.mem_iff.mpr he)
  · obtain ⟨e, he, names, hnames, rfl⟩ := hfrom e' he'
    exact hnames.nodup_iff.mp (hd.names e (hperm.mem_iff.mpr he))

lemma SameInventory.perm {entries' : List InventoryEntry} (h : SameInventory entries entries') :
    (originals entries).Perm (originals entries') := by
  obtain ⟨middle, hperm, hsame⟩ := h
  refine (hperm.flatMap_right _).trans (perm_flatMap_of_forall₂ ?_ hsame)
  rintro e _ ⟨names, hnames, rfl⟩
  exact ((hnames.filter _).map _).append_left _

lemma SameOwners.perm {owners' : List PreparationOwnerPlan} (h : SameOwners owners owners') :
    (claimed owners).Perm (claimed owners') := by
  obtain ⟨middle, hperm, hsame⟩ := h
  refine (hperm.flatMap_right _).trans (perm_flatMap_of_forall₂ ?_ hsame)
  rintro o _ ⟨files, attributes, hfiles, hattributes, rfl⟩
  exact (hfiles.map _).append (hattributes.map _)

lemma SameOwners.scope {owners' : List PreparationOwnerPlan} (h : SameOwners owners owners') (hs : ValidScope owners) :
    ValidScope owners' := by
  obtain ⟨middle, hperm, hsame⟩ := h
  rcases hs with ⟨o, rfl, hold⟩ | hunion
  · obtain rfl := List.singleton_perm.mp hperm
    cases hsame with
    | cons hab hrest =>
      cases hrest
      obtain ⟨files, attributes, -, -, rfl⟩ := hab
      exact Or.inl ⟨_, rfl, hold⟩
  · right
    intro o' ho'
    obtain ⟨o, ho, files, attributes, -, -, rfl⟩ := exists_of_forall₂ hsame o' ho'
    rw [← hsame.length_eq, ← hperm.length_eq]
    exact hunion o (hperm.mem_iff.mpr ho)

/-- Coverage accepts exactly the partitions of the inventory, whatever the order of its parts, and
the two profiles of a single owner accept the same claims. -/
theorem restore_coverage_exact (entries : List InventoryEntry) (owners : List PreparationOwnerPlan)
    (h : DistinctInventory entries) (hs : ValidScope owners) :
    (validatePreparationRestoreCoverage entries owners = .ok () ↔ Partitions entries owners) ∧
      (∀ entries' owners', SameInventory entries entries' → SameOwners owners owners' →
        (validatePreparationRestoreCoverage entries owners = .ok () ↔
          validatePreparationRestoreCoverage entries' owners' = .ok ())) ∧
      ∀ owner, OldScope owner →
        (validatePreparationRestoreCoverage entries [owner] = .ok () ↔
          validatePreparationRestoreCoverage entries [{ owner with restoreCoverage := preparationCompleteUnion }] =
            .ok ()) := by
  refine ⟨(validate_iff h hs).trans (partitions_iff h), fun entries' owners' he ho => ?_, fun owner hold => ?_⟩
  · rw [validate_iff h hs, validate_iff (he.distinct h) (ho.scope hs)]
    constructor
    · intro hperm
      exact ho.perm.symm.trans (hperm.trans he.perm)
    · intro hperm
      exact ho.perm.trans (hperm.trans he.perm.symm)
  · have hunion : ValidScope [{ owner with restoreCoverage := preparationCompleteUnion }] := by
      right
      intro o ho
      obtain rfl := List.mem_singleton.mp ho
      exact ⟨hold.1, hold.2.1, rfl, hold.2.2.2, fun _ => rfl⟩
    rw [validate_iff h (Or.inl ⟨owner, rfl, hold⟩), validate_iff h hunion]
    exact Iff.rfl

theorem restore_coverage_two_owners :
    validatePreparationRestoreCoverage
        [⟨"", "directory", 448, 0, "", [preparationAttribute, "user.urnetwork.head"]⟩, ⟨"a", "file", 384, 1, "x", []⟩]
        [⟨"restore", ".", preparationCompleteUnion, false, [⟨"a", "file", 384, 1, "x"⟩], [], [1]⟩,
          ⟨"restore", ".", preparationCompleteUnion, false, [], [⟨".", "user.urnetwork.head"⟩], [1]⟩] = .ok () ↔
      Partitions
        [⟨"", "directory", 448, 0, "", [preparationAttribute, "user.urnetwork.head"]⟩, ⟨"a", "file", 384, 1, "x", []⟩]
        [⟨"restore", ".", preparationCompleteUnion, false, [⟨"a", "file", 384, 1, "x"⟩], [], [1]⟩,
          ⟨"restore", ".", preparationCompleteUnion, false, [], [⟨".", "user.urnetwork.head"⟩], [1]⟩] :=
  (restore_coverage_exact _ _ ⟨by decide, by decide, by decide⟩
    (Or.inr (by simp [UnionScope]))).1

end Coverage

end UrConnect.DurableVolume
