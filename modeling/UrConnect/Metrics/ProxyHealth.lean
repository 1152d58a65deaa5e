import Mathlib
import UrConnect.Lib.Runs
import UrConnect.Metrics.CountersFile

/-! The health records of the proxies, filed by index and by identity, and the byte counters of their proxies. -/

namespace UrConnect.Metrics

open UrConnect.Lib UrConnect.Lib.Runs

/-- The byte counters of a proxy. Each byte of a record was added to it or is part of what it was seeded with. -/
structure ProxyBandwidth where
  bytes : ProxyField → ℕ
  seeded : Bool

/-- A time that was never set is none; `bw` is the place of the counters. -/
structure ProxyHealth where
  address : String
  key : String
  currentlyUp : Bool
  everUp : Bool
  connecting : Bool
  connectingSince : Option ℤ
  downSince : Option ℤ
  bw : Option ℕ

def ProxyHealth.new : ProxyHealth := ⟨"", "", false, false, false, none, none, none⟩

inductive Health
  | up
  | dead
  | degraded
deriving DecidableEq

def ProxyHealth.note (h : ProxyHealth) (health : Health) (downSince : Option ℤ) : ProxyHealth :=
  match health with
  | .up => { h with currentlyUp := true, everUp := true, downSince := none }
  | .dead => { h with currentlyUp := false, everUp := false, downSince := none }
  | .degraded => { h with currentlyUp := false, everUp := true, downSince := downSince }

/-- A health record is known by its place in `healths`, as by its address. -/
structure ProxyRegistry where
  healths : List ProxyHealth
  byIndex : Table ℤ ℕ
  byKey : Table String ℕ
  bandwidths : List ProxyBandwidth
  proxyBase : Proxies

namespace ProxyRegistry

def new (proxyBase : Proxies) : ProxyRegistry := ⟨[], ∅, ∅, [], proxyBase⟩

def keyOf (r : ProxyRegistry) (h : ℕ) : String := (r.healths[h]?.map ProxyHealth.key).getD ""

def bwOf (r : ProxyRegistry) (h : ℕ) : Option ℕ := r.healths[h]?.bind ProxyHealth.bw

def bytesOf (r : ProxyRegistry) (b : ℕ) : ProxyField → ℕ := (r.bandwidths[b]?.map ProxyBandwidth.bytes).getD fun _ => 0

def baseOf (r : ProxyRegistry) (key : String) : ProxyField → ℕ :=
  ((r.proxyBase.lookup key).map ProxyCounters.bytes).getD fun _ => 0

def modifyHealth (r : ProxyRegistry) (h : ℕ) (f : ProxyHealth → ProxyHealth) : ProxyRegistry :=
  { r with healths := r.healths.modify h f }

def seedProxyBandwidthLocked (r : ProxyRegistry) (key : String) (bw : Option ℕ) : ProxyRegistry :=
  match bw with
  | none => r
  | some b =>
    if key = "" then r
    else
      { r with
        bandwidths := r.bandwidths.modify b fun w =>
          if w.seeded then w else ⟨fun f => w.bytes f + r.baseOf key f, true⟩ }

def foldProxyBandwidthLocked (r : ProxyRegistry) (key : String) (bw : Option ℕ) (now : ℤ) : ProxyRegistry :=
  match bw with
  | none => r
  | some b =>
    if key = "" then r
    else { r with proxyBase := r.proxyBase.insert key ⟨fun f => max (r.baseOf key f) (r.bytesOf b f), unix now⟩ }

def ensure (r : ProxyRegistry) (index : ℤ) (fresh : ProxyHealth) : ProxyRegistry × ℕ :=
  match r.byIndex.lookup index with
  | some h => (r, h)
  | none =>
    ({ r with healths := r.healths ++ [fresh], byIndex := r.byIndex.insert index r.healths.length }, r.healths.length)

def registerProxy (r : ProxyRegistry) (index : ℤ) (address key : String) (now : ℤ) : ProxyRegistry :=
  let ensured := r.ensure index .new
  let r := ensured.1
  let h := ensured.2
  let old := r.keyOf h
  let freed := if old ≠ "" ∧ old ≠ key then r.byKey.erase old else r.byKey
  let registered :=
    { r with
      healths := r.healths.modify h fun health =>
        { health with address := address, key := key, connecting := true, connectingSince := some now }
      byKey := freed.insert key h }
  registered.seedProxyBandwidthLocked key (r.bwOf h)

def withBandwidth (r : ProxyRegistry) (h : ℕ) : ProxyRegistry :=
  match r.bwOf h with
  | some b => r.seedProxyBandwidthLocked (r.keyOf h) (some b)
  | none =>
    let made :=
      { r with
        healths := r.healths.modify h fun health => { health with bw := some r.bandwidths.length }
        bandwidths := r.bandwidths ++ [ProxyBandwidth.mk (fun _ => 0) false] }
    made.seedProxyBandwidthLocked (r.keyOf h) (some r.bandwidths.length)

def registerProxyBandwidth (r : ProxyRegistry) (index : ℤ) : ProxyRegistry :=
  let ensured := r.ensure index { ProxyHealth.new with connecting := true }
  ensured.1.withBandwidth ensured.2

def registeredProxyBandwidth (r : ProxyRegistry) (index : ℤ) : ProxyRegistry :=
  match r.byIndex.lookup index with
  | none => r
  | some h => r.withBandwidth h

def addBytes (r : ProxyRegistry) (b : ℕ) (field : ProxyField) (n : ℕ) : ProxyRegistry :=
  { r with bandwidths := r.bandwidths.modify b fun w => { w with bytes := fun f => w.bytes f + if f = field then n else 0 } }

def unregisterProxy (r : ProxyRegistry) (id : ℤ) (now : ℤ) : ProxyRegistry :=
  match r.byIndex.lookup id with
  | none => r
  | some h =>
    let key := r.keyOf h
    let dropped :=
      if key ≠ "" ∧ r.byKey.lookup key = some h then { r with byKey := r.byKey.erase key } else r
    let folded := dropped.foldProxyBandwidthLocked key (r.bwOf h) now
    { folded with byIndex := r.byIndex.erase id }

def freeIndex (byIndex : Table ℤ ℕ) : ℕ → ℤ → ℤ
  | 0, idx => idx
  | tries + 1, idx => if idx ∈ byIndex then freeIndex byIndex tries (idx + 1) else idx

def noteLiveProxyHealth (r : ProxyRegistry) (key : String) (health : Health) (downSince : Option ℤ) : ProxyRegistry :=
  match r.byKey.lookup key with
  | some h => r.modifyHealth h fun old => old.note health downSince
  | none =>
    let count := r.byIndex.entries.length
    { r with
      healths := r.healths ++ [{ ProxyHealth.new with key := key, address := key }.note health downSince]
      byIndex := r.byIndex.insert (freeIndex r.byIndex count (count + 1)) r.healths.length
      byKey := r.byKey.insert key r.healths.length }

def unregisterProxyByKey (r : ProxyRegistry) (key : String) : ProxyRegistry :=
  match r.byKey.lookup key with
  | none => r
  | some h =>
    { r with
      byKey := r.byKey.erase key
      byIndex :=
        match r.byIndex.entries.find? fun e => e.2 = h with
        | none => r.byIndex
        | some e => r.byIndex.erase e.1 }

inductive Event
  | registerProxy (index : ℤ) (address key : String) (now : ℤ)
  | registerProxyBandwidth (index : ℤ)
  | registeredProxyBandwidth (index : ℤ)
  | addBytes (b : ℕ) (field : ProxyField) (n : ℕ)
  | noteLiveProxyHealth (key : String) (health : Health) (downSince : Option ℤ)
  | unregisterProxy (id : ℤ) (now : ℤ)
  | unregisterProxyByKey (key : String)

def step (r : ProxyRegistry) : Event → ProxyRegistry
  | .registerProxy index address key now => r.registerProxy index address key now
  | .registerProxyBandwidth index => r.registerProxyBandwidth index
  | .registeredProxyBandwidth index => r.registeredProxyBandwidth index
  | .addBytes b field n => r.addBytes b field n
  | .noteLiveProxyHealth key health downSince => r.noteLiveProxyHealth key health downSince
  | .unregisterProxy id now => r.unregisterProxy id now
  | .unregisterProxyByKey key => r.unregisterProxyByKey key

section Fields

variable {r : ProxyRegistry} {h g b : ℕ} {key : String} {bw : Option ℕ} {index : ℤ}

@[simp] lemma seed_healths : (r.seedProxyBandwidthLocked key bw).healths = r.healths := by
  rw [seedProxyBandwidthLocked.eq_def]
  split
  · rfl
  · split <;> rfl

@[simp] lemma seed_byIndex : (r.seedProxyBandwidthLocked key bw).byIndex = r.byIndex := by
  rw [seedProxyBandwidthLocked.eq_def]
  split
  · rfl
  · split <;> rfl

@[simp] lemma seed_byKey : (r.seedProxyBandwidthLocked key bw).byKey = r.byKey := by
  rw [seedProxyBandwidthLocked.eq_def]
  split
  · rfl
  · split <;> rfl

@[simp] lemma fold_healths (now : ℤ) : (r.foldProxyBandwidthLocked key bw now).healths = r.healths := by
  rw [foldProxyBandwidthLocked.eq_def]
  split
  · rfl
  · split <;> rfl

@[simp] lemma fold_byKey (now : ℤ) : (r.foldProxyBandwidthLocked key bw now).byKey = r.byKey := by
  rw [foldProxyBandwidthLocked.eq_def]
  split
  · rfl
  · split <;> rfl

lemma keyOf_congr {r r' : ProxyRegistry} (h : r'.healths = r.healths) (g : ℕ) : r'.keyOf g = r.keyOf g := by
  rw [keyOf, keyOf, h]

lemma keyOf_modify {f : ProxyHealth → ProxyHealth} (hf : ∀ health, (f health).key = health.key) (g : ℕ) :
    (r.modifyHealth h f).keyOf g = r.keyOf g := by
  rw [keyOf, modifyHealth, List.getElem?_modify, keyOf]
  cases r.healths[g]? with
  | none => rfl
  | some health =>
    rw [Option.map_eq_map, Option.map_some, Option.map_some, Option.map_some, Option.getD_some, Option.getD_some]
    split
    · exact hf health
    · rfl

lemma keyOf_rekey {f : ProxyHealth → ProxyHealth} (hf : ∀ health, (f health).key = key) (hh : h < r.healths.length)
    (g : ℕ) : (r.modifyHealth h f).keyOf g = if g = h then key else r.keyOf g := by
  rw [keyOf, modifyHealth, List.getElem?_modify, keyOf]
  by_cases hg : g = h
  · subst hg
    rw [List.getElem?_eq_getElem hh]
    simp [hf]
  · simp [Ne.symm hg, hg]

lemma keyOf_append (fresh : ProxyHealth) (g : ℕ) (byIndex : Table ℤ ℕ) (byKey : Table String ℕ) :
    ({ r with healths := r.healths ++ [fresh], byIndex := byIndex, byKey := byKey } : ProxyRegistry).keyOf g =
      if g = r.healths.length then fresh.key else r.keyOf g := by
  rw [keyOf, keyOf]
  dsimp only
  by_cases hg : g = r.healths.length
  · subst hg
    rw [List.getElem?_concat_length, if_pos rfl]
    rfl
  · rw [if_neg hg, List.getElem?_append]
    split
    · rfl
    · next hlt =>
      rw [List.getElem?_eq_none (Nat.le_of_not_lt hlt), List.getElem?_singleton, if_neg (by omega)]

end Fields

structure Filed (r : ProxyRegistry) : Prop where
  bound : ∀ i h, r.byIndex.lookup i = some h → h < r.healths.length
  injective : ∀ i j h, r.byIndex.lookup i = some h → r.byIndex.lookup j = some h → i = j

structure InStep (r : ProxyRegistry) : Prop where
  entries : ∀ k h, r.byKey.lookup k = some h → (∃ i, r.byIndex.lookup i = some h) ∧ r.keyOf h = k
  records : ∀ i h, r.byIndex.lookup i = some h → r.keyOf h ≠ "" → ∃ g, r.byKey.lookup (r.keyOf h) = some g

def Sole (r : ProxyRegistry) (h : ℕ) : Prop := ∀ i g, r.byIndex.lookup i = some g → g ≠ h → r.keyOf g ≠ r.keyOf h

/-- An identity is given up only by its one record, and no record is filed under the empty identity when it leaves
it. -/
def Unshared (r : ProxyRegistry) : Event → Prop
  | .registerProxy index _ key _ => ∀ h ∈ r.byIndex.lookup index, r.keyOf h ≠ key →
    if r.keyOf h = "" then r.byKey.lookup "" ≠ some h else r.Sole h
  | .unregisterProxy id _ => ∀ h ∈ r.byIndex.lookup id,
    if r.keyOf h = "" then r.byKey.lookup "" ≠ some h else r.byKey.lookup (r.keyOf h) = some h → r.Sole h
  | .unregisterProxyByKey key => ∀ h ∈ r.byKey.lookup key, key ≠ "" → r.Sole h
  | _ => True

section Steps

variable {r r' : ProxyRegistry} {h : ℕ} {index id : ℤ} {key : String} {now : ℤ}

lemma Filed.congr (hf : Filed r) (hlength : r.healths.length ≤ r'.healths.length) (hindex : r'.byIndex = r.byIndex) :
    Filed r' := by
  constructor
  · rw [hindex]
    exact fun i h hi => (hf.bound i h hi).trans_le hlength
  · rw [hindex]
    exact hf.injective

lemma InStep.congr (hs : InStep r) (hkeys : ∀ h, r'.keyOf h = r.keyOf h) (hindex : r'.byIndex = r.byIndex)
    (hkey : r'.byKey = r.byKey) : InStep r' := by
  constructor
  · rw [hkey, hindex]
    intro k h hk
    rw [hkeys]
    exact hs.entries k h hk
  · rw [hkey, hindex]
    intro i h hi
    rw [hkeys]
    exact hs.records i h hi

lemma Filed.add (hf : Filed r) (fresh : ProxyHealth) (index : ℤ) (byKey : Table String ℕ) :
    Filed { r with
      healths := r.healths ++ [fresh]
      byIndex := r.byIndex.insert index r.healths.length
      byKey := byKey } := by
  constructor
  · intro i h hi
    rw [Table.lookup_insert_eq] at hi
    rw [List.length_append, List.length_singleton]
    split at hi
    · cases hi
      exact Nat.lt_succ_self _
    · exact (hf.bound i h hi).trans (Nat.lt_succ_self _)
  · intro i j h hi hj
    rw [Table.lookup_insert_eq] at hi hj
    split at hi
    · next hii =>
      cases hi
      split at hj
      · next hjj => rw [hii, hjj]
      · exact absurd (hf.bound j _ hj) (lt_irrefl _)
    · split at hj
      · cases hj
        exact absurd (hf.bound i _ hi) (lt_irrefl _)
      · exact hf.injective i j h hi hj

lemma ensure_cases (r : ProxyRegistry) (index : ℤ) (fresh : ProxyHealth) :
    (∃ h, r.byIndex.lookup index = some h ∧ r.ensure index fresh = (r, h)) ∨
      r.byIndex.lookup index = none ∧ r.ensure index fresh =
        ({ r with healths := r.healths ++ [fresh], byIndex := r.byIndex.insert index r.healths.length },
          r.healths.length) := by
  rw [ensure]
  cases hr : r.byIndex.lookup index with
  | none => exact .inr ⟨rfl, rfl⟩
  | some h => exact .inl ⟨h, rfl, rfl⟩

lemma InStep.add (hf : Filed r) (hs : InStep r) {fresh : ProxyHealth} (hfresh : fresh.key = "")
    (hfree : r.byIndex.lookup index = none) :
    InStep { r with healths := r.healths ++ [fresh], byIndex := r.byIndex.insert index r.healths.length } := by
  have hkeys := keyOf_append (r := r) fresh
  constructor
  · intro k h hk
    obtain ⟨⟨i, hi⟩, hkey⟩ := hs.entries k h hk
    have hold : h ≠ r.healths.length := (hf.bound i h hi).ne
    have hne : i ≠ index := by
      rintro rfl
      rw [hfree] at hi
      cases hi
    refine ⟨⟨i, (AList.lookup_insert_ne hne).trans hi⟩, ?_⟩
    rw [hkeys, if_neg hold, hkey]
  · intro i h hi hne
    rw [hkeys] at hne ⊢
    rw [Table.lookup_insert_eq] at hi
    split at hi
    · cases hi
      rw [if_pos rfl, hfresh] at hne
      exact absurd rfl hne
    · have hold : h ≠ r.healths.length := (hf.bound i h hi).ne
      rw [if_neg hold] at hne ⊢
      exact hs.records i h hi hne

lemma ensure_keeps (hf : Filed r) (hs : InStep r) (index : ℤ) (fresh : ProxyHealth) (hfresh : fresh.key = "") :
    Filed (r.ensure index fresh).1 ∧ InStep (r.ensure index fresh).1 ∧
      (r.ensure index fresh).1.byIndex.lookup index = some (r.ensure index fresh).2 := by
  rcases ensure_cases r index fresh with ⟨h, hh, heq⟩ | ⟨hfree, heq⟩
  · rw [heq]
    exact ⟨hf, hs, hh⟩
  · rw [heq]
    exact ⟨hf.add fresh index r.byKey, hs.add hf hfresh hfree, AList.lookup_insert _⟩

lemma InStep.rekey {f : ProxyHealth → ProxyHealth} (hf : Filed r) (hs : InStep r) (hh : r.byIndex.lookup index = some h)
    (hkey : ∀ health, (f health).key = key)
    (hleaves : r.keyOf h ≠ key → if r.keyOf h = "" then r.byKey.lookup "" ≠ some h else r.Sole h) :
    InStep { r with
      healths := r.healths.modify h f
      byKey := (if r.keyOf h ≠ "" ∧ r.keyOf h ≠ key then r.byKey.erase (r.keyOf h) else r.byKey).insert key h } := by
  have hkeys := keyOf_rekey (r := r) hkey (hf.bound index h hh)
  have hkeys' : ∀ g, ({ r with
      healths := r.healths.modify h f
      byKey := (if r.keyOf h ≠ "" ∧ r.keyOf h ≠ key then r.byKey.erase (r.keyOf h) else r.byKey).insert key h }
        : ProxyRegistry).keyOf g = if g = h then key else r.keyOf g := hkeys
  constructor
  · intro k g hk
    rw [Table.lookup_insert_eq] at hk
    rw [hkeys']
    split at hk
    · next hkk =>
      cases hk
      exact ⟨⟨index, hh⟩, by rw [if_pos rfl, hkk]⟩
    · next hkk =>
      have hold : r.byKey.lookup k = some g ∧ g ≠ h := by
        split at hk
        · rw [Table.lookup_erase_eq] at hk
          split at hk
          · cases hk
          · next hne =>
            refine ⟨hk, ?_⟩
            rintro rfl
            exact hne (hs.entries k g hk).2.symm
        · next hstays =>
          refine ⟨hk, ?_⟩
          rintro rfl
          have hgk := (hs.entries k g hk).2
          have hchanges : r.keyOf g ≠ key := by
            rw [hgk]
            exact hkk
          have hempty : r.keyOf g = "" := by
            by_contra hne
            exact hstays ⟨hne, hchanges⟩
          have hleft := hleaves hchanges
          rw [if_pos hempty] at hleft
          rw [← hempty, hgk] at hleft
          exact hleft hk
      obtain ⟨hregistered, hgk⟩ := hs.entries k g hold.1
      exact ⟨hregistered, by rw [if_neg hold.2, hgk]⟩
  · intro i g hi hne
    rw [hkeys'] at hne ⊢
    rw [Table.lookup_insert_eq]
    by_cases hg : g = h
    · rw [if_pos hg, if_pos rfl]
      exact ⟨h, rfl⟩
    · rw [if_neg hg] at hne ⊢
      split
      · exact ⟨h, rfl⟩
      · obtain ⟨g', hg'⟩ := hs.records i g hi hne
        refine ⟨g', ?_⟩
        split
        · next herased =>
          rw [Table.lookup_erase_eq, if_neg, hg']
          have hsole := hleaves herased.2
          rw [if_neg herased.1] at hsole
          exact hsole i g hi hg
        · exact hg'

lemma registerProxy_keeps (address : String) (hf : Filed r) (hs : InStep r)
    (hu : Unshared r (.registerProxy index address key now)) :
    Filed (r.registerProxy index address key now) ∧ InStep (r.registerProxy index address key now) := by
  obtain ⟨hf', hs', hh⟩ := ensure_keeps hf hs index .new rfl
  have hleaves : (r.ensure index .new).1.keyOf (r.ensure index .new).2 ≠ key →
      if (r.ensure index .new).1.keyOf (r.ensure index .new).2 = ""
      then (r.ensure index .new).1.byKey.lookup "" ≠ some (r.ensure index .new).2
      else (r.ensure index .new).1.Sole (r.ensure index .new).2 := by
    rcases ensure_cases r index .new with ⟨h, hh, heq⟩ | ⟨hfree, heq⟩
    · rw [heq]
      exact hu h hh
    · rw [heq]
      intro _
      have hfresh := keyOf_append (r := r) .new r.healths.length (r.byIndex.insert index r.healths.length) r.byKey
      rw [if_pos rfl] at hfresh
      rw [if_pos (by exact hfresh)]
      intro hentry
      obtain ⟨⟨i, hi⟩, -⟩ := hs.entries "" _ hentry
      exact absurd (hf.bound i _ hi) (lt_irrefl _)
  have hregistered := hs'.rekey hf' hh (fun health : ProxyHealth => rfl) hleaves
    (f := fun health => { health with address := address, key := key, connecting := true, connectingSince := some now })
  rw [registerProxy]
  refine ⟨Filed.congr hf' ?_ seed_byIndex, hregistered.congr ?_ seed_byIndex seed_byKey⟩
  · rw [seed_healths, List.length_modify]
  · exact keyOf_congr seed_healths

lemma withBandwidth_healths (r : ProxyRegistry) (h : ℕ) :
    (∀ g, (r.withBandwidth h).keyOf g = r.keyOf g) ∧ (r.withBandwidth h).healths.length = r.healths.length ∧
      (r.withBandwidth h).byIndex = r.byIndex ∧ (r.withBandwidth h).byKey = r.byKey := by
  rw [withBandwidth]
  split
  · exact ⟨keyOf_congr seed_healths, by rw [seed_healths], seed_byIndex, seed_byKey⟩
  · refine ⟨fun g => ?_, by rw [seed_healths, List.length_modify], seed_byIndex, seed_byKey⟩
    rw [keyOf_congr seed_healths]
    exact keyOf_modify (r := r) (h := h) (f := fun health => { health with bw := some r.bandwidths.length })
      (fun _ => rfl) g

lemma withBandwidth_keeps (hf : Filed r) (hs : InStep r) (h : ℕ) :
    Filed (r.withBandwidth h) ∧ InStep (r.withBandwidth h) := by
  obtain ⟨hkeys, hlength, hindex, hkey⟩ := withBandwidth_healths r h
  exact ⟨hf.congr hlength.ge hindex, hs.congr hkeys hindex hkey⟩

lemma unregisterProxy_eq (now : ℤ) (hh : r.byIndex.lookup id = some h) :
    (r.unregisterProxy id now).healths = r.healths ∧
      (r.unregisterProxy id now).byIndex = r.byIndex.erase id ∧
      (r.unregisterProxy id now).byKey =
        if r.keyOf h ≠ "" ∧ r.byKey.lookup (r.keyOf h) = some h then r.byKey.erase (r.keyOf h) else r.byKey := by
  rw [unregisterProxy, hh]
  dsimp only
  rw [fold_healths, fold_byKey]
  split <;> exact ⟨rfl, rfl, rfl⟩

lemma Filed.erase (hf : Filed r) (hhealths : r'.healths = r.healths) (hindex : r'.byIndex = r.byIndex.erase id) :
    Filed r' := by
  have hlookup : ∀ i h, r'.byIndex.lookup i = some h → i ≠ id ∧ r.byIndex.lookup i = some h := by
    intro i h hi
    rw [hindex, Table.lookup_erase_eq] at hi
    split at hi
    · cases hi
    · next hne => exact ⟨hne, hi⟩
  constructor
  · intro i h hi
    rw [hhealths]
    exact hf.bound i h (hlookup i h hi).2
  · intro i j h hi hj
    exact hf.injective i j h (hlookup i h hi).2 (hlookup j h hj).2

lemma InStep.erase (hf : Filed r) (hs : InStep r) (hh : r.byIndex.lookup id = some h) (hhealths : r'.healths = r.healths)
    (hindex : r'.byIndex = r.byIndex.erase id)
    (hkept : ∀ k g, r'.byKey.lookup k = some g → r.byKey.lookup k = some g ∧ g ≠ h)
    (hothers : ∀ i g, r.byIndex.lookup i = some g → g ≠ h → r.keyOf g ≠ "" →
      r'.byKey.lookup (r.keyOf g) = r.byKey.lookup (r.keyOf g)) : InStep r' := by
  have hkeys := keyOf_congr hhealths
  constructor
  · intro k g hk
    obtain ⟨hold, hne⟩ := hkept k g hk
    obtain ⟨⟨i, hi⟩, hgk⟩ := hs.entries k g hold
    rw [hkeys, hindex]
    refine ⟨⟨i, ?_⟩, hgk⟩
    rw [Table.lookup_erase_eq, if_neg, hi]
    rintro rfl
    exact hne (Option.some.inj (hi.symm.trans hh))
  · intro i g hi hne
    rw [hindex, Table.lookup_erase_eq] at hi
    split at hi
    · cases hi
    · next hid =>
      rw [hkeys] at hne ⊢
      have hgh : g ≠ h := by
        rintro rfl
        exact hid (hf.injective i id g hi hh)
      rw [hothers i g hi hgh hne]
      exact hs.records i g hi hne

lemma unregisterProxy_keeps (hf : Filed r) (hs : InStep r) (hu : Unshared r (.unregisterProxy id now)) :
    Filed (r.unregisterProxy id now) ∧ InStep (r.unregisterProxy id now) := by
  cases hh : r.byIndex.lookup id with
  | none =>
    rw [unregisterProxy, hh]
    exact ⟨hf, hs⟩
  | some h =>
    obtain ⟨hhealths, hindex, hkey⟩ := unregisterProxy_eq now hh
    have hleaves := hu h hh
    refine ⟨hf.erase hhealths hindex, hs.erase hf hh hhealths hindex ?_ ?_⟩
    · intro k g hk
      rw [hkey] at hk
      split at hk
      · rw [Table.lookup_erase_eq] at hk
        split at hk
        · cases hk
        · next hne =>
          refine ⟨hk, ?_⟩
          rintro rfl
          exact hne (hs.entries k g hk).2.symm
      · next hstays =>
        refine ⟨hk, ?_⟩
        rintro rfl
        have hgk := (hs.entries k g hk).2
        by_cases hempty : r.keyOf g = ""
        · rw [if_pos hempty] at hleaves
          rw [← hempty, hgk] at hleaves
          exact hleaves hk
        · exact hstays ⟨hempty, by rw [hgk, hk]⟩
    · intro i g hi hne hgk
      rw [hkey]
      split
      · next herased =>
        rw [if_neg herased.1] at hleaves
        rw [Table.lookup_erase_eq, if_neg (hleaves herased.2 i g hi hne)]
      · rfl

lemma find_index {h : ℕ} (hf : Filed r) (hid : r.byIndex.lookup id = some h) :
    ∃ e, (r.byIndex.entries.find? fun e => decide (e.2 = h)) = some e ∧ e.1 = id := by
  have hentry : ⟨id, h⟩ ∈ r.byIndex.entries := AList.mem_lookup_iff.mp hid
  cases hfind : r.byIndex.entries.find? fun e => decide (e.2 = h) with
  | none => exact absurd (decide_eq_true rfl) (List.find?_eq_none.mp hfind _ hentry)
  | some e =>
    refine ⟨e, rfl, ?_⟩
    have hvalue : e.2 = h := by simpa using List.find?_some hfind
    have hlookup : r.byIndex.lookup e.1 = some e.2 := AList.mem_lookup_iff.mpr (List.mem_of_find?_eq_some hfind)
    exact hf.injective e.1 id h (hvalue ▸ hlookup) hid

lemma unregisterProxyByKey_keeps (hf : Filed r) (hs : InStep r) (hu : Unshared r (.unregisterProxyByKey key)) :
    Filed (r.unregisterProxyByKey key) ∧ InStep (r.unregisterProxyByKey key) := by
  cases hk : r.byKey.lookup key with
  | none =>
    rw [unregisterProxyByKey, hk]
    exact ⟨hf, hs⟩
  | some h =>
    obtain ⟨⟨i, hi⟩, hkey⟩ := hs.entries key h hk
    obtain ⟨e, he, rfl⟩ := find_index hf hi
    have hstep : r.unregisterProxyByKey key = { r with byKey := r.byKey.erase key, byIndex := r.byIndex.erase e.1 } := by
      rw [unregisterProxyByKey, hk]
      dsimp only
      rw [he]
    rw [hstep]
    refine ⟨hf.erase rfl rfl, hs.erase hf hi rfl rfl ?_ ?_⟩
    · intro k g hg
      rw [Table.lookup_erase_eq] at hg
      split at hg
      · cases hg
      · next hne =>
        refine ⟨hg, ?_⟩
        rintro rfl
        exact hne ((hs.entries k g hg).2.symm.trans hkey)
    · intro j g hj hne hgk
      rw [Table.lookup_erase_eq, if_neg]
      intro heq
      exact hu h hk (heq ▸ hgk) j g hj hne (heq.trans hkey.symm)

lemma freeIndex_not_mem (byIndex : Table ℤ ℕ) (idx : ℤ) :
    freeIndex byIndex byIndex.entries.length idx ∉ byIndex := by
  have htaken : ∀ (tries : ℕ) (idx : ℤ), freeIndex byIndex tries idx ∈ byIndex →
      ∀ n : ℕ, n ≤ tries → idx + n ∈ byIndex := by
    intro tries
    induction tries with
    | zero =>
      intro idx hmem n hn
      rw [Nat.le_zero.mp hn]
      simpa [freeIndex] using hmem
    | succ tries ih =>
      intro idx hmem n hn
      rw [freeIndex] at hmem
      split at hmem
      · next hidx =>
        cases n with
        | zero => simpa using hidx
        | succ n =>
          have hnext := ih (idx + 1) hmem n (Nat.le_of_succ_le_succ hn)
          rwa [show idx + ((n + 1 : ℕ) : ℤ) = idx + 1 + n by push_cast; ring]
      · next hidx => exact absurd hmem hidx
  intro hmem
  have hsub : (List.range (byIndex.entries.length + 1)).map (fun n : ℕ => idx + n) ⊆ byIndex.keys := by
    intro i hi
    obtain ⟨n, hn, rfl⟩ := List.mem_map.mp hi
    exact htaken _ idx hmem n (Nat.le_of_lt_succ (List.mem_range.mp hn))
  have hnodup : ((List.range (byIndex.entries.length + 1)).map fun n : ℕ => idx + (n : ℤ)).Nodup :=
    List.nodup_range.map fun a b hab => by simpa using hab
  have hle := (hnodup.subperm hsub).length_le
  rw [List.length_map, List.length_range, AList.keys, List.keys, List.length_map] at hle
  omega

lemma noteLiveProxyHealth_keeps (hf : Filed r) (hs : InStep r) (health : Health) (downSince : Option ℤ) :
    Filed (r.noteLiveProxyHealth key health downSince) ∧ InStep (r.noteLiveProxyHealth key health downSince) := by
  cases hk : r.byKey.lookup key with
  | some h =>
    rw [noteLiveProxyHealth, hk]
    dsimp only
    refine ⟨hf.congr (by rw [modifyHealth, List.length_modify]) rfl, hs.congr (keyOf_modify ?_) rfl rfl⟩
    intro old
    cases health <;> rfl
  | none =>
    rw [noteLiveProxyHealth, hk]
    dsimp only
    have hfree : r.byIndex.lookup (freeIndex r.byIndex r.byIndex.entries.length (r.byIndex.entries.length + 1)) = none :=
      AList.lookup_eq_none.mpr (freeIndex_not_mem r.byIndex _)
    have hnote : (({ ProxyHealth.new with key := key, address := key } : ProxyHealth).note health downSince).key = key := by
      cases health <;> rfl
    refine ⟨hf.add _ _ _, ?_⟩
    constructor
    · intro k h hkh
      rw [Table.lookup_insert_eq] at hkh
      rw [keyOf_append]
      split at hkh
      · next heq =>
        cases hkh
        rw [if_pos rfl, hnote, heq]
        exact ⟨⟨_, AList.lookup_insert _⟩, rfl⟩
      · obtain ⟨⟨i, hi⟩, hkey⟩ := hs.entries k h hkh
        rw [if_neg (hf.bound i h hi).ne]
        refine ⟨⟨i, (AList.lookup_insert_ne ?_).trans hi⟩, hkey⟩
        rintro rfl
        rw [hfree] at hi
        cases hi
    · intro i h hi hne
      rw [keyOf_append] at hne ⊢
      rw [Table.lookup_insert_eq] at hi ⊢
      split at hi
      · cases hi
        rw [if_pos rfl, hnote, if_pos rfl]
        exact ⟨_, rfl⟩
      · rw [if_neg (hf.bound i h hi).ne] at hne ⊢
        split
        · exact ⟨_, rfl⟩
        · exact hs.records i h hi hne

lemma step_keeps (e : Event) (hf : Filed r) (hs : InStep r) (hu : Unshared r e) :
    Filed (r.step e) ∧ InStep (r.step e) := by
  cases e with
  | registerProxy index address key now => exact registerProxy_keeps address hf hs hu
  | registerProxyBandwidth index =>
    obtain ⟨hf', hs', -⟩ := ensure_keeps hf hs index { ProxyHealth.new with connecting := true } rfl
    exact withBandwidth_keeps hf' hs' _
  | registeredProxyBandwidth index =>
    rw [step, registeredProxyBandwidth]
    split
    · exact ⟨hf, hs⟩
    · exact withBandwidth_keeps hf hs _
  | addBytes b field n => exact ⟨hf.congr le_rfl rfl, hs.congr (fun _ => rfl) rfl rfl⟩
  | noteLiveProxyHealth key health downSince => exact noteLiveProxyHealth_keeps hf hs health downSince
  | unregisterProxy id now => exact unregisterProxy_keeps hf hs hu
  | unregisterProxyByKey key => exact unregisterProxyByKey_keeps hf hs hu

end Steps

/-- In every run in which each identity is given up by its one record, the identities and the indices stay in
step. -/
theorem identities_in_step (proxyBase : Proxies) (es : List Event)
    (hu : Meets Unshared step (new proxyBase) es) : InStep (run step (new proxyBase) es) := by
  have hkept : Filed (run step (new proxyBase) es) ∧ InStep (run step (new proxyBase) es) := by
    refine meets_invariant (I := fun r => Filed r ∧ InStep r) (fun r e h => step_keeps e h.1 h.2) ?_ hu
    refine ⟨⟨?_, ?_⟩, ⟨?_, ?_⟩⟩
    · rintro i h ⟨⟩
    · rintro i j h ⟨⟩
    · rintro k h ⟨⟩
    · rintro i h ⟨⟩
  exact hkept.2

theorem shared_identity_is_lost :
    let r := run step (new ∅) [.registerProxy 1 "gateway" "shared" 0, .registerProxy 2 "gateway" "shared" 0,
      .registerProxy 1 "gateway" "renamed" 0]
    r.byIndex.lookup 2 = some 1 ∧ r.keyOf 1 = "shared" ∧ r.byKey.lookup "shared" = none := by
  decide +kernel

lemma sole_iff {r : ProxyRegistry} {h : ℕ} :
    (∀ e ∈ r.byIndex.entries, e.2 ≠ h → r.keyOf e.2 ≠ r.keyOf h) ↔ r.Sole h :=
  ⟨fun hall i g hi => hall ⟨i, g⟩ (AList.mem_lookup_iff.mp hi),
    fun hsole e he => hsole e.1 e.2 (AList.mem_lookup_iff.mpr he)⟩

instance (r : ProxyRegistry) (h : ℕ) : Decidable (r.Sole h) := decidable_of_iff _ sole_iff

instance (r : ProxyRegistry) : (e : Event) → Decidable (Unshared r e)
  | .registerProxy index _ key _ => inferInstanceAs (Decidable (∀ h ∈ r.byIndex.lookup index, r.keyOf h ≠ key →
    if r.keyOf h = "" then r.byKey.lookup "" ≠ some h else r.Sole h))
  | .unregisterProxy id _ => inferInstanceAs (Decidable (∀ h ∈ r.byIndex.lookup id,
    if r.keyOf h = "" then r.byKey.lookup "" ≠ some h else r.byKey.lookup (r.keyOf h) = some h → r.Sole h))
  | .unregisterProxyByKey key => inferInstanceAs (Decidable (∀ h ∈ r.byKey.lookup key, key ≠ "" → r.Sole h))
  | .registerProxyBandwidth _ | .registeredProxyBandwidth _ | .addBytes _ _ _ | .noteLiveProxyHealth _ _ _ =>
    inferInstanceAs (Decidable True)

def reload : List Event :=
  [.registerProxy 1 "a" "first" 0, .registerProxyBandwidth 2, .registerProxy 2 "b" "second" 1,
    .noteLiveProxyHealth "third" .up none, .registerProxy 1 "a" "fourth" 2, .unregisterProxy 2 3,
    .unregisterProxyByKey "third"]

theorem identities_in_step_in_a_reload : Meets Unshared step (new ∅) reload ∧ InStep (run step (new ∅) reload) := by
  have hu : Meets Unshared step (new ∅) reload := by decide +kernel
  exact ⟨hu, identities_in_step ∅ reload hu⟩

end ProxyRegistry

end UrConnect.Metrics
