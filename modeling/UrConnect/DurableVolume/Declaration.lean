import Mathlib
import UrConnect.Lib.Table

/-! One declaration for a cohort of planned roots, next to the roots that stay as they are. -/

namespace UrConnect.DurableVolume.Declaration

open Lib

section Model

abbrev Text := List Char

local instance : LawfulBEq Text := inferInstance

structure StateRootSpec where
  path : Text
  leasePath : Text
  leaseSha256 : Text
  rootInode : ℕ
  generationSha256 : Text
  deriving DecidableEq, Inhabited

structure VolumeSpec where
  mountPath : Text
  filesystemUuid : Text
  filesystemType : Text
  markerPath : Text
  markerSha256 : Text
  stateRoots : List StateRootSpec
  minAvailableBytes : ℕ
  minAvailableInodes : ℕ
  deriving DecidableEq, Inhabited

structure Config where
  schema : Text
  volumes : List VolumeSpec
  deriving DecidableEq

structure Original where
  mountPath : Text
  filesystemUuid : Text
  markerSha256 : Text
  stateRoot : StateRootSpec

structure DeclarationRoot where
  volume : VolumeSpec
  original : Option Original

def schema : Text := "urnetwork-durable-volumes-v2".toList

def maximumConfigBytes : ℕ := 64 * 1024

def beneath (parent path : Text) : Bool :=
  if parent = ['/'] then path.head? = some '/' else path = parent || (parent ++ ['/']).isPrefixOf path

def validDigest (value : Text) : Bool :=
  value.length = 71 && "sha256:".toList.isPrefixOf value &&
    (value.drop 7).all fun c => ('0' ≤ c && c ≤ '9') || ('a' ≤ c && c ≤ 'f')

/-- `clean` is the path cleaning of the standard library. -/
def canonical (clean : Text → Text) (path : Text) : Bool :=
  path.head? = some '/' && clean path = path && path ≠ ['/'] &&
    !path.any (fun c => c = '\x00' || c = '\n' || c = '\r') && (path.map fun c => c.utf8Size).sum ≤ 4096

structure Seen where
  roots : List Text
  identityPaths : List Text
  leasePaths : List Text
  mounts : List Text

def validateRoot (clean : Text → Text) (volume : VolumeSpec) (seen : Seen) (root : StateRootSpec) :
    Except String Seen :=
  if !canonical clean root.path || !beneath volume.mountPath root.path || root.path = volume.mountPath ||
      256 ≤ seen.roots.length then
    .error "durable owner root is absent, unbounded or outside its mount"
  else if root.rootInode = 0 || !validDigest root.generationSha256 then
    .error "durable owner root requires preprovisioned inode and generation authority"
  else if !canonical clean root.leasePath || !beneath volume.mountPath root.leasePath ||
      root.leasePath = volume.markerPath || !validDigest root.leaseSha256 || root.leasePath ∈ seen.leasePaths then
    .error "durable owner lease identity is absent, ambiguous or outside its mount"
  else if seen.roots.any fun prior => beneath prior root.path || beneath root.path prior then
    .error "durable owner roots overlap"
  else .ok { seen with
    roots := seen.roots ++ [root.path]
    identityPaths := seen.identityPaths ++ [root.leasePath]
    leasePaths := root.leasePath :: seen.leasePaths }

def validateVolume (clean : Text → Text) (seen : Seen) (volume : VolumeSpec) : Except String Seen :=
  if !canonical clean volume.mountPath || volume.mountPath ∈ seen.mounts || !canonical clean volume.markerPath ||
      !beneath volume.mountPath volume.markerPath || !validDigest volume.markerSha256 || volume.stateRoots = [] ||
      64 < volume.stateRoots.length || volume.minAvailableBytes = 0 || volume.minAvailableInodes = 0 then
    .error "durable volume identity, roots or positive reserve is incomplete"
  else if volume.filesystemType ≠ "ext4".toList ∧ volume.filesystemType ≠ "xfs".toList ∧
      volume.filesystemType ≠ "btrfs".toList then
    .error "durable volume filesystem type is unsupported"
  else if volume.filesystemUuid.length < 4 || 64 < volume.filesystemUuid.length then
    .error "durable volume filesystem uuid is invalid"
  else if !volume.filesystemUuid.all fun c => ('0' ≤ c && c ≤ '9') || ('a' ≤ c && c ≤ 'f') || c = '-' then
    .error "durable volume filesystem uuid is not canonical"
  else volume.stateRoots.foldlM (validateRoot clean volume) { seen with
    mounts := volume.mountPath :: seen.mounts
    identityPaths := seen.identityPaths ++ [volume.markerPath] }

def validate (clean : Text → Text) (config : Config) : Except String Unit := do
  if config.schema ≠ schema ∨ config.volumes = [] ∨ 16 < config.volumes.length then
    throw "durable volume schema or volume count is invalid"
  let seen ← config.volumes.foldlM (validateVolume clean) ⟨[], [], [], []⟩
  if seen.identityPaths.any fun path => seen.roots.any fun root => beneath root path then
    throw "durable identity or lease is inside a journal root"

structure MapOrders where
  roots : List Text → List Text
  pruned : List Text → List Text
  declared : List Text → List Text
  roots_perm : ∀ l, (roots l).Perm l
  pruned_perm : ∀ l, (pruned l).Perm l
  declared_perm : ∀ l, (declared l).Perm l

def retainedVolumes (retained : Config) : Table Text VolumeSpec :=
  retained.volumes.foldl (fun volumes volume => volumes.insert volume.mountPath volume) ∅

def oldRoots (retained : Config) : Table Text (StateRootSpec × Text) :=
  retained.volumes.foldl (fun old volume =>
    volume.stateRoots.foldl (fun old root => old.insert root.path (root, volume.mountPath)) old) ∅

def select (volumes : Table Text VolumeSpec) (old : Table Text (StateRootSpec × Text))
    (selected : Table Text DeclarationRoot) (item : DeclarationRoot) : Except String (Table Text DeclarationRoot) :=
  match item.volume.stateRoots with
  | [root] =>
    if (selected.lookup root.path).isSome then .error "cohort combined declaration repeats a root"
    else
      match item.original, old.lookup root.path with
      | some original, some (spec, mount) =>
        if spec ≠ original.stateRoot ∨ mount ≠ original.mountPath ∨ root.path ≠ original.stateRoot.path then
          .error "cohort restore differs from retained original root authority"
        else if ((volumes.lookup mount).getD default).filesystemUuid ≠ original.filesystemUuid ∨
            ((volumes.lookup mount).getD default).markerSha256 ≠ original.markerSha256 then
          .error "cohort restore differs from retained original volume authority"
        else .ok (selected.insert root.path item)
      | some _, none => .error "cohort restore differs from retained original root authority"
      | none, some _ => .error "cohort cannot enroll retained custody as fresh"
      | none, none => .ok (selected.insert root.path item)
  | _ => .error "cohort member declaration must contain exactly its planned root"

def prune (selected : Table Text DeclarationRoot) (volumes : Table Text VolumeSpec) (mount : Text) :
    Table Text VolumeSpec :=
  match volumes.lookup mount with
  | none => volumes
  | some volume =>
    let remaining := volume.stateRoots.filter fun root => (selected.lookup root.path).isNone
    if remaining = [] then volumes.erase mount else volumes.insert mount { volume with stateRoots := remaining }

def admitting (healthyMounts : Finset Text) (volumes : Table Text VolumeSpec) (item : DeclarationRoot) :
    Except String VolumeSpec :=
  match volumes.lookup item.volume.mountPath with
  | none => .ok { item.volume with stateRoots := [] }
  | some volume =>
    if volume.filesystemUuid ≠ item.volume.filesystemUuid ∨ volume.filesystemType ≠ item.volume.filesystemType then
      .error "cohort repeats a mount with different filesystem authority"
    else if item.volume.mountPath ∈ healthyMounts then
      if volume.minAvailableBytes < item.volume.minAvailableBytes ∨
          volume.minAvailableInodes < item.volume.minAvailableInodes then
        .error "cohort new reserve would change untouched root authority"
      else .ok volume
    else .ok { volume with
      minAvailableBytes := max volume.minAvailableBytes item.volume.minAvailableBytes
      minAvailableInodes := max volume.minAvailableInodes item.volume.minAvailableInodes }

def place (healthyMounts : Finset Text) (volumes : Table Text VolumeSpec) (item : DeclarationRoot) :
    Except String (Table Text VolumeSpec) := do
  let volume ← admitting healthyMounts volumes item
  match item.volume.stateRoots with
  | root :: _ => .ok (volumes.insert volume.mountPath { volume with stateRoots := volume.stateRoots ++ [root] })
  | [] => .error "index out of range"

def sortRoots (volume : VolumeSpec) : VolumeSpec :=
  { volume with stateRoots := volume.stateRoots.insertionSort fun a b => a.path ≤ b.path }

def combine (orders : MapOrders) (volumes : Table Text VolumeSpec) : Config where
  schema := schema
  volumes := (((orders.declared volumes.keys).filterMap volumes.lookup).map sortRoots).insertionSort
    fun a b => a.mountPath ≤ b.mountPath

/-- `marshal` is the encoding of the standard library. -/
def preparationCohortDeclaration (clean : Text → Text) (marshal : Config → Except String (List ℕ))
    (orders : MapOrders) (retained : Config) (roots : List DeclarationRoot) :
    Except String (List ℕ × List Text) := do
  let volumes := retainedVolumes retained
  let old := oldRoots retained
  let selected ← roots.foldlM (select volumes old) ∅
  let untouched := (orders.roots old.keys).filter fun path => (selected.lookup path).isNone
  let healthyMounts := (untouched.filterMap fun path => (old.lookup path).map Prod.snd).toFinset
  let volumes := (orders.pruned volumes.keys).foldl (prune selected) volumes
  let volumes ← roots.foldlM (place healthyMounts) volumes
  let combined := combine orders volumes
  validate clean combined
  let raw ← marshal combined
  let raw := raw ++ [10]
  if maximumConfigBytes < raw.length then
    throw "cohort combined declaration exceeds runtime byte capacity"
  return (raw, untouched.insertionSort (· ≤ ·))

end Model

section Retained

def pairs (retained : Config) : List (StateRootSpec × Text) :=
  retained.volumes.flatMap fun volume => volume.stateRoots.map fun root => (root, volume.mountPath)

structure DistinctConfig (retained : Config) : Prop where
  mounts : (retained.volumes.map VolumeSpec.mountPath).Nodup
  paths : ((pairs retained).map fun p => p.1.path).Nodup

variable {retained : Config}

lemma lookup_foldl_insert {α : Type} (key : α → Text) (l : List α) (hl : (l.map key).Nodup) (t : Table Text α)
    (k : Text) (a : α) : (l.foldl (fun t b => t.insert (key b) b) t).lookup k = some a ↔
      (a ∈ l ∧ key a = k) ∨ (k ∉ l.map key ∧ t.lookup k = some a) := by
  induction l generalizing t with
  | nil => simp
  | cons b l ih =>
    obtain ⟨hb, hl⟩ := List.nodup_cons.mp hl
    rw [List.foldl_cons, ih hl, Table.lookup_insert_eq]
    by_cases hk : k = key b
    · have hother : a ∈ l → key a ≠ k := by
        rintro ha he
        exact hb (List.mem_map.mpr ⟨a, ha, he.trans hk⟩)
      grind
    · grind

lemma lookup_retainedVolumes (h : DistinctConfig retained) (m : Text) (v : VolumeSpec) :
    (retainedVolumes retained).lookup m = some v ↔ v ∈ retained.volumes ∧ v.mountPath = m := by
  rw [retainedVolumes, lookup_foldl_insert VolumeSpec.mountPath retained.volumes h.mounts]
  simp

lemma oldRoots_eq (retained : Config) :
    oldRoots retained = (pairs retained).foldl (fun old p => old.insert p.1.path p) ∅ := by
  rw [oldRoots, pairs]
  generalize (∅ : Table Text (StateRootSpec × Text)) = t
  induction retained.volumes generalizing t with
  | nil => rfl
  | cons v vs ih => rw [List.foldl_cons, ih, List.flatMap_cons, List.foldl_append, List.foldl_map]

lemma lookup_oldRoots (h : DistinctConfig retained) (path : Text) (p : StateRootSpec × Text) :
    (oldRoots retained).lookup path = some p ↔ p ∈ pairs retained ∧ p.1.path = path := by
  rw [oldRoots_eq, lookup_foldl_insert (fun p : StateRootSpec × Text => p.1.path) _ h.paths]
  simp

end Retained

section Selected

def planned (roots : List DeclarationRoot) : List StateRootSpec := roots.flatMap fun item => item.volume.stateRoots

structure Selected (roots : List DeclarationRoot) (selected : Table Text DeclarationRoot) : Prop where
  single : ∀ item ∈ roots, ∃ root, item.volume.stateRoots = [root] ∧ selected.lookup root.path = some item
  paths : ((planned roots).map StateRootSpec.path).Nodup
  only : ∀ path item, selected.lookup path = some item → item ∈ roots ∧ path ∈ (planned roots).map StateRootSpec.path

variable {volumes : Table Text VolumeSpec} {old : Table Text (StateRootSpec × Text)}
  {selected selected' : Table Text DeclarationRoot} {roots : List DeclarationRoot} {item : DeclarationRoot}

lemma select_ok (h : select volumes old selected item = .ok selected') :
    ∃ root, item.volume.stateRoots = [root] ∧ selected.lookup root.path = none ∧
      selected' = selected.insert root.path item := by
  unfold select at h
  split at h
  · next root hroot =>
    refine ⟨root, hroot, ?_⟩
    split at h
    · cases h
    · next hnone =>
      refine ⟨by simpa using hnone, ?_⟩
      split at h
      · split at h
        · cases h
        · split at h
          · cases h
          · exact (Except.ok.inj h).symm
      · cases h
      · cases h
      · exact (Except.ok.inj h).symm
  · cases h

lemma Selected.concat (hs : Selected roots selected) (h : select volumes old selected item = .ok selected') :
    Selected (roots ++ [item]) selected' := by
  obtain ⟨root, hroot, hnone, rfl⟩ := select_ok h
  have hplanned : planned (roots ++ [item]) = planned roots ++ [root] := by
    rw [planned, List.flatMap_append, List.flatMap_singleton, hroot, planned]
  have hnew : root.path ∉ (planned roots).map StateRootSpec.path := by
    intro hm
    obtain ⟨r, hr, hpath⟩ := List.mem_map.mp hm
    obtain ⟨item', hitem', hr⟩ := List.mem_flatMap.mp hr
    obtain ⟨root', hroot', hlookup⟩ := hs.single item' hitem'
    rw [hroot', List.mem_singleton] at hr
    rw [← hpath, hr, hlookup] at hnone
    cases hnone
  refine ⟨fun item' hitem' => ?_, ?_, fun path item' hlookup => ?_⟩
  · rcases List.mem_append.mp hitem' with hitem' | hitem'
    · obtain ⟨root', hroot', hlookup⟩ := hs.single item' hitem'
      refine ⟨root', hroot', ?_⟩
      rw [Table.lookup_insert_eq, if_neg, hlookup]
      intro he
      rw [he, hnone] at hlookup
      cases hlookup
    · obtain rfl := List.mem_singleton.mp hitem'
      exact ⟨root, hroot, by rw [Table.lookup_insert_eq, if_pos rfl]⟩
  · rw [hplanned, List.map_append]
    refine List.nodup_append.mpr ⟨hs.paths, List.nodup_singleton _, ?_⟩
    rintro p hp _ hq rfl
    rw [List.map_singleton, List.mem_singleton] at hq
    exact hnew (hq ▸ hp)
  · rw [hplanned, List.map_append]
    rw [Table.lookup_insert_eq] at hlookup
    split at hlookup
    · next hpath =>
      obtain rfl := Option.some.inj hlookup
      simp [hpath]
    · obtain ⟨hmem, hp⟩ := hs.only path item' hlookup
      exact ⟨List.mem_append_left _ hmem, List.mem_append_left _ hp⟩

lemma selected_foldlM (hs : Selected roots selected) {more : List DeclarationRoot}
    (h : more.foldlM (select volumes old) selected = .ok selected') : Selected (roots ++ more) selected' := by
  induction more generalizing roots selected with
  | nil =>
    obtain rfl := Except.ok.inj h
    simpa using hs
  | cons item more ih =>
    rw [List.foldlM_cons] at h
    cases hitem : select volumes old selected item with
    | error err =>
      rw [hitem] at h
      cases h
    | ok selected₁ =>
      rw [hitem] at h
      rw [List.append_cons]
      exact ih (hs.concat hitem) h

lemma selected_of_ok (h : roots.foldlM (select volumes old) ∅ = .ok selected) : Selected roots selected := by
  have hempty : Selected [] ∅ := ⟨by simp, List.nodup_nil, by simp⟩
  exact selected_foldlM hempty h

lemma Selected.lookup_none_iff (hs : Selected roots selected) (path : Text) :
    selected.lookup path = none ↔ path ∉ (planned roots).map StateRootSpec.path := by
  constructor
  · intro hnone hm
    obtain ⟨r, hr, rfl⟩ := List.mem_map.mp hm
    obtain ⟨item, hitem, hr⟩ := List.mem_flatMap.mp hr
    obtain ⟨root, hroot, hlookup⟩ := hs.single item hitem
    rw [hroot, List.mem_singleton] at hr
    rw [hr, hlookup] at hnone
    cases hnone
  · intro hm
    cases hlookup : selected.lookup path with
    | none => rfl
    | some item => exact absurd (hs.only path item hlookup).2 hm

end Selected

section Pruned

def remaining (selected : Table Text DeclarationRoot) (volume : VolumeSpec) : List StateRootSpec :=
  volume.stateRoots.filter fun root => (selected.lookup root.path).isNone

def prunedVolume (selected : Table Text DeclarationRoot) (volume : VolumeSpec) : Option VolumeSpec :=
  if remaining selected volume = [] then none else some { volume with stateRoots := remaining selected volume }

variable {selected : Table Text DeclarationRoot}

lemma lookup_prune (volumes : Table Text VolumeSpec) (mount m : Text) :
    (prune selected volumes mount).lookup m =
      if m = mount then (volumes.lookup m).bind (prunedVolume selected) else volumes.lookup m := by
  unfold prune
  split
  · next hnone =>
    split
    · next he => rw [he, hnone, Option.bind_none]
    · rfl
  · next volume hsome =>
    by_cases hm : m = mount
    · subst hm
      rw [if_pos rfl, hsome, Option.bind_some, prunedVolume, remaining]
      dsimp only
      split
      · rw [Table.lookup_erase_eq, if_pos rfl]
      · rw [Table.lookup_insert_eq, if_pos rfl]
    · rw [if_neg hm]
      dsimp only
      split
      · rw [Table.lookup_erase_eq, if_neg hm]
      · rw [Table.lookup_insert_eq, if_neg hm]

lemma lookup_foldl_prune {mounts : List Text} (hmounts : mounts.Nodup) (volumes : Table Text VolumeSpec) (m : Text) :
    (mounts.foldl (prune selected) volumes).lookup m =
      if m ∈ mounts then (volumes.lookup m).bind (prunedVolume selected) else volumes.lookup m := by
  induction mounts generalizing volumes with
  | nil => rfl
  | cons mount mounts ih =>
    obtain ⟨hnot, hmounts⟩ := List.nodup_cons.mp hmounts
    rw [List.foldl_cons, ih hmounts, lookup_prune]
    by_cases hm : m = mount
    · subst hm
      simp [hnot]
    · simp [hm]

lemma lookup_pruned (orders : MapOrders) (volumes : Table Text VolumeSpec) (m : Text) :
    ((orders.pruned volumes.keys).foldl (prune selected) volumes).lookup m =
      (volumes.lookup m).bind (prunedVolume selected) := by
  rw [lookup_foldl_prune ((orders.pruned_perm _).nodup_iff.mpr volumes.keys_nodup)]
  split
  · rfl
  · next hm =>
    rw [(orders.pruned_perm _).mem_iff, Table.mem_keys_iff] at hm
    cases hlookup : volumes.lookup m with
    | none => rfl
    | some v => exact absurd ⟨v, hlookup⟩ hm

end Pruned

section Placed

def record (volume : VolumeSpec) : VolumeSpec := { volume with stateRoots := [] }

def rootsOf (volume : Option VolumeSpec) : List StateRootSpec := volume.elim [] VolumeSpec.stateRoots

def Serves (volume planned : VolumeSpec) : Prop :=
  volume.filesystemUuid = planned.filesystemUuid ∧ volume.filesystemType = planned.filesystemType ∧
    planned.minAvailableBytes ≤ volume.minAvailableBytes ∧ planned.minAvailableInodes ≤ volume.minAvailableInodes

lemma Serves.trans {a b c : VolumeSpec} (h : Serves a b) (h' : Serves b c) : Serves a c :=
  ⟨h.1.trans h'.1, h.2.1.trans h'.2.1, h'.2.2.1.trans h.2.2.1, h'.2.2.2.trans h.2.2.2⟩

variable {healthyMounts : Finset Text} {volumes volumes' : Table Text VolumeSpec} {item : DeclarationRoot}

lemma admitting_ok {volume : VolumeSpec} (h : admitting healthyMounts volumes item = .ok volume) :
    Serves volume item.volume ∧ volume.stateRoots = rootsOf (volumes.lookup item.volume.mountPath) ∧
      (volumes.lookup item.volume.mountPath = none → volume.mountPath = item.volume.mountPath) ∧
      ∀ v, volumes.lookup item.volume.mountPath = some v → volume.mountPath = v.mountPath ∧ Serves volume v ∧
        (item.volume.mountPath ∈ healthyMounts → volume = v) := by
  unfold admitting at h
  cases hlookup : volumes.lookup item.volume.mountPath with
  | none =>
    rw [hlookup] at h
    obtain rfl := Except.ok.inj h
    exact ⟨⟨rfl, rfl, le_rfl, le_rfl⟩, rfl, fun _ => rfl, by rintro _ ⟨⟩⟩
  | some v =>
    rw [hlookup] at h
    dsimp only at h
    split at h
    · cases h
    · next hsame =>
      push Not at hsame
      split at h
      · split at h
        · cases h
        · next hreserve =>
          push Not at hreserve
          obtain rfl := Except.ok.inj h
          refine ⟨⟨hsame.1, hsame.2, hreserve.1, hreserve.2⟩, rfl, by rintro ⟨⟩, ?_⟩
          rintro w ⟨⟩
          exact ⟨rfl, ⟨rfl, rfl, le_rfl, le_rfl⟩, fun _ => rfl⟩
      · next hhealthy =>
        obtain rfl := Except.ok.inj h
        refine ⟨⟨hsame.1, hsame.2, le_max_right _ _, le_max_right _ _⟩, rfl, by rintro ⟨⟩, ?_⟩
        rintro w ⟨⟩
        exact ⟨rfl, ⟨rfl, rfl, le_max_left _ _, le_max_left _ _⟩, fun hm => absurd hm hhealthy⟩

structure Placed (pruned : Text → Option VolumeSpec) (healthyMounts : Finset Text) (items : List DeclarationRoot)
    (volumes : Table Text VolumeSpec) : Prop where
  key : ∀ m v, volumes.lookup m = some v → v.mountPath = m
  roots : ∀ m, rootsOf (volumes.lookup m) =
    rootsOf (pruned m) ++ planned (items.filter fun item => item.volume.mountPath = m)
  healthy : ∀ m ∈ healthyMounts, ∀ v₀, pruned m = some v₀ →
    ∃ v, volumes.lookup m = some v ∧ record v = record v₀
  serves : ∀ item ∈ items, ∃ v, volumes.lookup item.volume.mountPath = some v ∧ Serves v item.volume

lemma Placed.place {pruned : Text → Option VolumeSpec} {items : List DeclarationRoot}
    (hp : Placed pruned healthyMounts items volumes) {root : StateRootSpec} (hroot : item.volume.stateRoots = [root])
    (h : place healthyMounts volumes item = .ok volumes') : Placed pruned healthyMounts (items ++ [item]) volumes' := by
  unfold Declaration.place at h
  cases hadmits : admitting healthyMounts volumes item with
  | error err =>
    rw [hadmits] at h
    cases h
  | ok volume =>
    obtain ⟨hserves, hroots, hnone, hsome⟩ := admitting_ok hadmits
    have hmount : volume.mountPath = item.volume.mountPath := by
      cases hlookup : volumes.lookup item.volume.mountPath with
      | none => exact hnone hlookup
      | some v => exact (hsome v hlookup).1.trans (hp.key _ v hlookup)
    rw [hadmits, hroot] at h
    have hinsert : volumes' = volumes.insert item.volume.mountPath
        { volume with stateRoots := volume.stateRoots ++ [root] } := by
      rw [← hmount]
      exact (Except.ok.inj h).symm
    subst hinsert
    refine ⟨fun m v hv => ?_, fun m => ?_, fun m hm v₀ hv₀ => ?_, fun item' hitem' => ?_⟩
    · rw [Table.lookup_insert_eq] at hv
      split at hv
      · next he =>
        obtain rfl := Option.some.inj hv
        exact hmount.trans he.symm
      · exact hp.key m v hv
    · rw [Table.lookup_insert_eq, List.filter_append]
      by_cases he : m = item.volume.mountPath
      · subst he
        rw [if_pos rfl, List.filter_singleton]
        simp only [planned, decide_true, cond_true, List.flatMap_append, List.flatMap_singleton, hroot]
        rw [← List.append_assoc, ← planned, ← hp.roots, ← hroots]
        rfl
      · rw [if_neg he, hp.roots, List.filter_singleton]
        simp [Ne.symm he]
    · obtain ⟨v, hv, heq⟩ := hp.healthy m hm v₀ hv₀
      rw [Table.lookup_insert_eq]
      by_cases he : m = item.volume.mountPath
      · subst he
        obtain rfl := (hsome v hv).2.2 hm
        rw [if_pos rfl]
        exact ⟨_, rfl, heq⟩
      · rw [if_neg he]
        exact ⟨v, hv, heq⟩
    · rw [Table.lookup_insert_eq]
      rcases List.mem_append.mp hitem' with hitem' | hitem'
      · obtain ⟨v, hv, hs⟩ := hp.serves item' hitem'
        by_cases he : item'.volume.mountPath = item.volume.mountPath
        · rw [if_pos he]
          rw [he] at hv
          have hs' := (hsome v hv).2.1.trans hs
          exact ⟨_, rfl, hs'⟩
        · rw [if_neg he]
          exact ⟨v, hv, hs⟩
      · obtain rfl := List.mem_singleton.mp hitem'
        rw [if_pos rfl]
        exact ⟨_, rfl, hserves⟩

lemma placed_foldlM {pruned : Text → Option VolumeSpec} {items more : List DeclarationRoot}
    (hp : Placed pruned healthyMounts items volumes)
    (hsingle : ∀ item ∈ more, ∃ root, item.volume.stateRoots = [root])
    (h : more.foldlM (place healthyMounts) volumes = .ok volumes') :
    Placed pruned healthyMounts (items ++ more) volumes' := by
  induction more generalizing items volumes with
  | nil =>
    obtain rfl := Except.ok.inj h
    simpa using hp
  | cons item more ih =>
    obtain ⟨⟨root, hroot⟩, hmore⟩ := List.forall_mem_cons.mp hsingle
    rw [List.foldlM_cons] at h
    cases hitem : place healthyMounts volumes item with
    | error err =>
      rw [hitem] at h
      cases h
    | ok volumes₁ =>
      rw [hitem] at h
      rw [List.append_cons]
      exact ih (hp.place hroot hitem) hmore h

end Placed

section Orders

instance : Std.Total fun a b : VolumeSpec => a.mountPath ≤ b.mountPath := ⟨fun a b => le_total a.mountPath b.mountPath⟩

instance : IsTrans VolumeSpec fun a b => a.mountPath ≤ b.mountPath := ⟨fun _ _ _ => le_trans⟩

lemma mem_combine (orders : MapOrders) (volumes : Table Text VolumeSpec) (v' : VolumeSpec) :
    v' ∈ (combine orders volumes).volumes ↔ ∃ m v, volumes.lookup m = some v ∧ sortRoots v = v' := by
  rw [combine, List.mem_insertionSort, List.mem_map]
  constructor
  · rintro ⟨v, hv, rfl⟩
    obtain ⟨m, -, hm⟩ := List.mem_filterMap.mp hv
    exact ⟨m, v, hm, rfl⟩
  · rintro ⟨m, v, hm, rfl⟩
    refine ⟨v, List.mem_filterMap.mpr ⟨m, ?_, hm⟩, rfl⟩
    rw [(orders.declared_perm _).mem_iff]
    exact Table.mem_keys_iff.mpr ⟨v, hm⟩

lemma keys_perm {α : Type} {t t' : Table Text α} (ht : ∀ k, t.lookup k = t'.lookup k) : t.keys.Perm t'.keys := by
  refine (List.perm_ext_iff_of_nodup t.keys_nodup t'.keys_nodup).mpr fun k => ?_
  rw [Table.mem_keys_iff, Table.mem_keys_iff, ht]

lemma combine_congr (orders orders' : MapOrders) {t t' : Table Text VolumeSpec} (ht : ∀ k, t.lookup k = t'.lookup k)
    (hkey : ∀ m v, t.lookup m = some v → v.mountPath = m) : combine orders t = combine orders' t' := by
  have hlookup : t.lookup = t'.lookup := funext ht
  refine congrArg (Config.mk schema) (List.Perm.eq_of_pairwise ?_ (List.pairwise_insertionSort _ _)
    (List.pairwise_insertionSort _ _) ?_)
  · intro a b ha hb hab hba
    obtain ⟨m, v, hv, rfl⟩ := (mem_combine orders t a).mp ha
    obtain ⟨m', v', hv', rfl⟩ := (mem_combine orders' t' b).mp hb
    rw [← ht] at hv'
    have hm : v.mountPath = v'.mountPath := le_antisymm hab hba
    rw [hkey m v hv, hkey m' v' hv'] at hm
    subst hm
    rw [Option.some.inj (hv.symm.trans hv')]
  · refine (List.perm_insertionSort _ _).trans (List.Perm.trans ?_ (List.perm_insertionSort _ _).symm)
    rw [hlookup]
    refine (List.Perm.filterMap _ ?_).map _
    exact (orders.declared_perm _).trans ((keys_perm ht).trans (orders'.declared_perm _).symm)

def Alike (a b : Except String (Table Text VolumeSpec)) : Prop :=
  (∃ err, a = .error err ∧ b = .error err) ∨ ∃ t t', a = .ok t ∧ b = .ok t' ∧ ∀ k, t.lookup k = t'.lookup k

lemma place_alike {healthyMounts : Finset Text} {t t' : Table Text VolumeSpec} (ht : ∀ k, t.lookup k = t'.lookup k)
    (item : DeclarationRoot) : Alike (place healthyMounts t item) (place healthyMounts t' item) := by
  have hadmits : admitting healthyMounts t item = admitting healthyMounts t' item := by
    unfold admitting
    rw [ht]
  unfold place
  rw [hadmits]
  cases admitting healthyMounts t' item with
  | error err => exact Or.inl ⟨err, rfl, rfl⟩
  | ok volume =>
    cases item.volume.stateRoots with
    | nil => exact Or.inl ⟨_, rfl, rfl⟩
    | cons root rest =>
      refine Or.inr ⟨_, _, rfl, rfl, fun k => ?_⟩
      rw [Table.lookup_insert_eq, Table.lookup_insert_eq, ht]

lemma foldlM_place_alike (healthyMounts : Finset Text) (roots : List DeclarationRoot)
    {t t' : Table Text VolumeSpec} (ht : ∀ k, t.lookup k = t'.lookup k) :
    Alike (roots.foldlM (place healthyMounts) t) (roots.foldlM (place healthyMounts) t') := by
  induction roots generalizing t t' with
  | nil => exact Or.inr ⟨t, t', rfl, rfl, ht⟩
  | cons item roots ih =>
    rw [List.foldlM_cons, List.foldlM_cons]
    rcases place_alike ht item with ⟨err, he, he'⟩ | ⟨t₁, t₁', he, he', ht₁⟩
    · rw [he, he']
      exact Or.inl ⟨err, rfl, rfl⟩
    · rw [he, he']
      exact ih ht₁

end Orders

section Preserved

variable {retained : Config} {roots : List DeclarationRoot} {selected : Table Text DeclarationRoot}

lemma mem_pairs {r : StateRootSpec} {m : Text} :
    (r, m) ∈ pairs retained ↔ ∃ v ∈ retained.volumes, r ∈ v.stateRoots ∧ v.mountPath = m := by
  simp [pairs]

lemma rootsOf_pruned (v : Option VolumeSpec) :
    rootsOf (v.bind (prunedVolume selected)) = v.elim [] (remaining selected) := by
  cases v with
  | none => rfl
  | some v =>
    rw [Option.bind_some, prunedVolume]
    split
    · next h => exact h.symm
    · rfl

def prunedAt (retained : Config) (selected : Table Text DeclarationRoot) (m : Text) : Option VolumeSpec :=
  ((retainedVolumes retained).lookup m).bind (prunedVolume selected)

lemma mem_prunedAt (h : DistinctConfig retained) (hs : Selected roots selected) {r : StateRootSpec} {m : Text} :
    r ∈ rootsOf (prunedAt retained selected m) ↔
      (r, m) ∈ pairs retained ∧ r.path ∉ (planned roots).map StateRootSpec.path := by
  rw [prunedAt, rootsOf_pruned, mem_pairs, ← hs.lookup_none_iff]
  cases hlookup : (retainedVolumes retained).lookup m with
  | none =>
    refine iff_of_false List.not_mem_nil ?_
    rintro ⟨⟨v, hv, -, hm⟩, -⟩
    rw [(lookup_retainedVolumes h m v).mpr ⟨hv, hm⟩] at hlookup
    cases hlookup
  | some v =>
    obtain ⟨hv, hm⟩ := (lookup_retainedVolumes h m v).mp hlookup
    rw [Option.elim_some, remaining, List.mem_filter, Option.isNone_iff_eq_none]
    refine and_congr_left fun _ => ⟨fun hr => ⟨v, hv, hr, hm⟩, ?_⟩
    rintro ⟨v', hv', hr, hm'⟩
    rw [List.inj_on_of_nodup_map h.mounts hv hv' (hm.trans hm'.symm)]
    exact hr

structure Preserves (retained : Config) (roots : List DeclarationRoot) (combined : Config) : Prop where
  once : ((combined.volumes.flatMap VolumeSpec.stateRoots).map StateRootSpec.path).Nodup
  declared : ∀ r, r ∈ combined.volumes.flatMap VolumeSpec.stateRoots ↔
    ((∃ m, (r, m) ∈ pairs retained) ∧ r.path ∉ (planned roots).map StateRootSpec.path) ∨ r ∈ planned roots
  untouched : ∀ v ∈ retained.volumes, ∀ r ∈ v.stateRoots, r.path ∉ (planned roots).map StateRootSpec.path →
    ∃ v' ∈ combined.volumes, r ∈ v'.stateRoots ∧ record v' = record v
  placed : ∀ item ∈ roots, ∃ root, item.volume.stateRoots = [root] ∧ ∃ v' ∈ combined.volumes,
    v'.mountPath = item.volume.mountPath ∧ root ∈ v'.stateRoots ∧ Serves v' item.volume

variable {healthyMounts : Finset Text} {volumes : Table Text VolumeSpec}

lemma mem_placed (h : DistinctConfig retained) (hs : Selected roots selected)
    (hp : Placed (prunedAt retained selected) healthyMounts roots volumes) {r : StateRootSpec} {m : Text} :
    r ∈ rootsOf (volumes.lookup m) ↔
      ((r, m) ∈ pairs retained ∧ r.path ∉ (planned roots).map StateRootSpec.path) ∨
        ∃ item ∈ roots, item.volume.mountPath = m ∧ r ∈ item.volume.stateRoots := by
  rw [hp.roots, List.mem_append, mem_prunedAt h hs]
  refine or_congr_right ?_
  rw [planned, List.mem_flatMap]
  simp only [List.mem_filter, decide_eq_true_eq, and_assoc]

lemma mount_unique (h : DistinctConfig retained) (hs : Selected roots selected)
    (hp : Placed (prunedAt retained selected) healthyMounts roots volumes) {r r' : StateRootSpec} {m m' : Text}
    (hr : r ∈ rootsOf (volumes.lookup m)) (hr' : r' ∈ rootsOf (volumes.lookup m')) (he : r.path = r'.path) :
    m = m' := by
  have hmem : ∀ item ∈ roots, ∀ r ∈ item.volume.stateRoots, selected.lookup r.path = some item := by
    intro item hitem r hr
    obtain ⟨root, hroot, hlookup⟩ := hs.single item hitem
    rw [hroot, List.mem_singleton] at hr
    rw [hr, hlookup]
  have hplanned : ∀ item ∈ roots, ∀ r ∈ item.volume.stateRoots, r.path ∈ (planned roots).map StateRootSpec.path :=
    fun item hitem r hr => List.mem_map.mpr ⟨r, List.mem_flatMap.mpr ⟨item, hitem, hr⟩, rfl⟩
  rcases (mem_placed h hs hp).mp hr with ⟨hpair, hnot⟩ | ⟨item, hitem, hmount, hr⟩
  · rcases (mem_placed h hs hp).mp hr' with ⟨hpair', -⟩ | ⟨item', hitem', -, hr'⟩
    · exact congrArg Prod.snd (List.inj_on_of_nodup_map h.paths hpair hpair' he)
    · exact absurd (he ▸ hplanned item' hitem' r' hr') hnot
  · rcases (mem_placed h hs hp).mp hr' with ⟨-, hnot'⟩ | ⟨item', hitem', hmount', hr'⟩
    · exact absurd (he ▸ hplanned item hitem r hr) hnot'
    · have hsome := hmem item hitem r hr
      rw [he, hmem item' hitem' r' hr'] at hsome
      rw [← hmount, ← hmount', Option.some.inj hsome]

lemma nodup_rootsOf (h : DistinctConfig retained) (hs : Selected roots selected)
    (hp : Placed (prunedAt retained selected) healthyMounts roots volumes) (m : Text) :
    ((rootsOf (volumes.lookup m)).map StateRootSpec.path).Nodup := by
  rw [hp.roots, List.map_append]
  refine List.nodup_append.mpr ⟨?_, ?_, ?_⟩
  · rw [prunedAt, rootsOf_pruned]
    cases hlookup : (retainedVolumes retained).lookup m with
    | none => exact List.nodup_nil
    | some v =>
      obtain ⟨hv, -⟩ := (lookup_retainedVolumes h m v).mp hlookup
      have hpaths := h.paths
      rw [pairs, List.map_flatMap, List.nodup_flatMap] at hpaths
      have hvolume := hpaths.1 v hv
      rw [List.map_map] at hvolume
      exact hvolume.sublist (List.Sublist.map _ List.filter_sublist)
  · have hsub : (planned (roots.filter fun item => item.volume.mountPath = m)).Sublist (planned roots) :=
      List.filter_sublist.flatMap _
    exact hs.paths.sublist (hsub.map _)
  · rintro p hp' q hq rfl
    obtain ⟨r, hr, rfl⟩ := List.mem_map.mp hp'
    refine ((mem_prunedAt h hs).mp hr).2 ?_
    obtain ⟨r', hr', he⟩ := List.mem_map.mp hq
    obtain ⟨item, hitem, hr'⟩ := List.mem_flatMap.mp hr'
    exact List.mem_map.mpr ⟨r', List.mem_flatMap.mpr ⟨item, (List.mem_filter.mp hitem).1, hr'⟩, he⟩

lemma mem_sortRoots {v : VolumeSpec} {r : StateRootSpec} : r ∈ (sortRoots v).stateRoots ↔ r ∈ v.stateRoots :=
  List.mem_insertionSort _

def Healthy (retained : Config) (roots : List DeclarationRoot) (healthyMounts : Finset Text) : Prop :=
  ∀ r m, (r, m) ∈ pairs retained → r.path ∉ (planned roots).map StateRootSpec.path → m ∈ healthyMounts

lemma preserves_combine (orders : MapOrders) (h : DistinctConfig retained) (hs : Selected roots selected)
    (hhealthy : Healthy retained roots healthyMounts)
    (hp : Placed (prunedAt retained selected) healthyMounts roots volumes) :
    Preserves retained roots (combine orders volumes) := by
  have hmem : ∀ r, r ∈ (combine orders volumes).volumes.flatMap VolumeSpec.stateRoots ↔
      ∃ m, r ∈ rootsOf (volumes.lookup m) := by
    intro r
    rw [List.mem_flatMap]
    constructor
    · rintro ⟨v', hv', hr⟩
      obtain ⟨m, v, hv, rfl⟩ := (mem_combine orders volumes v').mp hv'
      refine ⟨m, ?_⟩
      rw [hv]
      exact mem_sortRoots.mp hr
    · rintro ⟨m, hr⟩
      cases hv : volumes.lookup m with
      | none =>
        rw [hv] at hr
        exact absurd hr List.not_mem_nil
      | some v =>
        rw [hv] at hr
        exact ⟨sortRoots v, (mem_combine orders volumes _).mpr ⟨m, v, hv, rfl⟩, mem_sortRoots.mpr hr⟩
  refine ⟨?_, fun r => ?_, fun v hv r hr hnot => ?_, fun item hitem => ?_⟩
  · have hperm : ((combine orders volumes).volumes.flatMap VolumeSpec.stateRoots).Perm
        ((((orders.declared volumes.keys).filterMap volumes.lookup).map sortRoots).flatMap VolumeSpec.stateRoots) :=
      (List.perm_insertionSort _ _).flatMap_right _
    have hkeys := (orders.declared_perm volumes.keys).nodup_iff.mpr volumes.keys_nodup
    rw [(hperm.map _).nodup_iff, List.flatMap_map, List.map_flatMap, List.nodup_flatMap]
    refine ⟨fun v hv => ?_, ?_⟩
    · obtain ⟨m, -, hm⟩ := List.mem_filterMap.mp hv
      have hnodup := nodup_rootsOf h hs hp m
      rw [hm] at hnodup
      exact ((List.perm_insertionSort _ v.stateRoots).map _).nodup_iff.mpr hnodup
    · rw [List.pairwise_filterMap]
      refine hkeys.imp fun {m m'} hne v hv v' hv' p hp₁ hp₂ => hne ?_
      obtain ⟨r, hr, rfl⟩ := List.mem_map.mp hp₁
      obtain ⟨r', hr', he⟩ := List.mem_map.mp hp₂
      refine mount_unique h hs hp (?_ : r ∈ _) (?_ : r' ∈ _) he.symm
      · rw [hv]
        exact mem_sortRoots.mp hr
      · rw [hv']
        exact mem_sortRoots.mp hr'
  · rw [hmem]
    constructor
    · rintro ⟨m, hr⟩
      rcases (mem_placed h hs hp).mp hr with ⟨hpair, hnot⟩ | ⟨item, hitem, -, hr⟩
      · exact Or.inl ⟨⟨m, hpair⟩, hnot⟩
      · exact Or.inr (List.mem_flatMap.mpr ⟨item, hitem, hr⟩)
    · rintro (⟨⟨m, hpair⟩, hnot⟩ | hr)
      · exact ⟨m, (mem_placed h hs hp).mpr (Or.inl ⟨hpair, hnot⟩)⟩
      · obtain ⟨item, hitem, hr⟩ := List.mem_flatMap.mp hr
        exact ⟨_, (mem_placed h hs hp).mpr (Or.inr ⟨item, hitem, rfl, hr⟩)⟩
  · have hpair : (r, v.mountPath) ∈ pairs retained := mem_pairs.mpr ⟨v, hv, hr, rfl⟩
    have hpruned := (mem_prunedAt h hs).mpr ⟨hpair, hnot⟩
    have hlookup := (lookup_retainedVolumes h v.mountPath v).mpr ⟨hv, rfl⟩
    have hsome : prunedAt retained selected v.mountPath = some { v with stateRoots := remaining selected v } := by
      rw [prunedAt, rootsOf_pruned, hlookup, Option.elim_some] at hpruned
      rw [prunedAt, hlookup, Option.bind_some, prunedVolume, if_neg (List.ne_nil_of_mem hpruned)]
    obtain ⟨v', hv', hrecord⟩ := hp.healthy _ (hhealthy r _ hpair hnot) _ hsome
    have hin := (mem_placed h hs hp).mpr (Or.inl ⟨hpair, hnot⟩)
    rw [hv'] at hin
    exact ⟨sortRoots v', (mem_combine orders volumes _).mpr ⟨_, v', hv', rfl⟩, mem_sortRoots.mpr hin, hrecord⟩
  · obtain ⟨root, hroot, -⟩ := hs.single item hitem
    obtain ⟨v', hv', hserves⟩ := hp.serves item hitem
    have hr : root ∈ item.volume.stateRoots := hroot ▸ List.mem_singleton_self root
    have hin := (mem_placed h hs hp).mpr (Or.inr ⟨item, hitem, rfl, hr⟩)
    rw [hv'] at hin
    exact ⟨root, hroot, sortRoots v', (mem_combine orders volumes _).mpr ⟨_, v', hv', rfl⟩, hp.key _ v' hv',
      mem_sortRoots.mpr hin, hserves⟩

end Preserved

section Result

variable {clean : Text → Text} {marshal : Config → Except String (List ℕ)} {retained : Config}
  {roots : List DeclarationRoot}

def untouchedPaths (orders : MapOrders) (retained : Config) (selected : Table Text DeclarationRoot) : List Text :=
  (orders.roots (oldRoots retained).keys).filter fun path => (selected.lookup path).isNone

def healthyMounts (orders : MapOrders) (retained : Config) (selected : Table Text DeclarationRoot) : Finset Text :=
  ((untouchedPaths orders retained selected).filterMap fun path => ((oldRoots retained).lookup path).map Prod.snd).toFinset

def prunedTable (orders : MapOrders) (retained : Config) (selected : Table Text DeclarationRoot) :
    Table Text VolumeSpec :=
  (orders.pruned (retainedVolumes retained).keys).foldl (prune selected) (retainedVolumes retained)

def declare (clean : Text → Text) (marshal : Config → Except String (List ℕ)) (combined : Config)
    (untouched : List Text) : Except String (List ℕ × List Text) := do
  validate clean combined
  let raw ← marshal combined
  let raw := raw ++ [10]
  if maximumConfigBytes < raw.length then
    throw "cohort combined declaration exceeds runtime byte capacity"
  return (raw, untouched.insertionSort (· ≤ ·))

lemma declaration_eq (orders : MapOrders) : preparationCohortDeclaration clean marshal orders retained roots = (do
    let selected ← roots.foldlM (select (retainedVolumes retained) (oldRoots retained)) ∅
    let volumes ← roots.foldlM (place (healthyMounts orders retained selected)) (prunedTable orders retained selected)
    declare clean marshal (combine orders volumes) (untouchedPaths orders retained selected)) := rfl

lemma declare_ok {combined : Config} {untouched : List Text} {raw : List ℕ} {paths : List Text}
    (h : declare clean marshal combined untouched = .ok (raw, paths)) :
    paths = untouched.insertionSort (· ≤ ·) ∧ ∃ encoded, marshal combined = .ok encoded ∧ raw = encoded ++ [10] := by
  unfold declare at h
  cases hv : validate clean combined with
  | error err =>
    rw [hv] at h
    cases h
  | ok u =>
    cases hm : marshal combined with
    | error err =>
      rw [hv, hm] at h
      cases h
    | ok encoded =>
      rw [hv, hm] at h
      simp only [bind, Except.bind, pure, Except.pure] at h
      split at h
      · cases h
      · have he := Except.ok.inj h
        exact ⟨(congrArg Prod.snd he).symm, encoded, rfl, (congrArg Prod.fst he).symm⟩

lemma perm_untouchedPaths (orders : MapOrders) (h : DistinctConfig retained) {selected : Table Text DeclarationRoot}
    (hs : Selected roots selected) : (untouchedPaths orders retained selected).Perm
      (((pairs retained).map fun p => p.1.path).filter fun path => path ∉ (planned roots).map StateRootSpec.path) := by
  have hkeys : (oldRoots retained).keys.Perm ((pairs retained).map fun p => p.1.path) := by
    refine (List.perm_ext_iff_of_nodup (oldRoots retained).keys_nodup h.paths).mpr fun k => ?_
    rw [Table.mem_keys_iff, List.mem_map]
    exact exists_congr fun p => lookup_oldRoots h k p
  refine (((orders.roots_perm _).trans hkeys).filter _).trans (List.Perm.of_eq (List.filter_congr fun path _ => ?_))
  rw [Bool.eq_iff_iff, Option.isNone_iff_eq_none, hs.lookup_none_iff, decide_eq_true_eq]

lemma healthy_healthyMounts (orders : MapOrders) (h : DistinctConfig retained) {selected : Table Text DeclarationRoot}
    (hs : Selected roots selected) : Healthy retained roots (healthyMounts orders retained selected) := by
  intro r m hpair hnot
  rw [healthyMounts, List.mem_toFinset, List.mem_filterMap]
  refine ⟨r.path, ?_, ?_⟩
  · rw [(perm_untouchedPaths orders h hs).mem_iff, List.mem_filter]
    exact ⟨List.mem_map.mpr ⟨(r, m), hpair, rfl⟩, decide_eq_true hnot⟩
  · rw [(lookup_oldRoots h r.path (r, m)).mpr ⟨hpair, rfl⟩, Option.map_some]

lemma placed_pruned (orders : MapOrders) (h : DistinctConfig retained) (selected : Table Text DeclarationRoot)
    (healthy : Finset Text) :
    Placed (prunedAt retained selected) healthy [] (prunedTable orders retained selected) := by
  have hlookup : ∀ m, (prunedTable orders retained selected).lookup m = prunedAt retained selected m :=
    lookup_pruned orders (retainedVolumes retained)
  refine ⟨fun m v hv => ?_, fun m => ?_, fun m _ v₀ hv₀ => ?_, by simp⟩
  · rw [hlookup, prunedAt] at hv
    obtain ⟨w, hw, hv⟩ := Option.bind_eq_some_iff.mp hv
    unfold prunedVolume at hv
    split at hv
    · cases hv
    · obtain rfl := Option.some.inj hv
      exact ((lookup_retainedVolumes h m w).mp hw).2
  · rw [hlookup]
    simp [planned]
  · exact ⟨v₀, (hlookup m).trans hv₀, rfl⟩

lemma declaration_orders (h : DistinctConfig retained) (orders orders' : MapOrders) :
    preparationCohortDeclaration clean marshal orders retained roots =
      preparationCohortDeclaration clean marshal orders' retained roots := by
  rw [declaration_eq, declaration_eq]
  cases hselect : roots.foldlM (select (retainedVolumes retained) (oldRoots retained)) ∅ with
  | error err => rfl
  | ok selected =>
    have hs := selected_of_ok hselect
    have huntouched := (perm_untouchedPaths orders h hs).trans (perm_untouchedPaths orders' h hs).symm
    have hhealthy : healthyMounts orders retained selected = healthyMounts orders' retained selected :=
      List.toFinset_eq_of_perm _ _ (huntouched.filterMap _)
    have hlookup : ∀ k, (prunedTable orders retained selected).lookup k =
        (prunedTable orders' retained selected).lookup k := fun k =>
      (lookup_pruned orders (retainedVolumes retained) k).trans (lookup_pruned orders' (retainedVolumes retained) k).symm
    simp only [bind, Except.bind, hhealthy]
    rcases foldlM_place_alike (healthyMounts orders' retained selected) roots hlookup with
      ⟨err, he, he'⟩ | ⟨t, t', he, he', ht⟩
    · rw [he, he']
    · have hp := placed_foldlM (placed_pruned orders h selected _)
        (fun item hitem => (hs.single item hitem).imp fun _ hr => hr.1) he
      have hsort : (untouchedPaths orders retained selected).insertionSort (· ≤ ·) =
          (untouchedPaths orders' retained selected).insertionSort (· ≤ ·) := by
        refine List.Perm.eq_of_pairwise (fun _ _ _ _ => le_antisymm) (List.pairwise_insertionSort _ _)
          (List.pairwise_insertionSort _ _) ?_
        exact (List.perm_insertionSort _ _).trans (huntouched.trans (List.perm_insertionSort _ _).symm)
      rw [he, he']
      simp only [declare, combine_congr orders orders' ht hp.key, hsort]

/-- A combined declaration keeps the roots that are not selected as they are, takes the planned ones
as they are planned, and is the same for every order of the maps. -/
theorem cohort_declaration_preserves (clean : Text → Text) (marshal : Config → Except String (List ℕ))
    (orders : MapOrders) (retained : Config) (roots : List DeclarationRoot) (raw : List ℕ) (paths : List Text)
    (hretained : DistinctConfig retained)
    (h : preparationCohortDeclaration clean marshal orders retained roots = .ok (raw, paths)) :
    (∃ combined encoded, marshal combined = .ok encoded ∧ raw = encoded ++ [10] ∧ Preserves retained roots combined) ∧
      paths.Pairwise (· ≤ ·) ∧
      paths.Perm (((pairs retained).map fun p => p.1.path).filter fun path =>
        path ∉ (planned roots).map StateRootSpec.path) ∧
      ∀ orders', preparationCohortDeclaration clean marshal orders' retained roots = .ok (raw, paths) := by
  have horders := fun orders' => (declaration_orders hretained orders' orders).trans h
  rw [declaration_eq] at h
  cases hselect : roots.foldlM (select (retainedVolumes retained) (oldRoots retained)) ∅ with
  | error err =>
    rw [hselect] at h
    cases h
  | ok selected =>
    rw [hselect] at h
    simp only [bind, Except.bind] at h
    cases hplace : roots.foldlM (place (healthyMounts orders retained selected))
        (prunedTable orders retained selected) with
    | error err =>
      rw [hplace] at h
      cases h
    | ok volumes =>
      rw [hplace] at h
      obtain ⟨rfl, encoded, hencoded, hraw⟩ := declare_ok h
      have hs := selected_of_ok hselect
      have hp := placed_foldlM (placed_pruned orders hretained selected _)
        (fun item hitem => (hs.single item hitem).imp fun _ hr => hr.1) hplace
      refine ⟨⟨_, encoded, hencoded, hraw, ?_⟩, List.pairwise_insertionSort _ _, ?_, horders⟩
      · exact preserves_combine orders hretained hs (healthy_healthyMounts orders hretained hs) hp
      · exact (List.perm_insertionSort _ _).trans (perm_untouchedPaths orders hretained hs)

def MapOrders.insertion : MapOrders := ⟨id, id, id, .refl, .refl, .refl⟩

def sampleVolume (mount : Text) : VolumeSpec where
  mountPath := mount
  filesystemUuid := "0000-0001".toList
  filesystemType := "ext4".toList
  markerPath := mount ++ "/marker".toList
  markerSha256 := "sha256:".toList ++ List.replicate 64 'f'
  stateRoots := [⟨mount ++ "/root".toList, mount ++ "/lease".toList, "sha256:".toList ++ List.replicate 64 'f', 7,
    "sha256:".toList ++ List.replicate 64 'f'⟩]
  minAvailableBytes := 1
  minAvailableInodes := 1

theorem cohort_declaration_preserves_sample :
    ∃ combined, Preserves ⟨schema, [sampleVolume "/a".toList]⟩ [⟨sampleVolume "/b".toList, none⟩] combined := by
  obtain ⟨⟨combined, -, -, -, h⟩, -⟩ := cohort_declaration_preserves id (fun _ => .ok []) MapOrders.insertion
    ⟨schema, [sampleVolume "/a".toList]⟩ [⟨sampleVolume "/b".toList, none⟩] [10] ["/a/root".toList]
    ⟨by decide, by decide⟩ (by decide +kernel)
  exact ⟨combined, h⟩

end Result

end UrConnect.DurableVolume.Declaration
