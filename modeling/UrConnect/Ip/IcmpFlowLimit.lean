import Mathlib
import UrConnect.Lib.Runs
import UrConnect.Lib.Table

/-! The caps on the ICMP flows of a NAT, which its buffers share through one tracker. -/

namespace UrConnect.Ip.IcmpFlowLimit

open UrConnect.Lib

/-- A sequence is known by its place among the sequences of the NAT, as by its address. -/
structure IcmpSequence (σ : Type) where
  place : ℕ
  source : σ
deriving DecidableEq

structure IcmpFlowTracker (σ : Type) where
  total : ℤ
  perSource : Table σ ℤ
  order : Table (IcmpSequence σ) ℕ
  nextOrder : ℕ

structure Scan (σ : Type) where
  visit : List (IcmpSequence σ) → List (IcmpSequence σ)
  perm : ∀ l, (visit l).Perm l
  lastActivity : IcmpSequence σ → ℤ

structure Settings where
  userLimit : ℤ
  globalLimit : ℤ

variable {σ ι : Type} [DecidableEq σ]

namespace IcmpFlowTracker

def new : IcmpFlowTracker σ := ⟨0, ∅, ∅, 0⟩

def perSourceCount (t : IcmpFlowTracker σ) (s : σ) : ℤ := (t.perSource.lookup s).getD 0

def orderOf (t : IcmpFlowTracker σ) (f : IcmpSequence σ) : ℕ := (t.order.lookup f).getD 0

def keepOldest (t : IcmpFlowTracker σ) (scan : Scan σ) (evicted : List (IcmpSequence σ)) (ok : IcmpSequence σ → Bool)
    (oldest : Option (IcmpSequence σ × ℤ)) (f : IcmpSequence σ) : Option (IcmpSequence σ × ℤ) :=
  if f ∈ evicted then oldest
  else if !ok f then oldest
  else
    let at_ := scan.lastActivity f
    match oldest with
    | none => some (f, at_)
    | some (o, oldestTime) =>
      if at_ < oldestTime ∨ (at_ = oldestTime ∧ t.orderOf f < t.orderOf o) then some (f, at_) else some (o, oldestTime)

def pick (t : IcmpFlowTracker σ) (scan : Scan σ) (evicted : List (IcmpSequence σ)) (ok : IcmpSequence σ → Bool) :
    Option (IcmpSequence σ) :=
  ((scan.visit t.order.keys).foldl (t.keepOldest scan evicted ok) none).map Prod.fst

def drop (t : IcmpFlowTracker σ) (f : IcmpSequence σ) : IcmpFlowTracker σ :=
  let count := t.perSourceCount f.source - 1
  { t with
    order := t.order.erase f
    perSource := if count = 0 then t.perSource.erase f.source else t.perSource.insert f.source count
    total := t.total - 1 }

/-- One of the loops of `evictFor`: it evicts while `size` has reached the limit. The result has the victims so far
and the number of scans made. -/
def evictLoop (limit : ℤ) (size : IcmpFlowTracker σ → ℤ) (ok : IcmpSequence σ → Bool) (scans : ℕ → Scan σ) :
    ℕ → ℕ → List (IcmpSequence σ) → IcmpFlowTracker σ → Option (IcmpFlowTracker σ × List (IcmpSequence σ) × ℕ)
  | 0, _, _, _ => none
  | fuel + 1, n, victims, t =>
    if 0 < limit ∧ limit ≤ size t then
      match t.pick (scans n) victims ok with
      | none => some (t, victims, n + 1)
      | some victim => evictLoop limit size ok scans fuel (n + 1) (victims ++ [victim]) (t.drop victim)
    else some (t, victims, n)

def evictFor (t : IcmpFlowTracker σ) (s : σ) (settings : Settings) (scans : ℕ → Scan σ) :
    Option (IcmpFlowTracker σ × List (IcmpSequence σ)) := do
  let fuel := t.order.keys.length + 1
  let (t, victims, n) ← evictLoop settings.userLimit (fun t => t.perSourceCount s) (fun f => decide (f.source = s))
    scans fuel 0 [] t
  let (t, victims, _) ← evictLoop settings.globalLimit IcmpFlowTracker.total (fun _ => true) scans fuel n victims t
  some (t, victims)

def register (t : IcmpFlowTracker σ) (f : IcmpSequence σ) (settings : Settings) (scans : ℕ → Scan σ) :
    Option (IcmpFlowTracker σ × List (IcmpSequence σ)) := do
  let (t, victims) ← t.evictFor f.source settings scans
  some ({ t with
    perSource := t.perSource.insert f.source (t.perSourceCount f.source + 1)
    total := t.total + 1
    nextOrder := t.nextOrder + 1
    order := t.order.insert f (t.nextOrder + 1) }, victims)

def release (t : IcmpFlowTracker σ) (f : IcmpSequence σ) : IcmpFlowTracker σ :=
  match t.order.lookup f with
  | none => t
  | some _ => t.drop f

end IcmpFlowTracker

inductive Act (σ : Type)
  | cancel (f : IcmpSequence σ)
  | release (f : IcmpSequence σ)
deriving DecidableEq

def cancelActs (fs : List (IcmpSequence σ)) : List (Act σ) := fs.flatMap fun f => [.cancel f, .release f]

structure Call (σ : Type) where
  registers : Bool
  rest : List (Act σ)

structure IcmpNat (σ : Type) where
  settings : Settings
  tracker : IcmpFlowTracker σ
  registered : List (IcmpSequence σ)
  cancelled : List (IcmpSequence σ)
  calls : List (Call σ)

inductive IcmpEvent (σ ι : Type)
  | register (source : σ) (scans : ℕ → Scan σ)
  | cancel (f : IcmpSequence σ)
  | close (f : IcmpSequence σ)
  | cancelSource (filed : List (IcmpSequence σ)) (sourceId : ι)
  | proceed (call : ℕ)

namespace IcmpNat

def new (settings : Settings) : IcmpNat σ := ⟨settings, .new, [], [], []⟩

def call (w : IcmpNat σ) (c : Call σ) : IcmpNat σ := { w with calls := w.calls ++ [c] }

def newSequence (w : IcmpNat σ) (s : σ) : IcmpSequence σ := ⟨w.registered.length, s⟩

def register (w : IcmpNat σ) (s : σ) (scans : ℕ → Scan σ) : IcmpNat σ :=
  match w.tracker.register (w.newSequence s) w.settings scans with
  | none => w
  | some (t, victims) =>
    { w with
      tracker := t
      registered := w.registered ++ [w.newSequence s]
      calls := w.calls ++ [⟨true, cancelActs victims⟩] }

def act (w : IcmpNat σ) : Act σ → IcmpNat σ
  | .cancel f => { w with cancelled := f :: w.cancelled }
  | .release f => { w with tracker := w.tracker.release f }

def proceed (w : IcmpNat σ) (i : ℕ) : IcmpNat σ :=
  match w.calls[i]? with
  | some ⟨registers, a :: rest⟩ => { w.act a with calls := w.calls.set i ⟨registers, rest⟩ }
  | _ => w

def step [DecidableEq ι] (sourceId : σ → ι) (w : IcmpNat σ) : IcmpEvent σ ι → IcmpNat σ
  | .register s scans => w.register s scans
  | .cancel f => w.call ⟨false, cancelActs [f]⟩
  | .close f => w.call ⟨false, cancelActs [f]⟩
  | .cancelSource filed id => w.call ⟨false, cancelActs (filed.filter fun f => decide (sourceId f.source = id))⟩
  | .proceed i => w.proceed i

end IcmpNat

namespace IcmpFlowTracker

variable {t : IcmpFlowTracker σ} {s : σ} {f g : IcmpSequence σ} {scan : Scan σ} {ok : IcmpSequence σ → Bool}
  {gone : List (IcmpSequence σ)}

def count (t : IcmpFlowTracker σ) (s : σ) : ℕ := t.order.keys.countP fun f => decide (f.source = s)

structure Exact (t : IcmpFlowTracker σ) : Prop where
  total : t.total = t.order.keys.length
  perSource : ∀ s, t.perSource.lookup s = if t.count s = 0 then none else some (t.count s : ℤ)
  order : ∀ f n, t.order.lookup f = some n → n = f.place + 1

def LeastActive (t : IcmpFlowTracker σ) (scan : Scan σ) (ok : IcmpSequence σ → Bool) (gone : List (IcmpSequence σ))
    (f : IcmpSequence σ) : Prop :=
  f ∈ t.order.keys ∧ ok f = true ∧ f ∉ gone ∧ ∀ g ∈ t.order.keys, ok g = true → g ∉ gone →
    scan.lastActivity f < scan.lastActivity g ∨
      scan.lastActivity f = scan.lastActivity g ∧ f.place ≤ g.place

lemma Exact.perSourceCount (h : Exact t) (s : σ) : t.perSourceCount s = t.count s := by
  rw [IcmpFlowTracker.perSourceCount, h.perSource]
  split
  · next hzero =>
    rw [hzero]
    rfl
  · rfl

lemma Exact.orderOf (h : Exact t) (hf : f ∈ t.order.keys) : t.orderOf f = f.place + 1 := by
  obtain ⟨n, hn⟩ := Table.mem_keys_iff.mp hf
  rw [IcmpFlowTracker.orderOf, hn, Option.getD_some, h.order f n hn]

def Oldest (scan : Scan σ) (ok : IcmpSequence σ → Bool) (gone seen : List (IcmpSequence σ)) :
    Option (IcmpSequence σ × ℤ) → Prop
  | none => ∀ g ∈ seen, ok g = true → g ∈ gone
  | some (f, at_) => f ∈ seen ∧ ok f = true ∧ f ∉ gone ∧ at_ = scan.lastActivity f ∧
      ∀ g ∈ seen, ok g = true → g ∉ gone → scan.lastActivity f < scan.lastActivity g ∨
        scan.lastActivity f = scan.lastActivity g ∧ f.place ≤ g.place

lemma Oldest.keepOldest (h : Exact t) {seen : List (IcmpSequence σ)} {oldest : Option (IcmpSequence σ × ℤ)}
    (ho : Oldest scan ok gone seen oldest) (hseen : ∀ g ∈ seen, g ∈ t.order.keys) (hf : f ∈ t.order.keys) :
    Oldest scan ok gone (seen ++ [f]) (t.keepOldest scan gone ok oldest f) := by
  -- A flow that does not take part leaves the oldest as it is.
  have hskip : (ok f = true → f ∈ gone) → Oldest scan ok gone (seen ++ [f]) oldest := by
    intro hout
    cases oldest with
    | none =>
      intro g hg hok
      rcases List.mem_append.mp hg with hg | hg
      · exact ho g hg hok
      · rw [List.mem_singleton.mp hg] at hok ⊢
        exact hout hok
    | some o =>
      obtain ⟨hmem, hok, hgone, hat, hleast⟩ := ho
      refine ⟨List.mem_append_left _ hmem, hok, hgone, hat, fun g hg hok hgone => ?_⟩
      rcases List.mem_append.mp hg with hg | hg
      · exact hleast g hg hok hgone
      · rw [List.mem_singleton.mp hg] at hok hgone
        exact absurd (hout hok) hgone
  rw [IcmpFlowTracker.keepOldest]
  by_cases hgone : f ∈ gone
  · rw [if_pos hgone]
    exact hskip fun _ => hgone
  rw [if_neg hgone]
  cases hok : ok f with
  | false => exact hskip fun h => absurd (hok.symm.trans h) (by simp)
  | true =>
    have hlast : f ∈ seen ++ [f] := List.mem_append_right _ (List.mem_singleton_self f)
    cases oldest with
    | none =>
      refine ⟨hlast, hok, hgone, rfl, fun g hg hg_ok hg_gone => ?_⟩
      rcases List.mem_append.mp hg with hg | hg
      · exact absurd (ho g hg hg_ok) hg_gone
      · rw [List.mem_singleton.mp hg]
        exact .inr ⟨rfl, le_rfl⟩
    | some o =>
      obtain ⟨o, time⟩ := o
      obtain ⟨ho_mem, ho_ok, ho_gone, rfl, hleast⟩ := ho
      rw [Bool.not_true, if_neg Bool.false_ne_true]
      dsimp only
      rw [h.orderOf hf, h.orderOf (hseen o ho_mem)]
      split
      · next hbefore =>
        refine ⟨hlast, hok, hgone, rfl, fun g hg hg_ok hg_gone => ?_⟩
        rcases List.mem_append.mp hg with hg | hg
        · have := hleast g hg hg_ok hg_gone
          omega
        · rw [List.mem_singleton.mp hg]
          exact .inr ⟨rfl, le_rfl⟩
      · next hafter =>
        refine ⟨List.mem_append_left _ ho_mem, ho_ok, ho_gone, rfl, fun g hg hg_ok hg_gone => ?_⟩
        rcases List.mem_append.mp hg with hg | hg
        · exact hleast g hg hg_ok hg_gone
        · rw [List.mem_singleton.mp hg]
          omega

lemma Oldest.foldl (h : Exact t) (seen : List (IcmpSequence σ)) {l : List (IcmpSequence σ)} {oldest : Option (IcmpSequence σ × ℤ)}
    (ho : Oldest scan ok gone seen oldest) (hseen : ∀ g ∈ seen ++ l, g ∈ t.order.keys) :
    Oldest scan ok gone (seen ++ l) (l.foldl (t.keepOldest scan gone ok) oldest) := by
  induction l generalizing seen oldest with
  | nil =>
    rw [List.append_nil]
    exact ho
  | cons f l ih =>
    have hkept := ho.keepOldest h (fun g hg => hseen g (List.mem_append_left _ hg)) (hseen f (by simp))
    rw [List.append_cons]
    apply ih (seen ++ [f]) hkept
    rw [← List.append_cons]
    exact hseen

lemma Exact.pick_spec (h : Exact t) (scan : Scan σ) (gone : List (IcmpSequence σ)) (ok : IcmpSequence σ → Bool) :
    (t.pick scan gone ok = none ∧ ∀ g ∈ t.order.keys, ok g = true → g ∈ gone) ∨
    ∃ f, t.pick scan gone ok = some f ∧ LeastActive t scan ok gone f := by
  have hmem : ∀ g, g ∈ scan.visit t.order.keys ↔ g ∈ t.order.keys := fun g => (scan.perm _).mem_iff
  have hscan : Oldest scan ok gone (scan.visit t.order.keys)
      ((scan.visit t.order.keys).foldl (t.keepOldest scan gone ok) none) := by
    apply Oldest.foldl h []
    · intro g hg
      exact absurd hg List.not_mem_nil
    · intro g hg
      exact (hmem g).mp hg
  rw [pick]
  cases hresult : (scan.visit t.order.keys).foldl (t.keepOldest scan gone ok) none with
  | none =>
    rw [hresult] at hscan
    exact .inl ⟨rfl, fun g hg => hscan g ((hmem g).mpr hg)⟩
  | some o =>
    rw [hresult] at hscan
    obtain ⟨ho_mem, ho_ok, ho_gone, -, hleast⟩ := hscan
    exact .inr ⟨o.1, rfl, (hmem _).mp ho_mem, ho_ok, ho_gone, fun g hg => hleast g ((hmem g).mpr hg)⟩

lemma keys_drop (t : IcmpFlowTracker σ) (f : IcmpSequence σ) : (t.drop f).order.keys = t.order.keys.erase f :=
  AList.keys_erase f t.order

lemma mem_keys_drop : g ∈ (t.drop f).order.keys ↔ g ∈ t.order.keys ∧ g ≠ f := by
  rw [keys_drop, t.order.keys_nodup.mem_erase_iff, and_comm]

lemma countP_drop (hf : f ∈ t.order.keys) (ok : IcmpSequence σ → Bool) :
    (t.drop f).order.keys.countP ok = t.order.keys.countP ok - if ok f then 1 else 0 := by
  rw [keys_drop, List.countP_erase]
  simp only [hf, true_and]

lemma Exact.drop (h : Exact t) (hf : f ∈ t.order.keys) : Exact (t.drop f) := by
  have hpos := List.length_pos_of_mem hf
  have hown : 0 < t.count f.source := List.countP_pos_iff.mpr ⟨f, hf, by simp⟩
  have hcount : ∀ s, (t.drop f).count s = t.count s - if f.source = s then 1 else 0 := by
    intro s
    rw [count, countP_drop hf, count]
    simp only [decide_eq_true_eq]
  refine ⟨?_, fun s => ?_, ?_⟩
  · rw [keys_drop, List.length_erase_of_mem hf, IcmpFlowTracker.drop, h.total]
    dsimp only
    omega
  · have hlookup : (t.drop f).perSource.lookup s =
        if s = f.source then (if t.count s = 1 then none else some ((t.count s : ℤ) - 1)) else
          t.perSource.lookup s := by
      rw [IcmpFlowTracker.drop, h.perSourceCount]
      dsimp only
      by_cases hs : s = f.source
      · subst hs
        rw [if_pos rfl]
        by_cases hone : t.count f.source = 1
        · rw [if_pos (by omega), if_pos hone, AList.lookup_erase]
        · rw [if_neg (by omega), if_neg hone, AList.lookup_insert]
      · rw [if_neg hs]
        split
        · exact AList.lookup_erase_ne hs
        · exact AList.lookup_insert_ne hs
    rw [hlookup, hcount]
    by_cases hs : s = f.source
    · subst hs
      rw [if_pos rfl, if_pos rfl]
      by_cases hone : t.count f.source = 1
      · rw [if_pos hone, if_pos (by omega)]
      · rw [if_neg hone, if_neg (by omega)]
        congr 1
        omega
    · rw [if_neg hs, if_neg (Ne.symm hs), Nat.sub_zero]
      exact h.perSource s
  · intro g n hg
    rw [IcmpFlowTracker.drop, Table.lookup_erase_eq] at hg
    split at hg
    · exact absurd hg (by simp)
    · exact h.order g n hg

lemma Exact.release (h : Exact t) (f : IcmpSequence σ) : Exact (t.release f) := by
  rw [IcmpFlowTracker.release]
  cases hf : t.order.lookup f with
  | none => exact h
  | some n => exact h.drop (Table.mem_keys_iff.mpr ⟨n, hf⟩)

def excess (limit size : ℤ) : ℤ := if 0 < limit ∧ limit ≤ size then size - limit + 1 else 0

structure Evicts (t u : IcmpFlowTracker σ) (ok : IcmpSequence σ → Bool) (scans : ℕ → Scan σ) (n : ℕ)
    (vs : List (IcmpSequence σ)) : Prop where
  exact : Exact u
  keys : ∀ g, g ∈ u.order.keys ↔ g ∈ t.order.keys ∧ g ∉ vs
  sublist : u.order.keys.Sublist t.order.keys
  total : u.total = t.total - vs.length
  nextOrder : u.nextOrder = t.nextOrder
  least : ∀ i f, vs[i]? = some f → LeastActive t (scans (n + i)) ok (vs.take i) f

lemma Exact.evicts_nil (h : Exact t) (ok : IcmpSequence σ → Bool) (scans : ℕ → Scan σ) (n : ℕ) :
    Evicts t t ok scans n [] where
  exact := h
  keys := by simp
  sublist := List.Sublist.refl _
  total := by simp
  nextOrder := rfl
  least := by simp

lemma Evicts.cons {u : IcmpFlowTracker σ} {scans : ℕ → Scan σ} {n : ℕ} {vs : List (IcmpSequence σ)}
    (hf : LeastActive t (scans n) ok [] f) (h : Evicts (t.drop f) u ok scans (n + 1) vs) :
    Evicts t u ok scans n (f :: vs) where
  exact := h.exact
  keys := by
    intro g
    rw [h.keys, mem_keys_drop, List.mem_cons, not_or, and_assoc]
  sublist := by
    apply h.sublist.trans
    rw [keys_drop]
    exact List.erase_sublist
  total := by
    rw [h.total, IcmpFlowTracker.drop, List.length_cons]
    push_cast
    ring
  nextOrder := h.nextOrder
  least := by
    intro i g hg
    cases i with
    | zero =>
      obtain rfl := Option.some.inj hg
      exact hf
    | succ i =>
      obtain ⟨hmem, hok, hgone, hleast⟩ := h.least i g hg
      rw [mem_keys_drop] at hmem
      rw [show n + (i + 1) = n + 1 + i by omega, List.take_succ_cons]
      refine ⟨hmem.1, hok, ?_, fun k hk hk_ok hk_gone => ?_⟩
      · rw [List.mem_cons, not_or]
        exact ⟨hmem.2, hgone⟩
      rw [List.mem_cons, not_or] at hk_gone
      exact hleast k (mem_keys_drop.mpr ⟨hk, hk_gone.1⟩) hk_ok hk_gone.2

lemma evictLoop_spec (limit : ℤ) {size : IcmpFlowTracker σ → ℤ} (scans : ℕ → Scan σ)
    (hsize : ∀ t, Exact t → size t = t.order.keys.countP ok) {fuel : ℕ} (n : ℕ) {victims : List (IcmpSequence σ)}
    (h : Exact t) (hgone : ∀ g ∈ victims, g ∉ t.order.keys) (hfuel : t.order.keys.length < fuel) :
    ∃ u vs, evictLoop limit size ok scans fuel n victims t = some (u, victims ++ vs, n + vs.length) ∧
      Evicts t u ok scans n vs ∧ (vs.length : ℤ) = excess limit (size t) ∧ size u = size t - vs.length := by
  induction fuel generalizing t n victims with
  | zero => exact absurd hfuel (Nat.not_lt_zero _)
  | succ fuel ih =>
    rw [evictLoop, excess]
    by_cases hover : 0 < limit ∧ limit ≤ size t
    · rw [if_pos hover, if_pos hover]
      rcases h.pick_spec (scans n) victims ok with ⟨-, hnone⟩ | ⟨f, hpick, hmem, hok, -, hleast⟩
      · -- A source over its limit has a flow to pick.
        have hpos : 0 < t.order.keys.countP ok := by
          have := hsize t h
          omega
        obtain ⟨g, hg, hg_ok⟩ := List.countP_pos_iff.mp hpos
        exact absurd hg (hgone g (hnone g hg hg_ok))
      have hf : LeastActive t (scans n) ok [] f :=
        ⟨hmem, hok, List.not_mem_nil, fun g hg hg_ok _ => hleast g hg hg_ok fun hg_gone => hgone g hg_gone hg⟩
      have hlength := List.length_pos_of_mem hmem
      have hdrop : size (t.drop f) = size t - 1 := by
        have hpos : 0 < t.order.keys.countP ok := List.countP_pos_iff.mpr ⟨f, hmem, hok⟩
        rw [hsize _ (h.drop hmem), hsize t h, countP_drop hmem, if_pos hok]
        omega
      have hgone' : ∀ g ∈ victims ++ [f], g ∉ (t.drop f).order.keys := by
        intro g hg hg_mem
        rw [mem_keys_drop] at hg_mem
        rcases List.mem_append.mp hg with hg | hg
        · exact hgone g hg hg_mem.1
        · exact hg_mem.2 (List.mem_singleton.mp hg)
      have hfuel' : (t.drop f).order.keys.length < fuel := by
        rw [keys_drop, List.length_erase_of_mem hmem]
        omega
      obtain ⟨u, vs, hloop, hevicts, hcount, hrest⟩ := ih (n + 1) (h.drop hmem) hgone' hfuel'
      refine ⟨u, f :: vs, ?_, hevicts.cons hf, ?_, ?_⟩
      · rw [hpick]
        dsimp only
        rw [hloop, List.append_assoc, List.singleton_append, List.length_cons, Nat.add_assoc n 1, Nat.add_comm 1]
      · rw [hdrop, excess] at hcount
        rw [List.length_cons]
        push_cast
        split at hcount <;> omega
      · rw [hrest, hdrop, List.length_cons]
        push_cast
        ring
    · rw [if_neg hover, if_neg hover]
      refine ⟨t, [], by simp, h.evicts_nil ok scans n, rfl, by simp⟩

def ownVictims (t : IcmpFlowTracker σ) (settings : Settings) (s : σ) : ℤ :=
  excess settings.userLimit (t.perSourceCount s)

def otherVictims (t : IcmpFlowTracker σ) (settings : Settings) (s : σ) : ℤ :=
  excess settings.globalLimit (t.total - t.ownVictims settings s)

structure Evicted (t : IcmpFlowTracker σ) (settings : Settings) (s : σ) (scans : ℕ → Scan σ)
    (victims : List (IcmpSequence σ)) : Prop where
  length : (victims.length : ℤ) = t.ownVictims settings s + t.otherVictims settings s
  own : ∀ (i : ℕ) f, victims[i]? = some f → (i : ℤ) < t.ownVictims settings s →
    LeastActive t (scans i) (fun g => decide (g.source = s)) (victims.take i) f
  other : ∀ (i : ℕ) f, victims[i]? = some f → t.ownVictims settings s ≤ i →
    LeastActive t (scans i) (fun _ => true) (victims.take i) f

lemma LeastActive.of_evicts {u : IcmpFlowTracker σ} {scans : ℕ → Scan σ} {n : ℕ} {vs : List (IcmpSequence σ)}
    {other : IcmpSequence σ → Bool} (hu : Evicts t u other scans n vs) (h : LeastActive u scan ok gone f) :
    LeastActive t scan ok (vs ++ gone) f := by
  obtain ⟨hmem, hok, hgone, hleast⟩ := h
  rw [hu.keys] at hmem
  refine ⟨hmem.1, hok, ?_, fun g hg hg_ok hg_gone => ?_⟩
  · rw [List.mem_append, not_or]
    exact ⟨hmem.2, hgone⟩
  · rw [List.mem_append, not_or] at hg_gone
    exact hleast g ((hu.keys g).mpr ⟨hg, hg_gone.1⟩) hg_ok hg_gone.2

lemma sub_excess_lt {limit : ℤ} (hlimit : 0 < limit) (size : ℤ) : size - excess limit size < limit := by
  rw [excess]
  split <;> omega

lemma Exact.evictFor_spec (h : Exact t) (s : σ) (settings : Settings) (scans : ℕ → Scan σ) :
    ∃ u victims, t.evictFor s settings scans = some (u, victims) ∧ Exact u ∧
      (∀ g, g ∈ u.order.keys ↔ g ∈ t.order.keys ∧ g ∉ victims) ∧ u.order.keys.Sublist t.order.keys ∧
      u.nextOrder = t.nextOrder ∧ (0 < settings.userLimit → u.perSourceCount s < settings.userLimit) ∧
      (0 < settings.globalLimit → u.total < settings.globalLimit) ∧ Evicted t settings s scans victims := by
  have htotal : ∀ t : IcmpFlowTracker σ, Exact t → t.total = t.order.keys.countP fun _ => true := by
    intro t h
    rw [h.total, List.countP_true]
  obtain ⟨v, vs, hfirst, hv, hv_length, hv_size⟩ := evictLoop_spec settings.userLimit scans
    (fun t (h : Exact t) => h.perSourceCount s) 0 h (List.forall_mem_nil _) (Nat.lt_add_one _)
  obtain ⟨u, ws, hsecond, hu, hu_length, hu_size⟩ := evictLoop_spec settings.globalLimit scans
    htotal vs.length hv.exact (fun g hg hg_mem => ((hv.keys g).mp hg_mem).2 hg)
    (Nat.lt_add_one_of_le hv.sublist.length_le)
  rw [List.nil_append, Nat.zero_add] at hfirst
  have hother : (ws.length : ℤ) = t.otherVictims settings s := by
    rw [hu_length, hv.total, hv_length]
    rfl
  refine ⟨u, vs ++ ws, ?_, hu.exact, fun g => ?_, hu.sublist.trans hv.sublist, hu.nextOrder.trans hv.nextOrder,
    fun hlimit => ?_, fun hlimit => ?_, ?_, fun i f hf hi => ?_, fun i f hf hi => ?_⟩
  · rw [evictFor, hfirst, Option.bind_eq_bind, Option.bind_some]
    dsimp only
    rw [hsecond]
    rfl
  · rw [hu.keys, hv.keys, List.mem_append, not_or, and_assoc]
  · have hcount : u.count s ≤ v.count s := hu.sublist.countP_le
    have hlt := sub_excess_lt hlimit (t.perSourceCount s)
    rw [← hv_length, ← hv_size, hv.exact.perSourceCount] at hlt
    rw [hu.exact.perSourceCount]
    omega
  · have hlt := sub_excess_lt hlimit v.total
    rw [← hu_length] at hlt
    rw [hu.total]
    exact hlt
  · rw [List.length_append, Nat.cast_add, hother, hv_length]
    rfl
  · have hlt : i < vs.length := by
      have : (vs.length : ℤ) = t.ownVictims settings s := hv_length
      omega
    rw [List.getElem?_append_left hlt] at hf
    have hleast := hv.least i f hf
    rw [Nat.zero_add] at hleast
    rw [List.take_append_of_le_length hlt.le]
    exact hleast
  · have hle : vs.length ≤ i := by
      have : (vs.length : ℤ) = t.ownVictims settings s := hv_length
      omega
    rw [List.getElem?_append_right hle] at hf
    have hleast := hu.least _ f hf
    rw [Nat.add_sub_cancel' hle] at hleast
    rw [List.take_append, List.take_of_length_le hle]
    exact hleast.of_evicts hv

structure Within (t : IcmpFlowTracker σ) (settings : Settings) : Prop where
  total : 0 < settings.globalLimit → t.total ≤ settings.globalLimit
  perSource : 0 < settings.userLimit → ∀ s, t.perSourceCount s ≤ settings.userLimit

structure Registers (t u : IcmpFlowTracker σ) (f : IcmpSequence σ) (settings : Settings) (scans : ℕ → Scan σ)
    (victims : List (IcmpSequence σ)) : Prop where
  exact : Exact u
  nextOrder : u.nextOrder = t.nextOrder + 1
  keys : ∀ g, g ∈ u.order.keys ↔ g = f ∨ g ∈ t.order.keys ∧ g ∉ victims
  within : Within t settings → Within u settings
  total_le : 0 < settings.globalLimit → u.total ≤ settings.globalLimit
  perSource_le : 0 < settings.userLimit → u.perSourceCount f.source ≤ settings.userLimit
  evicted : Evicted t settings f.source scans victims

lemma Exact.register_spec (h : Exact t) (hf : f ∉ t.order.keys) (hplace : f.place = t.nextOrder) (settings : Settings)
    (scans : ℕ → Scan σ) :
    ∃ u victims, t.register f settings scans = some (u, victims) ∧ Registers t u f settings scans victims := by
  obtain ⟨v, victims, hfor, hv, hkeys, hsublist, hnext, hown, htotal, hevicted⟩ :=
    h.evictFor_spec f.source settings scans
  have hfresh : f ∉ v.order.keys := fun hmem => hf (hsublist.subset hmem)
  let u : IcmpFlowTracker σ :=
    { v with
      perSource := v.perSource.insert f.source (v.perSourceCount f.source + 1)
      total := v.total + 1
      nextOrder := v.nextOrder + 1
      order := v.order.insert f (v.nextOrder + 1) }
  have hukeys : u.order.keys = f :: v.order.keys := by
    rw [AList.keys_insert, List.erase_of_not_mem hfresh]
  have hcount : ∀ s, u.count s = v.count s + if f.source = s then 1 else 0 := by
    intro s
    rw [count, hukeys, List.countP_cons, count]
    simp only [decide_eq_true_eq]
  have hu : Exact u := by
    refine ⟨?_, fun s => ?_, fun g n hg => ?_⟩
    · rw [hukeys, List.length_cons]
      change v.total + 1 = _
      rw [hv.total]
      push_cast
      rfl
    · rw [hcount]
      change (v.perSource.insert f.source (v.perSourceCount f.source + 1)).lookup s = _
      rw [Table.lookup_insert_eq, hv.perSourceCount]
      by_cases hs : s = f.source
      · subst hs
        rw [if_pos rfl, if_pos rfl, if_neg (Nat.succ_ne_zero _)]
        push_cast
        rfl
      · rw [if_neg hs, if_neg (Ne.symm hs), Nat.add_zero]
        exact hv.perSource s
    · change (v.order.insert f (v.nextOrder + 1)).lookup g = some n at hg
      rw [Table.lookup_insert_eq] at hg
      split at hg
      · next hgf => rw [← Option.some.inj hg, hgf, hplace, hnext]
      · exact hv.order g n hg
  have htotal_le : 0 < settings.globalLimit → u.total ≤ settings.globalLimit := htotal
  have hown_le : 0 < settings.userLimit → u.perSourceCount f.source ≤ settings.userLimit := by
    intro hlimit
    have hlt := hown hlimit
    rw [hv.perSourceCount] at hlt
    rw [hu.perSourceCount, hcount, if_pos rfl]
    push_cast
    exact hlt
  refine ⟨u, victims, ?_, hu, congrArg (· + 1) hnext, fun g => ?_, fun hwithin => ⟨htotal_le, fun hlimit s => ?_⟩,
    htotal_le, hown_le, hevicted⟩
  · rw [IcmpFlowTracker.register, hfor]
    rfl
  · rw [hukeys, List.mem_cons, hkeys]
  · by_cases hs : s = f.source
    · rw [hs]
      exact hown_le hlimit
    · have hsub : v.count s ≤ t.count s := hsublist.countP_le
      have hbound := hwithin.perSource hlimit s
      rw [h.perSourceCount] at hbound
      rw [hu.perSourceCount, hcount, if_neg (Ne.symm hs)]
      omega

lemma release_sublist (t : IcmpFlowTracker σ) (f : IcmpSequence σ) :
    (t.release f).order.keys.Sublist t.order.keys := by
  rw [IcmpFlowTracker.release]
  cases t.order.lookup f with
  | none => exact List.Sublist.refl _
  | some n =>
    dsimp only
    rw [keys_drop]
    exact List.erase_sublist

lemma mem_keys_release (hg : g ∈ t.order.keys) (hgf : g ≠ f) : g ∈ (t.release f).order.keys := by
  rw [IcmpFlowTracker.release]
  cases t.order.lookup f with
  | none => exact hg
  | some n => exact mem_keys_drop.mpr ⟨hg, hgf⟩

lemma release_nextOrder (t : IcmpFlowTracker σ) (f : IcmpSequence σ) : (t.release f).nextOrder = t.nextOrder := by
  rw [IcmpFlowTracker.release]
  cases t.order.lookup f <;> rfl

lemma Within.release {settings : Settings} (h : Exact t) (hw : Within t settings) (f : IcmpSequence σ) :
    Within (t.release f) settings := by
  have hsublist := release_sublist t f
  have hrelease := h.release f
  refine ⟨fun hlimit => ?_, fun hlimit s => ?_⟩
  · have hbound := hw.total hlimit
    rw [h.total] at hbound
    rw [hrelease.total]
    have := hsublist.length_le
    omega
  · have hbound := hw.perSource hlimit s
    rw [h.perSourceCount] at hbound
    rw [hrelease.perSourceCount]
    have : (t.release f).count s ≤ t.count s := hsublist.countP_le
    omega

end IcmpFlowTracker

namespace IcmpNat

open IcmpFlowTracker

variable {w : IcmpNat σ} {f g : IcmpSequence σ}

def BeingEvicted (w : IcmpNat σ) (f : IcmpSequence σ) : Prop :=
  ∃ c ∈ w.calls, c.registers = true ∧ Act.cancel f ∈ c.rest

structure Sound (w : IcmpNat σ) : Prop where
  exact : Exact w.tracker
  within : Within w.tracker w.settings
  nextOrder : w.tracker.nextOrder = w.registered.length
  places : ∀ f ∈ w.tracker.order.keys, f.place < w.registered.length
  calls : ∀ c ∈ w.calls, (∃ fs, c.rest = cancelActs fs) ∨
    ∃ f fs, c.rest = .release f :: cancelActs fs ∧ f ∈ w.cancelled
  accounted : ∀ f ∈ w.registered, f ∈ w.tracker.order.keys ∨ f ∈ w.cancelled ∨ w.BeingEvicted f

lemma sound_new (settings : Settings) : Sound (new settings : IcmpNat σ) where
  exact := ⟨rfl, fun s => by simp [new, IcmpFlowTracker.new, count], by simp [new, IcmpFlowTracker.new]⟩
  within := ⟨fun h => h.le, fun h s => h.le⟩
  nextOrder := rfl
  places := by simp [new, IcmpFlowTracker.new]
  calls := by simp [new]
  accounted := by simp [new]

lemma Sound.call (h : Sound w) (registers : Bool) (fs : List (IcmpSequence σ)) :
    Sound (w.call ⟨registers, cancelActs fs⟩) where
  exact := h.exact
  within := h.within
  nextOrder := h.nextOrder
  places := h.places
  calls := by
    intro c hc
    rcases List.mem_append.mp hc with hc | hc
    · exact h.calls c hc
    · rw [List.mem_singleton.mp hc]
      exact .inl ⟨fs, rfl⟩
  accounted := by
    intro f hf
    rcases h.accounted f hf with hin | hcancelled | ⟨c, hc, hevicts⟩
    · exact .inl hin
    · exact .inr (.inl hcancelled)
    · exact .inr (.inr ⟨c, List.mem_append_left _ hc, hevicts⟩)

omit [DecidableEq σ] in
lemma mem_cancelActs {fs : List (IcmpSequence σ)} (hf : f ∈ fs) : Act.cancel f ∈ cancelActs fs :=
  List.mem_flatMap.mpr ⟨f, hf, List.mem_cons_self⟩

lemma Sound.newSequence_not_mem (h : Sound w) (s : σ) : w.newSequence s ∉ w.tracker.order.keys :=
  fun hmem => absurd (h.places _ hmem) (lt_irrefl _)

lemma Sound.register_spec (h : Sound w) (s : σ) (scans : ℕ → Scan σ) :
    ∃ u victims, w.tracker.register (w.newSequence s) w.settings scans = some (u, victims) ∧
      Registers w.tracker u (w.newSequence s) w.settings scans victims :=
  h.exact.register_spec (h.newSequence_not_mem s) h.nextOrder.symm w.settings scans

lemma Sound.register (h : Sound w) (s : σ) (scans : ℕ → Scan σ) : Sound (w.register s scans) := by
  obtain ⟨u, victims, hregister, hu⟩ := h.register_spec s scans
  rw [IcmpNat.register, hregister]
  refine ⟨hu.exact, hu.within h.within, ?_, ?_, ?_, ?_⟩
  · dsimp only
    rw [hu.nextOrder, h.nextOrder, List.length_append, List.length_singleton]
  · intro f hf
    rw [hu.keys] at hf
    rw [List.length_append, List.length_singleton]
    rcases hf with rfl | ⟨hf, -⟩
    · exact Nat.lt_add_one _
    · exact Nat.lt_add_right 1 (h.places f hf)
  · exact (h.call true victims).calls
  · intro f hf
    by_cases hvictim : f ∈ victims
    · refine .inr (.inr ⟨⟨true, cancelActs victims⟩, ?_, rfl, mem_cancelActs hvictim⟩)
      exact List.mem_append_right _ (List.mem_singleton_self _)
    · rcases List.mem_append.mp hf with hf | hf
      · rcases (h.call true victims).accounted f hf with hin | hrest
        · exact .inl ((hu.keys f).mpr (.inr ⟨hin, hvictim⟩))
        · exact .inr hrest
      · exact .inl ((hu.keys f).mpr (.inl (List.mem_singleton.mp hf)))

omit [DecidableEq σ] in
lemma mem_calls_set {calls : List (Call σ)} {i : ℕ} {c old : Call σ} (c' : Call σ) (hold : calls[i]? = some old) (hc : c ∈ calls) :
    c = old ∨ c ∈ calls.set i c' := by
  obtain ⟨j, hj, rfl⟩ := List.getElem_of_mem hc
  by_cases hij : i = j
  · subst hij
    rw [List.getElem?_eq_getElem hj] at hold
    exact .inl (Option.some.inj hold)
  · have hset : (calls.set i c')[j]? = some calls[j] := by
      rw [List.getElem?_set_ne hij, List.getElem?_eq_getElem hj]
    exact .inr (List.mem_of_getElem? hset)

omit [DecidableEq σ] in
lemma BeingEvicted.proceed {i : ℕ} {registers : Bool} {a : Act σ} {rest : List (Act σ)}
    (hi : w.calls[i]? = some ⟨registers, a :: rest⟩) (hf : w.BeingEvicted f) :
    a = .cancel f ∨ ∃ c ∈ w.calls.set i ⟨registers, rest⟩, c.registers = true ∧ Act.cancel f ∈ c.rest := by
  obtain ⟨c, hc, hregisters, hmem⟩ := hf
  have hlt := (List.getElem?_eq_some_iff.mp hi).1
  rcases mem_calls_set ⟨registers, rest⟩ hi hc with rfl | hc
  · rcases List.mem_cons.mp hmem with rfl | hmem
    · exact .inl rfl
    · exact .inr ⟨⟨registers, rest⟩, List.mem_set hlt _, hregisters, hmem⟩
  · exact .inr ⟨c, hc, hregisters, hmem⟩

lemma Sound.proceed (h : Sound w) (i : ℕ) : Sound (w.proceed i) := by
  rw [IcmpNat.proceed]
  split
  · next registers a rest hi =>
    have hmem : ⟨registers, a :: rest⟩ ∈ w.calls := List.mem_of_getElem? hi
    rcases h.calls _ hmem with ⟨fs, hfs⟩ | ⟨f, fs, hfs, hcancelled⟩
    · -- The context of the next flow is cancelled.
      cases fs with
      | nil => exact absurd hfs (List.cons_ne_nil _ _)
      | cons f fs =>
        obtain ⟨rfl, rfl⟩ := List.cons.inj hfs
        refine ⟨h.exact, h.within, h.nextOrder, h.places, fun c hc => ?_, fun g hg => ?_⟩
        · rcases List.mem_or_eq_of_mem_set hc with hc | rfl
          · rcases h.calls c hc with hc | ⟨g, gs, hgs, hg⟩
            · exact .inl hc
            · exact .inr ⟨g, gs, hgs, List.mem_cons_of_mem _ hg⟩
          · exact .inr ⟨f, fs, rfl, List.mem_cons_self⟩
        · rcases h.accounted g hg with hin | hg_cancelled | hevicted
          · exact .inl hin
          · exact .inr (.inl (List.mem_cons_of_mem _ hg_cancelled))
          · rcases hevicted.proceed hi with heq | hevicted
            · cases heq
              exact .inr (.inl List.mem_cons_self)
            · exact .inr (.inr hevicted)
    · -- The flow is released, of a context that was cancelled before.
      obtain ⟨rfl, rfl⟩ := List.cons.inj hfs
      refine ⟨h.exact.release f, h.within.release h.exact f, ?_, fun g hg => ?_, fun c hc => ?_, fun g hg => ?_⟩
      · exact (release_nextOrder _ _).trans h.nextOrder
      · exact h.places g ((release_sublist _ _).subset hg)
      · rcases List.mem_or_eq_of_mem_set hc with hc | rfl
        · exact h.calls c hc
        · exact .inl ⟨fs, rfl⟩
      · rcases h.accounted g hg with hin | hg_cancelled | hevicted
        · by_cases hgf : g = f
          · rw [hgf]
            exact .inr (.inl hcancelled)
          · exact .inl (mem_keys_release hin hgf)
        · exact .inr (.inl hg_cancelled)
        · rcases hevicted.proceed hi with heq | hevicted
          · cases heq
          · exact .inr (.inr hevicted)
  · exact h

variable [DecidableEq ι]

lemma Sound.step (h : Sound w) (sourceId : σ → ι) (e : IcmpEvent σ ι) : Sound (w.step sourceId e) := by
  cases e with
  | register s scans => exact h.register s scans
  | cancel f => exact h.call false [f]
  | close f => exact h.call false [f]
  | cancelSource filed id => exact h.call false _
  | proceed i => exact h.proceed i

lemma settings_step (sourceId : σ → ι) (w : IcmpNat σ) (e : IcmpEvent σ ι) :
    (w.step sourceId e).settings = w.settings := by
  cases e with
  | register s scans =>
    rw [IcmpNat.step, IcmpNat.register]
    split <;> rfl
  | cancel f => rfl
  | close f => rfl
  | cancelSource filed id => rfl
  | proceed i =>
    rw [IcmpNat.step, IcmpNat.proceed]
    split
    · next registers a rest hi => cases a <;> rfl
    · rfl

lemma sound_run (settings : Settings) (sourceId : σ → ι) (es : List (IcmpEvent σ ι)) :
    Sound (Runs.run (step sourceId) (new settings) es) ∧
      (Runs.run (step sourceId) (new settings) es).settings = settings :=
  Runs.run_invariant (I := fun w => Sound w ∧ w.settings = settings)
    (fun w e h => ⟨h.1.step sourceId e, (settings_step sourceId w e).trans h.2⟩) ⟨sound_new settings, rfl⟩ es

theorem icmp_caps_exact (settings : Settings) (sourceId : σ → ι) (es : List (IcmpEvent σ ι)) :
    let w := Runs.run (step sourceId) (new settings) es
    w.tracker.total = w.tracker.order.keys.length ∧
    (∀ s, w.tracker.perSource.lookup s =
      if w.tracker.count s = 0 then none else some (w.tracker.count s : ℤ)) ∧
    (∀ f ∈ w.registered, f ∈ w.tracker.order.keys ∨ f ∈ w.cancelled ∨ w.BeingEvicted f) ∧
    ∀ s scans, ∃ u victims, w.tracker.register (w.newSequence s) settings scans = some (u, victims) ∧
      (w.register s scans).tracker = u ∧
      (w.register s scans).calls = w.calls ++ [⟨true, cancelActs victims⟩] ∧
      (∀ g, g ∈ u.order.keys ↔ g = w.newSequence s ∨ g ∈ w.tracker.order.keys ∧ g ∉ victims) ∧
      (0 < settings.globalLimit → u.total ≤ settings.globalLimit) ∧
      (0 < settings.userLimit → u.perSourceCount s ≤ settings.userLimit) ∧
      Evicted w.tracker settings s scans victims := by
  intro w
  obtain ⟨h, hsettings⟩ := sound_run settings sourceId es
  refine ⟨h.exact.total, h.exact.perSource, h.accounted, fun s scans => ?_⟩
  obtain ⟨u, victims, hregister, hu⟩ := h.register_spec s scans
  rw [hsettings] at hregister hu
  have hstep : w.register s scans = { w with
      tracker := u
      registered := w.registered ++ [w.newSequence s]
      calls := w.calls ++ [⟨true, cancelActs victims⟩] } := by
    rw [IcmpNat.register, hsettings, hregister]
  exact ⟨u, victims, hregister, by rw [hstep], by rw [hstep], hu.keys, hu.total_le, hu.perSource_le, hu.evicted⟩

def idleScan : Scan Unit := ⟨id, fun _ => List.Perm.refl _, fun _ => 0⟩

theorem evicted_before_cancelled :
    let w := Runs.run (step (id : Unit → Unit)) (new ⟨1, 0⟩)
      [.register () fun _ => idleScan, .register () fun _ => idleScan]
    (⟨0, ()⟩ : IcmpSequence Unit) ∈ w.registered ∧ (⟨0, ()⟩ : IcmpSequence Unit) ∉ w.tracker.order.keys ∧
      (⟨0, ()⟩ : IcmpSequence Unit) ∉ w.cancelled := by
  decide +kernel

end IcmpNat

end UrConnect.Ip.IcmpFlowLimit
