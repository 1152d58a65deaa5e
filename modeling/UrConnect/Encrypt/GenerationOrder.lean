import UrConnect.Encrypt.Generations

/-! The order of the generations that a responder follows, when controls come one at a time. -/

namespace UrConnect

namespace Id

lemma lessBytes_of_le {a b c : List UInt8} (hab : a.length = b.length) (hbc : b.length = c.length)
    (h : lessBytes b a = false) (hless : lessBytes b c = true) : lessBytes c a = false := by
  induction a generalizing b c with
  | nil => cases c <;> rfl
  | cons x a ih =>
    cases b with
    | nil => cases hab
    | cons y b =>
      cases c with
      | nil => cases hbc
      | cons z c =>
        simp only [List.length_cons, Nat.add_right_cancel_iff] at hab hbc
        simp only [lessBytes] at h hless ⊢
        have hrest := ih hab hbc
        grind

lemma lessThan_of_le {a b c : Id} (h : b.lessThan a = false) (hless : b.lessThan c = true) : c.lessThan a = false :=
  lessBytes_of_le (a.length_eq.trans b.length_eq.symm) (b.length_eq.trans c.length_eq.symm) h hless

lemma lessBytes_self (a : List UInt8) : lessBytes a a = false := by
  induction a with
  | nil => rfl
  | cons x a ih => simp [lessBytes, ih]

lemma lessThan_self (a : Id) : a.lessThan a = false := lessBytes_self a.bytes

end Id

namespace Encrypt.PeerEncryptionSession

open Lib.Runs

variable {κ : Type} {crypto : Crypto κ} {s s' : PeerEncryptionSession κ} {task : Task} {e : ℕ} {g : Id}
  {acted : List Id}

def isControlTask : Task → Bool
  | .convergeToPeerEpoch => true
  | .handshakeCurrent _ => true
  | .handshakeCompare .. => true
  | .handshakeReset _ => true
  | .handshakeByRole _ => true
  | .handshakeClosed .. => true
  | .handshakeFresh _ => true
  | .handshakeStart _ => true
  | .handshakeEpoch _ => true
  | .handshakeAdopt .. => true
  | .handshakeDeliver .. => true
  | .proofStart .. => true
  | .proofEpoch .. => true
  | .proofCompare .. => true
  | .proofAdopt .. => true
  | .proofStore .. => true
  | _ => false

def isBackgroundTask : Task → Bool
  | .completeHandshake .. => true
  | .handshakeCompleted _ => true
  | .sendIdentityProofOnce _ => true
  | .maybeVerify _ => true
  | .judge .. => true
  | .setPeerClientPublicKey _ => true
  | .verifyCurrent => true
  | .markServerFlightSent _ => true
  | .addTrustedPeerCertChain .. => true
  | .trustChain _ => true
  | _ => false

def touched (s : PeerEncryptionSession κ) : Task → Option Id
  | .handshakeAdopt c e => if s.epochIdOf e = Id.zero then some c.generation else none
  | .handshakeDeliver c _ => some c.generation
  | .proofAdopt _ epochId e => if s.epochIdOf e = Id.zero then some epochId else none
  | .proofStore c _ => some c.generation
  | _ => none

def actedOn (s : PeerEncryptionSession κ) : Task → Option Id
  | .handshakeReset c => some c.generation
  | .proofCompare _ epochId e =>
    if s.epochIdOf e ≠ Id.zero && (s.epochIdOf e).lessThan epochId then some epochId else none
  | task => s.touched task

def atEvent (f : Task → Option Id) (s : PeerEncryptionSession κ) : Event → Option Id
  | .call _ => none
  | .advance n _ => s.tasks[n]?.bind f

structure Watch (κ : Type) where
  session : PeerEncryptionSession κ
  acted : List Id

namespace Watch

def start (κ : Type) : Watch κ := ⟨newPeerEncryptionSession κ .server, []⟩

def step (crypto : Crypto κ) (w : Watch κ) (event : Event) : Watch κ where
  session := PeerEncryptionSession.step crypto w.session event
  acted := (w.session.atEvent w.session.actedOn event).toList ++ w.acted

/-- The controls name a generation and come one at a time. Handshakes end, proofs are judged and keys arrive at any
time. -/
def oneAtATime (w : Watch κ) : Event → Bool
  | .call (.deliverEncryptedControl c) => c.generation ≠ Id.zero && w.session.tasks.all fun task => !isControlTask task
  | .call c => c.tasks.all isBackgroundTask
  | .advance _ _ => true

/-- A control that arrives while the current epoch carries no id is of no older generation than one acted on. -/
def arrivesInOrder (w : Watch κ) : Event → Bool
  | .call (.deliverEncryptedControl c) =>
    (w.session.epoch.any fun e => w.session.epochIdOf e ≠ Id.zero) || w.acted.all fun g => !c.generation.lessThan g
  | _ => true

def KeepsOrder (w : Watch κ) (event : Event) : Prop :=
  ∀ g, w.session.atEvent w.session.touched event = some g → ∀ h ∈ w.acted, g.lessThan h = false

end Watch

section Same

structure Same (s s' : PeerEncryptionSession κ) : Prop where
  role : s'.role = s.role
  epoch : s'.epoch = s.epoch
  length : s'.epochs.length = s.epochs.length
  ids : ∀ e, s'.epochIdOf e = s.epochIdOf e

lemma Same.refl (s : PeerEncryptionSession κ) : Same s s := ⟨rfl, rfl, rfl, fun _ => rfl⟩

lemma epochIdOf_modifyEpoch {f : TlsHandshakeEpoch κ → TlsHandshakeEpoch κ}
    (hf : ∀ epoch, (f epoch).epochId = epoch.epochId) (e e' : ℕ) : (s.modifyEpoch e f).epochIdOf e' = s.epochIdOf e' := by
  cases he : s.epochs[e']? with
  | none =>
    rw [epochIdOf, epochIdOf, modifyEpoch, List.getElem?_modify, he]
    rfl
  | some epoch =>
    rw [epochIdOf_of_some (modifyEpoch_of_some f he), epochIdOf_of_some he]
    split
    · exact hf epoch
    · rfl

lemma same_modifyEpoch {f : TlsHandshakeEpoch κ → TlsHandshakeEpoch κ}
    (hf : ∀ epoch, (f epoch).epochId = epoch.epochId) (e : ℕ) : Same s (s.modifyEpoch e f) :=
  ⟨rfl, rfl, by simp [modifyEpoch], epochIdOf_modifyEpoch hf e⟩

lemma same_logged {f : TlsHandshakeEpoch κ → TlsHandshakeEpoch κ}
    (hf : ∀ epoch, (f epoch).epochId = epoch.epochId) (e : ℕ) (entry : SessionEntry) :
    Same s ((s.modifyEpoch e f).log entry) :=
  ⟨rfl, rfl, (same_modifyEpoch hf e).length, epochIdOf_modifyEpoch hf e⟩

lemma same_of_epochs (hrole : s'.role = s.role) (hepoch : s'.epoch = s.epoch) (h : s'.epochs = s.epochs) : Same s s' :=
  ⟨hrole, hepoch, by rw [h], fun e => by rw [epochIdOf, epochIdOf, h]⟩

lemma Same.of_epochs (h : Same s s') {t : PeerEncryptionSession κ} (hrole : t.role = s'.role) (hepoch : t.epoch = s'.epoch)
    (ht : t.epochs = s'.epochs) : Same s t := by
  have hsame := same_of_epochs hrole hepoch ht
  exact ⟨hrole.trans h.role, hepoch.trans h.epoch, hsame.length.trans h.length, fun e => (hsame.ids e).trans (h.ids e)⟩

lemma same_judge (e : ℕ) (payload exporter peerPub : List UInt8) (generation : Id) :
    Same s (s.judge crypto e payload exporter peerPub generation) := by
  have hmodify : Same s (s.modifyEpoch e fun epoch =>
      epoch.judged (crypto.verifyClientKeySignature peerPub exporter payload)) := by
    apply same_modifyEpoch
    intro epoch
    rfl
  apply hmodify.of_epochs _ _ (judge_epochs e payload exporter peerPub generation)
  all_goals
    rw [judge]
    split
    · rw [markEstablishedWithLock]
      split <;> rfl
    · rfl

lemma same_background (h : isBackgroundTask task = true) (i : Input) : Same s (s.advance crypto i task).1 := by
  cases task with
  | completeHandshake e result =>
    change Same s (s.completeHandshake crypto e result).1
    rw [completeHandshake]
    split
    · exact same_modifyEpoch (fun epoch => complete_epochId _ epoch result) e
    · exact Same.refl s
  | handshakeCompleted e => exact Same.refl s
  | sendIdentityProofOnce e =>
    apply same_modifyEpoch _ e
    intro epoch
    split <;> rfl
  | maybeVerify e => exact Same.refl s
  | judge e payload exporter peerPub generation => exact same_judge e payload exporter peerPub generation
  | setPeerClientPublicKey pub =>
    change Same s (s.setPeerClientPublicKey pub).1
    rw [setPeerClientPublicKey]
    split
    · exact same_of_epochs rfl rfl rfl
    split <;> exact same_of_epochs rfl rfl rfl
  | verifyCurrent => exact Same.refl s
  | markServerFlightSent e =>
    apply same_modifyEpoch _ e
    intro epoch
    rfl
  | addTrustedPeerCertChain chain chainSig => exact Same.refl s
  | trustChain chain => exact same_of_epochs rfl rfl rfl
  | _ => cases h

lemma background_spawns (h : isBackgroundTask task = true) {i : Input} {t : Task}
    (ht : t ∈ (s.advance crypto i task).2) : isBackgroundTask t = true := by
  cases task with
  | maybeVerify e =>
    change t ∈ s.readyProof e at ht
    rw [readyProof] at ht
    split at ht
    · cases ht
    split at ht
    · cases ht
    · rw [List.mem_singleton.mp ht]
      rfl
  | verifyCurrent =>
    obtain ⟨e, -, rfl⟩ := Option.map_eq_some_iff.mp (Option.mem_toList.mp ht)
    rfl
  | _ =>
    simp only [advance, completeHandshake, setPeerClientPublicKey] at ht h
    grind [isBackgroundTask]

lemma background_touches_nothing (h : isBackgroundTask task = true) : s.actedOn task = none ∧ s.touched task = none := by
  cases task with
  | _ => first | exact ⟨rfl, rfl⟩ | cases h

end Same

section Stages

def Below (acted : List Id) (g : Id) : Prop := ∀ h ∈ acted, g.lessThan h = false

lemma Below.append (h : Below acted g) {new : Option Id} (hnew : ∀ x ∈ new, x = g) : Below (new.toList ++ acted) g := by
  intro x hx
  rcases List.mem_append.mp hx with hx | hx
  · rw [hnew x (Option.mem_toList.mp hx)]
    exact Id.lessThan_self g
  · exact h x hx

def Settled (s : PeerEncryptionSession κ) (acted : List Id) : Prop :=
  ∀ e, s.epoch = some e → s.epochIdOf e ≠ Id.zero → Below acted (s.epochIdOf e)

structure Mine (s : PeerEncryptionSession κ) (acted : List Id) (g : Id) : Prop where
  named : g ≠ Id.zero
  below : Below acted g
  id : ∀ e, s.epoch = some e → s.epochIdOf e = Id.zero ∨ s.epochIdOf e = g

structure Awaits (s : PeerEncryptionSession κ) (acted : List Id) (g : Id) : Prop where
  named : g ≠ Id.zero
  settled : Settled s acted
  below : (∀ e, s.epoch = some e → s.epochIdOf e = Id.zero) → Below acted g

structure Carries (s : PeerEncryptionSession κ) (acted : List Id) (e : ℕ) (g : Id) : Prop where
  epoch : s.epoch = some e
  id : s.epochIdOf e = g
  below : Below acted g

def Stage (s : PeerEncryptionSession κ) (acted : List Id) : Task → Prop
  | .handshakeCurrent c => Awaits s acted c.generation
  | .handshakeCompare c e => s.epoch = some e ∧ Awaits s acted c.generation
  | .handshakeReset c => c.generation ≠ Id.zero ∧ Below acted c.generation
  | .handshakeByRole c => Mine s acted c.generation
  | .handshakeClosed c _ => Mine s acted c.generation
  | .handshakeFresh c => Mine s acted c.generation
  | .handshakeStart c => Mine s acted c.generation
  | .handshakeEpoch c => Mine s acted c.generation
  | .handshakeAdopt c e => s.epoch = some e ∧ Mine s acted c.generation
  | .handshakeDeliver c e => Carries s acted e c.generation
  | .proofStart c epochId => epochId = c.generation ∧ Awaits s acted c.generation
  | .proofEpoch c epochId => epochId = c.generation ∧ Awaits s acted c.generation
  | .proofCompare c epochId e => epochId = c.generation ∧ s.epoch = some e ∧ Awaits s acted c.generation
  | .proofAdopt c epochId e => epochId = c.generation ∧ s.epoch = some e ∧ Mine s acted c.generation
  | .proofStore c e => Carries s acted e c.generation
  | .convergeToPeerEpoch => True
  | task => isBackgroundTask task = true

lemma Settled.same (h : Settled s acted) (hs : Same s s') : Settled s' acted := by
  intro e he hid
  rw [hs.ids] at hid ⊢
  exact h e (hs.epoch ▸ he) hid

lemma Mine.same (h : Mine s acted g) (hs : Same s s') : Mine s' acted g where
  named := h.named
  below := h.below
  id e he := by
    rw [hs.ids]
    exact h.id e (hs.epoch ▸ he)

lemma Awaits.same (h : Awaits s acted g) (hs : Same s s') : Awaits s' acted g where
  named := h.named
  settled := h.settled.same hs
  below hless := h.below fun e he => by
    rw [← hs.ids]
    exact hless e (hs.epoch.trans he)

lemma Carries.same (h : Carries s acted e g) (hs : Same s s') : Carries s' acted e g :=
  ⟨hs.epoch.trans h.epoch, (hs.ids e).trans h.id, h.below⟩

lemma Stage.same (h : Stage s acted task) (hs : Same s s') : Stage s' acted task := by
  cases task with
  | handshakeCurrent c => exact Awaits.same h hs
  | handshakeCompare c e => exact ⟨hs.epoch.trans h.1, h.2.same hs⟩
  | handshakeByRole c => exact Mine.same h hs
  | handshakeClosed c e => exact Mine.same h hs
  | handshakeFresh c => exact Mine.same h hs
  | handshakeStart c => exact Mine.same h hs
  | handshakeEpoch c => exact Mine.same h hs
  | handshakeAdopt c e => exact ⟨hs.epoch.trans h.1, h.2.same hs⟩
  | handshakeDeliver c e => exact Carries.same h hs
  | proofStart c epochId => exact ⟨h.1, h.2.same hs⟩
  | proofEpoch c epochId => exact ⟨h.1, h.2.same hs⟩
  | proofCompare c epochId e => exact ⟨h.1, hs.epoch.trans h.2.1, h.2.2.same hs⟩
  | proofAdopt c epochId e => exact ⟨h.1, hs.epoch.trans h.2.1, h.2.2.same hs⟩
  | proofStore c e => exact Carries.same h hs
  | _ => exact h

lemma Awaits.mine (h : Awaits s acted g) (he : s.epoch = some e) (hid : s.epochIdOf e = Id.zero ∨ s.epochIdOf e = g) :
    Mine s acted g where
  named := h.named
  below := by
    rcases hid with hzero | hg
    · apply h.below
      intro e' he'
      rw [he] at he'
      rw [← Option.some.inj he', hzero]
    · have hb := h.settled e he (hg ▸ h.named)
      rwa [hg] at hb
  id e' he' := by
    rw [he] at he'
    rwa [← Option.some.inj he']

lemma Mine.settled (h : Mine s acted g) : Settled s acted := by
  intro e he hid
  rw [(h.id e he).resolve_left hid]
  exact h.below

lemma Carries.settled (h : Carries s acted e g) : Settled s acted := by
  intro e' he' hid
  rw [h.epoch] at he'
  rw [← Option.some.inj he', h.id]
  exact h.below

end Stages

section Controls

variable {i : Input}

lemma build_id (hrole : s.role = .server) (i : Input) {e : ℕ} (he : (s.buildAndStartEpochWithLock i).epoch = some e) :
    (s.buildAndStartEpochWithLock i).epochIdOf e = Id.zero := by
  obtain rfl : s.epochs.length = e := Option.some.inj he
  have hnew : (s.buildAndStartEpochWithLock i).epochs[s.epochs.length]? = some (s.newEpoch i) := by
    simp [buildAndStartEpochWithLock]
  rw [epochIdOf_of_some hnew, newEpoch, hrole]
  dsimp only
  split <;> rfl

lemma build_current (s : PeerEncryptionSession κ) (i : Input) (e : ℕ)
    (he : (s.buildAndStartEpochWithLock i).epoch = some e) : e < (s.buildAndStartEpochWithLock i).epochs.length := by
  obtain rfl : s.epochs.length = e := Option.some.inj he
  simp [buildAndStartEpochWithLock]

lemma build_role (hrole : s.role = .server) (i : Input) : (s.buildAndStartEpochWithLock i).role = .server := hrole

lemma settled_build (hrole : s.role = .server) (i : Input) : Settled (s.buildAndStartEpochWithLock i) acted :=
  fun _ he hid => absurd (build_id hrole i he) hid

lemma mine_build (hrole : s.role = .server) (i : Input) (hg : g ≠ Id.zero) (h : Below acted g) :
    Mine (s.buildAndStartEpochWithLock i) acted g :=
  ⟨hg, h, fun _ he => .inl (build_id hrole i he)⟩

structure Leaves (s' : PeerEncryptionSession κ) (acted : List Id) (spawned : List Task) : Prop where
  role : s'.role = .server
  current : ∀ e, s'.epoch = some e → e < s'.epochs.length
  stages : ∀ t ∈ spawned, Stage s' acted t
  single : (spawned.filter isControlTask).length ≤ 1
  settled : (∀ t ∈ spawned, isControlTask t = false) → Settled s' acted

lemma leaves_none (hrole : s'.role = .server) (hcurrent : ∀ e, s'.epoch = some e → e < s'.epochs.length)
    (h : Settled s' acted) : Leaves s' acted [] :=
  ⟨hrole, hcurrent, by simp, by simp, fun _ => h⟩

lemma leaves_one {t : Task} (hrole : s'.role = .server) (hcurrent : ∀ e, s'.epoch = some e → e < s'.epochs.length)
    (h : Stage s' acted t) (ht : isControlTask t = true) : Leaves s' acted [t] where
  role := hrole
  current := hcurrent
  stages t' ht' := List.mem_singleton.mp ht' ▸ h
  single := by simp [ht]
  settled hnone := by
    rw [hnone t List.mem_cons_self] at ht
    cases ht

lemma adopts_own : ∀ x ∈ (if s.epochIdOf e = Id.zero then some g else none), x = g := by
  intro x hx
  split at hx
  · exact (Option.mem_some_iff.mp hx).symm
  · cases hx

lemma adopt_carries (hcurrent : e < s.epochs.length) (he : s.epoch = some e) (h : Mine s acted g) {new : Option Id}
    (hnew : ∀ x ∈ new, x = g) :
    (s.adoptEpochId e g).2 = true ∧ (s.adoptEpochId e g).1.role = s.role ∧
      (∀ e', (s.adoptEpochId e g).1.epoch = some e' → e' < (s.adoptEpochId e g).1.epochs.length) ∧
      Carries (s.adoptEpochId e g).1 (new.toList ++ acted) e g := by
  have hadopts := adoptEpochId_adopts (h.id e he)
  have hbound := (adoptEpochId_bound hcurrent hadopts).resolve_left h.named
  have hkeep : (s.adoptEpochId e g).1.role = s.role ∧ (s.adoptEpochId e g).1.epoch = s.epoch ∧
      (s.adoptEpochId e g).1.epochs.length = s.epochs.length := by
    rw [adoptEpochId]
    split
    · exact ⟨rfl, rfl, rfl⟩
    split
    · exact ⟨rfl, rfl, by simp [modifyEpoch]⟩
    · exact ⟨rfl, rfl, rfl⟩
  obtain ⟨hrole, hepoch, hlength⟩ := hkeep
  refine ⟨hadopts, hrole, ?_, hepoch.trans he, hbound, h.below.append hnew⟩
  intro e' he'
  rw [hepoch, he] at he'
  rw [hlength, ← Option.some.inj he']
  exact hcurrent

lemma startEpoch_of_none (h : s.epoch = none) : s.startEpoch i = s.buildAndStartEpochWithLock i := if_pos h

lemma startEpoch_of_some (h : s.epoch = some e) : s.startEpoch i = s := by
  rw [startEpoch, if_neg (by rw [h]; simp)]

lemma touched_below (h : Stage s acted task) (ht : s.touched task = some g) : Below acted g := by
  cases task with
  | handshakeAdopt c e =>
    rw [touched] at ht
    split at ht
    · cases ht
      exact h.2.below
    · cases ht
  | handshakeDeliver c e =>
    cases ht
    exact Carries.below h
  | proofAdopt c epochId e =>
    rw [touched] at ht
    split at ht
    · cases ht
      rw [h.1]
      exact h.2.2.below
    · cases ht
  | proofStore c e =>
    cases ht
    exact Carries.below h
  | _ => cases ht

lemma startEpoch_leaves (hrole : s.role = .server) (hcurrent : ∀ e, s.epoch = some e → e < s.epochs.length) :
    (s.startEpoch i).role = .server ∧ ∀ e, (s.startEpoch i).epoch = some e → e < (s.startEpoch i).epochs.length := by
  cases he : s.epoch with
  | none =>
    rw [startEpoch_of_none he]
    exact ⟨hrole, build_current s i⟩
  | some e =>
    rw [startEpoch_of_some he]
    exact ⟨hrole, hcurrent⟩

lemma startEpoch_mine (hrole : s.role = .server) (h : Mine s acted g) : Mine (s.startEpoch i) acted g := by
  cases he : s.epoch with
  | none =>
    rw [startEpoch_of_none he]
    exact mine_build hrole i h.named h.below
  | some e =>
    rw [startEpoch_of_some he]
    exact h

lemma startEpoch_awaits (hrole : s.role = .server) (h : Awaits s acted g) : Awaits (s.startEpoch i) acted g := by
  cases he : s.epoch with
  | none =>
    rw [startEpoch_of_none he]
    refine ⟨h.named, settled_build hrole i, fun _ => h.below ?_⟩
    rw [he]
    exact fun e he' => by cases he'
  | some e =>
    rw [startEpoch_of_some he]
    exact h

lemma storeProof_same (c : EncryptedControl) (e : ℕ) : Same s (s.storeProof c e).1 := by
  rw [storeProof]
  split
  · exact Same.refl s
  split
  · exact Same.refl s
  split
  · refine same_logged ?_ e _
    intro epoch
    rfl
  · refine same_logged ?_ e _
    intro epoch
    rfl

lemma storeProof_spawns {c : EncryptedControl} {t : Task} (ht : t ∈ (s.storeProof c e).2) : t = .maybeVerify e := by
  rw [storeProof] at ht
  split at ht
  · cases ht
  split at ht
  · cases ht
  split at ht
  · cases ht
  · exact List.mem_singleton.mp ht

lemma Below.of_newer (h : Settled s acted) (he : s.epoch = some e) (hid : s.epochIdOf e ≠ Id.zero)
    (hless : (s.epochIdOf e).lessThan g = true) : Below acted g :=
  fun x hx => Id.lessThan_of_le (h e he hid x hx) hless

lemma control_leaves (crypto : Crypto κ) (hrole : s.role = .server) (hcurrent : ∀ e, s.epoch = some e → e < s.epochs.length)
    (h : Stage s acted task) (hcontrol : isControlTask task = true) (i : Input) :
    Leaves (s.advance crypto i task).1 ((s.actedOn task).toList ++ acted) (s.advance crypto i task).2 := by
  cases task with
  | convergeToPeerEpoch => exact leaves_none hrole (build_current s i) (settled_build hrole i)
  | handshakeCurrent c =>
    simp only [advance]
    cases he : s.epoch with
    | none =>
      apply leaves_one hrole hcurrent _ rfl
      refine ⟨Awaits.named h, Awaits.below h ?_, ?_⟩ <;> rw [he] <;> exact fun e he' => by cases he'
    | some e => exact leaves_one hrole hcurrent ⟨he, h⟩ rfl
  | handshakeCompare c e =>
    obtain ⟨he, hawaits⟩ := h
    simp only [advance]
    split
    · next hid =>
      simp only [Bool.or_eq_true, decide_eq_true_eq] at hid
      exact leaves_one hrole hcurrent (hawaits.mine he hid) rfl
    · next hid =>
      simp only [Bool.or_eq_true, decide_eq_true_eq, not_or] at hid
      split
      · next hless => exact leaves_one hrole hcurrent ⟨hawaits.named, .of_newer hawaits.settled he hid.1 hless⟩ rfl
      · exact leaves_none hrole hcurrent hawaits.settled
  | handshakeReset c =>
    have hbelow : Below ((s.actedOn (.handshakeReset c)).toList ++ acted) c.generation :=
      h.2.append (by rintro x ⟨⟩; rfl)
    exact leaves_one (build_role hrole i) (build_current s i) (mine_build hrole i h.1 hbelow) rfl
  | handshakeByRole c =>
    simp only [advance]
    cases he : s.epoch with
    | none =>
      dsimp only
      split
      · exact leaves_one hrole hcurrent h rfl
      · exact leaves_one hrole hcurrent h rfl
    | some e => exact leaves_one hrole hcurrent h rfl
  | handshakeClosed c e =>
    simp only [advance]
    split
    · exact leaves_one hrole hcurrent h rfl
    split
    · exact leaves_one hrole hcurrent h rfl
    · exact leaves_none hrole hcurrent (Mine.settled h)
  | handshakeFresh c =>
    exact leaves_one (build_role hrole i) (build_current s i) (mine_build hrole i (Mine.named h) (Mine.below h)) rfl
  | handshakeStart c =>
    obtain ⟨hrole', hcurrent'⟩ := startEpoch_leaves (i := i) hrole hcurrent
    exact leaves_one hrole' hcurrent' (startEpoch_mine hrole h) rfl
  | handshakeEpoch c =>
    simp only [advance]
    cases he : s.epoch with
    | none => exact leaves_none hrole hcurrent (Mine.settled h)
    | some e => exact leaves_one hrole hcurrent ⟨he, h⟩ rfl
  | handshakeAdopt c e =>
    have hnew : ∀ x ∈ s.actedOn (.handshakeAdopt c e), x = c.generation := adopts_own
    obtain ⟨hadopts, hrole', hcurrent', hcarries⟩ := adopt_carries (hcurrent e h.1) h.1 h.2 hnew
    simp only [advance]
    rw [if_pos hadopts]
    exact leaves_one (hrole'.trans hrole) hcurrent' hcarries rfl
  | handshakeDeliver c e =>
    have hsame : Same s (s.feed c e) := by
      rw [feed]
      split <;> exact same_of_epochs rfl rfl rfl
    have hcarries : Carries s ((s.actedOn (.handshakeDeliver c e)).toList ++ acted) e c.generation :=
      ⟨Carries.epoch h, Carries.id h, (Carries.below h).append (by rintro x ⟨⟩; rfl)⟩
    apply leaves_none (hsame.role.trans hrole) _ (hcarries.same hsame).settled
    intro e' he'
    rw [hsame.length]
    exact hcurrent e' (hsame.epoch ▸ he')
  | proofStart c epochId =>
    obtain ⟨hrole', hcurrent'⟩ := startEpoch_leaves (i := i) hrole hcurrent
    exact leaves_one hrole' hcurrent' ⟨h.1, startEpoch_awaits hrole h.2⟩ rfl
  | proofEpoch c epochId =>
    obtain ⟨rfl, hawaits⟩ := h
    simp only [advance]
    cases he : s.epoch with
    | none => exact leaves_none hrole hcurrent hawaits.settled
    | some e =>
      dsimp only
      rw [if_neg hawaits.named]
      exact leaves_one hrole hcurrent ⟨rfl, he, hawaits⟩ rfl
  | proofCompare c epochId e =>
    obtain ⟨rfl, he, hawaits⟩ := h
    simp only [advance, actedOn]
    by_cases hzero : s.epochIdOf e = Id.zero
    · rw [if_pos hzero, if_neg (by simp [hzero])]
      exact leaves_one hrole hcurrent ⟨rfl, he, hawaits.mine he (.inl hzero)⟩ rfl
    rw [if_neg hzero]
    by_cases hid : s.epochIdOf e = c.generation
    · rw [if_pos hid, if_neg (by rw [hid]; simp [Id.lessThan_self])]
      exact leaves_one hrole hcurrent ⟨he, hid, (hawaits.mine he (.inr hid)).below⟩ rfl
    rw [if_neg hid]
    by_cases hless : (s.epochIdOf e).lessThan c.generation = true
    · rw [if_pos hless, if_pos (by simp [hzero, hless])]
      exact leaves_one hrole hcurrent trivial rfl
    · rw [if_neg hless, if_neg (by simp [hless])]
      exact leaves_none hrole hcurrent hawaits.settled
  | proofAdopt c epochId e =>
    obtain ⟨rfl, he, hmine⟩ := h
    have hnew : ∀ x ∈ s.actedOn (.proofAdopt c c.generation e), x = c.generation := adopts_own
    obtain ⟨hadopts, hrole', hcurrent', hcarries⟩ := adopt_carries (hcurrent e he) he hmine hnew
    exact leaves_one (hrole'.trans hrole) hcurrent' hcarries rfl
  | proofStore c e =>
    have hsame := storeProof_same (s := s) c e
    have hcarries : Carries s ((s.actedOn (.proofStore c e)).toList ++ acted) e c.generation :=
      ⟨Carries.epoch h, Carries.id h, (Carries.below h).append (by rintro x ⟨⟩; rfl)⟩
    have hspawned : ∀ t ∈ (s.storeProof c e).2, t = .maybeVerify e := fun t ht => storeProof_spawns ht
    refine ⟨hsame.role.trans hrole, ?_, ?_, ?_, fun _ => (hcarries.same hsame).settled⟩
    · intro e' he'
      rw [show (s.advance crypto i (.proofStore c e)).1.epochs.length = s.epochs.length from hsame.length]
      exact hcurrent e' (hsame.epoch ▸ he')
    · intro t ht
      rw [hspawned t ht]
      rfl
    · rw [List.filter_eq_nil_iff.mpr]
      · exact Nat.zero_le 1
      · intro t ht
        rw [hspawned t ht]
        simp [isControlTask]
  | _ => cases hcontrol

end Controls

structure Orderly (w : Watch κ) : Prop where
  role : w.session.role = .server
  current : ∀ e, w.session.epoch = some e → e < w.session.epochs.length
  stages : ∀ t ∈ w.session.tasks, Stage w.session w.acted t
  single : (w.session.tasks.filter isControlTask).length ≤ 1
  settled : (∀ t ∈ w.session.tasks, isControlTask t = false) → Settled w.session w.acted

namespace Orderly

variable {w : Watch κ}

lemma background_of_stage (h : Stage s acted task) (hc : isControlTask task = false) : isBackgroundTask task = true := by
  cases task with
  | _ => first | exact h | cases hc

lemma stage_of_background (h : isBackgroundTask task = true) : Stage s acted task := by
  cases task with
  | _ => first | exact h | cases h

lemma not_control (h : isBackgroundTask task = true) : isControlTask task = false := by
  cases task with
  | _ => first | rfl | cases h

lemma start : Orderly (Watch.start κ) where
  role := rfl
  current e he := by cases he
  stages t ht := by cases ht
  single := Nat.zero_le 1
  settled _ e he := by cases he

lemma others (h : (s.tasks.filter isControlTask).length ≤ 1) {n : ℕ} (hn : s.tasks[n]? = some task)
    (hc : isControlTask task = true) : ∀ t ∈ s.tasks.take n ++ s.tasks.drop (n + 1), isControlTask t = false := by
  obtain ⟨hlt, rfl⟩ := List.getElem?_eq_some_iff.mp hn
  have hsplit : s.tasks = s.tasks.take n ++ s.tasks[n] :: s.tasks.drop (n + 1) := by
    rw [← List.drop_eq_getElem_cons hlt, List.take_append_drop]
  rw [hsplit, List.filter_append, List.filter_cons_of_pos hc, List.length_append, List.length_cons] at h
  intro t ht
  rcases List.mem_append.mp ht with ht | ht
  · have hnil := List.length_eq_zero_iff.mp (show ((s.tasks.take n).filter isControlTask).length = 0 by omega)
    simpa using List.filter_eq_nil_iff.mp hnil t ht
  · have hnil := List.length_eq_zero_iff.mp (show ((s.tasks.drop (n + 1)).filter isControlTask).length = 0 by omega)
    simpa using List.filter_eq_nil_iff.mp hnil t ht

lemma same_tasks (s : PeerEncryptionSession κ) (tasks : List Task) : Same s { s with tasks := tasks } :=
  ⟨rfl, rfl, rfl, fun _ => rfl⟩

lemma step_advance {n : ℕ} (hn : w.session.tasks[n]? = some task) (i : Input) :
    w.step crypto (.advance n i) =
      ⟨{ (w.session.advance crypto i task).1 with
          tasks := w.session.tasks.take n ++ (w.session.advance crypto i task).2 ++ w.session.tasks.drop (n + 1) },
        (w.session.actedOn task).toList ++ w.acted⟩ := by
  simp only [Watch.step, PeerEncryptionSession.step, hn, atEvent, Option.bind_some]

lemma step_control (h : Orderly w) {n : ℕ} (hn : w.session.tasks[n]? = some task) (hc : isControlTask task = true)
    (i : Input) : Orderly (w.step crypto (.advance n i)) := by
  have hothers := others h.single hn hc
  have hleaves := control_leaves crypto h.role h.current (h.stages task (List.mem_of_getElem? hn)) hc i
  have hback : ∀ t ∈ w.session.tasks.take n ++ w.session.tasks.drop (n + 1), isBackgroundTask t = true := by
    intro t ht
    apply background_of_stage (h.stages t _) (hothers t ht)
    rcases List.mem_append.mp ht with ht | ht
    · exact List.mem_of_mem_take ht
    · exact List.mem_of_mem_drop ht
  have hcases : ∀ t ∈ w.session.tasks.take n ++ (w.session.advance crypto i task).2 ++ w.session.tasks.drop (n + 1),
      isBackgroundTask t = true ∨ t ∈ (w.session.advance crypto i task).2 := by
    intro t ht
    simp only [List.mem_append] at ht
    rcases ht with (ht | ht) | ht
    · exact .inl (hback t (List.mem_append_left _ ht))
    · exact .inr ht
    · exact .inl (hback t (List.mem_append_right _ ht))
  rw [step_advance hn]
  refine ⟨hleaves.role, hleaves.current, ?_, ?_, ?_⟩
  · intro t ht
    rcases hcases t ht with hb | hspawned
    · exact stage_of_background hb
    · exact (hleaves.stages t hspawned).same (same_tasks _ _)
  · have hnone : ∀ ts : List Task, (∀ t ∈ ts, isControlTask t = false) → ts.filter isControlTask = [] := by
      intro ts hts
      rw [List.filter_eq_nil_iff]
      exact fun t ht => by simp [hts t ht]
    have htake := hnone (w.session.tasks.take n) fun t ht => hothers t (List.mem_append_left _ ht)
    have hdrop := hnone (w.session.tasks.drop (n + 1)) fun t ht => hothers t (List.mem_append_right _ ht)
    simp only [List.filter_append, htake, hdrop, List.nil_append, List.append_nil]
    exact hleaves.single
  · intro hnone
    refine (hleaves.settled fun t ht => hnone t ?_).same (same_tasks _ _)
    exact List.mem_append_left _ (List.mem_append_right _ ht)

lemma step_background (h : Orderly w) {n : ℕ} (hn : w.session.tasks[n]? = some task)
    (hc : isControlTask task = false) (i : Input) : Orderly (w.step crypto (.advance n i)) := by
  have htask := background_of_stage (h.stages task (List.mem_of_getElem? hn)) hc
  have hsame : Same w.session (w.session.advance crypto i task).1 := same_background htask i
  have hspawned : ∀ t ∈ (w.session.advance crypto i task).2, isBackgroundTask t = true :=
    fun t ht => background_spawns htask ht
  have hfilter : (w.session.advance crypto i task).2.filter isControlTask = [] := by
    rw [List.filter_eq_nil_iff]
    intro t ht
    simp [not_control (hspawned t ht)]
  obtain ⟨hlt, rfl⟩ := List.getElem?_eq_some_iff.mp hn
  have hsplit : w.session.tasks.filter isControlTask =
      (w.session.tasks.take n ++ w.session.tasks.drop (n + 1)).filter isControlTask := by
    conv_lhs => rw [← List.take_append_drop n w.session.tasks, List.drop_eq_getElem_cons hlt]
    rw [List.filter_append, List.filter_append, List.filter_cons_of_neg (by simp [hc])]
  rw [step_advance hn, (background_touches_nothing htask).1]
  refine ⟨hsame.role.trans h.role, ?_, ?_, ?_, ?_⟩
  · intro e he
    rw [show ({ (w.session.advance crypto i _).1 with tasks := _ } : PeerEncryptionSession κ).epochs.length =
      w.session.epochs.length from hsame.length]
    exact h.current e (hsame.epoch ▸ he)
  · intro t ht
    simp only [List.mem_append] at ht
    rcases ht with (ht | ht) | ht
    · exact ((h.stages t (List.mem_of_mem_take ht)).same hsame).same (same_tasks _ _)
    · exact stage_of_background (hspawned t ht)
    · exact ((h.stages t (List.mem_of_mem_drop ht)).same hsame).same (same_tasks _ _)
  · have hsingle := h.single
    rw [hsplit, List.filter_append] at hsingle
    simpa only [List.filter_append, hfilter, List.append_nil] using hsingle
  · intro hnone
    refine ((h.settled fun t ht => ?_).same hsame).same (same_tasks _ _)
    by_cases hcontrol : isControlTask t = true
    · have hmem : t ∈ w.session.tasks.filter isControlTask := List.mem_filter.mpr ⟨ht, hcontrol⟩
      rw [hsplit] at hmem
      apply hnone t
      simp only [List.mem_append]
      rcases List.mem_append.mp (List.mem_of_mem_filter hmem) with hmem | hmem
      · exact .inl (.inl hmem)
      · exact .inr hmem
    · simpa using hcontrol

lemma step_advance_orderly (h : Orderly w) (n : ℕ) (i : Input) : Orderly (w.step crypto (.advance n i)) := by
  cases hn : w.session.tasks[n]? with
  | none =>
    have hstep : w.step crypto (.advance n i) = w := by
      simp only [Watch.step, PeerEncryptionSession.step, hn, atEvent, Option.bind_none, Option.toList_none,
        List.nil_append]
    rw [hstep]
    exact h
  | some task =>
    cases hc : isControlTask task with
    | true => exact h.step_control hn hc i
    | false => exact h.step_background hn hc i

lemma call_background (h : Orderly w) {c : Call} (hc : c.tasks.all isBackgroundTask = true) :
    Orderly (w.step crypto (.call c)) := by
  have hback : ∀ t ∈ c.tasks, isBackgroundTask t = true := List.all_eq_true.mp hc
  have hfilter : c.tasks.filter isControlTask = [] := by
    rw [List.filter_eq_nil_iff]
    intro t ht
    simp [not_control (hback t ht)]
  refine ⟨h.role, h.current, ?_, ?_, ?_⟩
  · intro t ht
    rcases List.mem_append.mp ht with ht | ht
    · exact (h.stages t ht).same (same_tasks _ _)
    · exact stage_of_background (hback t ht)
  · have hsingle := h.single
    simpa only [Watch.step, PeerEncryptionSession.step, List.filter_append, hfilter, List.append_nil] using hsingle
  · intro hnone
    exact (h.settled fun t ht => hnone t (List.mem_append_left _ ht)).same (same_tasks _ _)

lemma call_control (h : Orderly w) {c : EncryptedControl} (hone : w.oneAtATime (.call (.deliverEncryptedControl c)) = true)
    (horder : w.arrivesInOrder (.call (.deliverEncryptedControl c)) = true) :
    Orderly (w.step crypto (.call (.deliverEncryptedControl c))) := by
  simp only [Watch.oneAtATime, Bool.and_eq_true, decide_eq_true_eq, List.all_eq_true, Bool.not_eq_true'] at hone
  obtain ⟨hnamed, hnone⟩ := hone
  have hsettled := h.settled hnone
  have hawaits : Awaits w.session w.acted c.generation := by
    refine ⟨hnamed, hsettled, fun hless => ?_⟩
    simp only [Watch.arrivesInOrder, Bool.or_eq_true, List.all_eq_true, Bool.not_eq_true'] at horder
    rcases horder with hid | hbelow
    · obtain ⟨e, he, hid⟩ := (Option.any_eq_true _ _).mp hid
      exact absurd (hless e he) (by simpa using hid)
    · exact hbelow
  have hnil : w.session.tasks.filter isControlTask = [] := by
    rw [List.filter_eq_nil_iff]
    intro t ht
    simp [hnone t ht]
  have htasks : deliverEncryptedControl c = [] ∨ ∃ t, deliverEncryptedControl c = [t] ∧ Stage w.session w.acted t := by
    rw [deliverEncryptedControl, if_neg (by simp [hnamed])]
    split
    · rw [if_neg hnamed]
      exact .inr ⟨_, rfl, hawaits⟩
    · exact .inr ⟨_, rfl, rfl, hawaits⟩
    · exact .inl rfl
  refine ⟨h.role, h.current, ?_, ?_, fun _ => hsettled.same (same_tasks _ _)⟩
  · intro t ht
    rcases List.mem_append.mp ht with ht | ht
    · exact (h.stages t ht).same (same_tasks _ _)
    · rcases htasks with he | ⟨t', he, hstage⟩
      · rw [Call.tasks, he] at ht
        cases ht
      · rw [Call.tasks, he, List.mem_singleton] at ht
        rw [ht]
        exact hstage.same (same_tasks _ _)
  · simp only [Watch.step, PeerEncryptionSession.step, List.filter_append, hnil, List.nil_append, Call.tasks]
    rcases htasks with he | ⟨t', he, -⟩
    · simp [he]
    · rw [he]
      exact (List.length_filter_le _ _).trans le_rfl

lemma step (h : Orderly w) (event : Event) (hone : w.oneAtATime event = true) (horder : w.arrivesInOrder event = true) :
    Orderly (w.step crypto event) := by
  cases event with
  | advance n i => exact h.step_advance_orderly n i
  | call c =>
    cases c with
    | deliverEncryptedControl c => exact h.call_control hone horder
    | _ => exact h.call_background hone

lemma keepsOrder (h : Orderly w) (event : Event) : w.KeepsOrder event := by
  intro g hg
  cases event with
  | call c => cases hg
  | advance n i =>
    obtain ⟨task, hn, ht⟩ := Option.bind_eq_some_iff.mp hg
    exact touched_below (h.stages task (List.mem_of_getElem? hn)) ht

end Orderly

/-- While no control older than one acted on arrives at an epoch that carries no id, the generations that are adopted,
fed and buffered never go back. -/
theorem generations_keep_their_order (crypto : Crypto κ) {events : List Event}
    (hrun : Meets (fun w event => w.oneAtATime event = true ∧ w.arrivesInOrder event = true) (Watch.step crypto)
      (Watch.start κ) events) :
    Meets Watch.KeepsOrder (Watch.step crypto) (Watch.start κ) events := by
  have hmeets : ∀ w : Watch κ, Orderly w →
      Meets (fun w event => w.oneAtATime event = true ∧ w.arrivesInOrder event = true) (Watch.step crypto) w events →
      Meets Watch.KeepsOrder (Watch.step crypto) w events := by
    clear hrun
    induction events with
    | nil => exact fun _ _ _ => trivial
    | cons event events ih => exact fun w hw h => ⟨hw.keepsOrder event, ih _ (hw.step event h.1.1 h.1.2) h.2⟩
  exact hmeets _ Orderly.start hrun

def helloOf (g : UInt8) : EncryptedControl where
  controlType := .handshake
  payload := [22, 3, 1, 0, 1, 1]
  epochId := (Id.ofByte g).bytes

def inOrderRun : List Event :=
  alone (.deliverEncryptedControl (helloOf 5)) 7 ++ alone (.deliverEncryptedControl (epochProof 6)) 4 ++
    alone (.deliverEncryptedControl (helloOf 7)) 8 ++ alone (.deliverEncryptedControl (helloOf 3)) 2

theorem generations_keep_their_order_in_a_run :
    (run (Watch.step echoCrypto) (Watch.start ℕ) inOrderRun).session.epochIdOf 1 = Id.ofByte 7 ∧
      Meets Watch.KeepsOrder (Watch.step echoCrypto) (Watch.start ℕ) inOrderRun :=
  ⟨by decide +kernel, generations_keep_their_order echoCrypto (by decide +kernel)⟩

/-- Generation 5 is adopted, a proof of generation 7 rebuilds the session, and the flight of generation 3 comes late, up
to the section that adopts it. -/
def stragglerRun : List Event :=
  alone (.deliverEncryptedControl (helloOf 5)) 7 ++ alone (.deliverEncryptedControl (epochProof 6)) 4 ++
    alone (.deliverEncryptedControl (helloOf 3)) 6

theorem older_generation_is_adopted :
    let w := run (Watch.step echoCrypto) (Watch.start ℕ) stragglerRun
    Meets (fun w event => w.oneAtATime event = true) (Watch.step echoCrypto) (Watch.start ℕ) stragglerRun ∧
      Id.ofByte 5 ∈ w.acted ∧ Id.ofByte 7 ∈ w.acted ∧
      w.session.atEvent w.session.touched (.advance 0 quietInput) = some (Id.ofByte 3) ∧
      (Id.ofByte 3).lessThan (Id.ofByte 5) = true ∧
      (w.step echoCrypto (.advance 0 quietInput)).session.epoch = some 1 ∧
      (w.step echoCrypto (.advance 0 quietInput)).session.epochIdOf 1 = Id.ofByte 3 := by
  decide +kernel

end Encrypt.PeerEncryptionSession

end UrConnect
