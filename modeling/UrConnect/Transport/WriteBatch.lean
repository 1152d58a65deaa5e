import Mathlib
import UrConnect.Lib.Runs

/-! The connection that combines ready WebSocket frames into one write, and the byte stream that it keeps. -/

namespace UrConnect.Transport.WriteBatch

open UrConnect.Lib

def webSocketWriteBatchMaxByteCount : ℕ := 16 * 1024

inductive Call
  | beginWriteBatch
  | flushWriteBatch
  | write (buffer : List UInt8)

/-- Where the call that holds the lock is. A flush goes on to the buffer of the `Write` that it is part of, and
`counted` says that the connection had not failed when the write of a buffer began. -/
inductive Phase
  | start (call : Call)
  | checked (buffer : List UInt8)
  | flush (next : Option (List UInt8))
  | flushed (buffer : List UInt8)
  | flushing (next : Option (List UInt8)) (sent : ℕ)
  | writing (buffer : List UInt8) (counted : Bool) (sent : ℕ)

inductive Outcome
  | accepted
  | broke
  | refused
deriving DecidableEq

/-- A call is known by its number, from one on. The connection has received `delivered`, each byte from a call. `shortFails` says
that a short write without an error is a failure of the connection too. -/
structure WriteBatchConn (ε : Type) where
  shortFails : Bool
  writeBuffer : List UInt8
  batching : Bool
  deadlineError : Option ε
  failed : Bool
  delivered : List (ℕ × UInt8)
  calls : ℕ
  holder : Option Phase
  log : List (List UInt8 × Outcome)

inductive Event (ε : Type)
  | enter (call : Call)
  | advance
  | deliver
  | finish (err : Bool)
  | observeDeadlineError (err : ε)
  | close

namespace WriteBatchConn

variable {ε : Type}

def new (shortFails : Bool) : WriteBatchConn ε := ⟨shortFails, [], false, none, false, [], 0, none, []⟩

def release (w : WriteBatchConn ε) : WriteBatchConn ε := { w with holder := none }

def at_ (w : WriteBatchConn ε) (phase : Phase) : WriteBatchConn ε := { w with holder := some phase }

def returned (w : WriteBatchConn ε) (buffer : List UInt8) (outcome : Outcome) : WriteBatchConn ε :=
  { w with holder := none, log := w.log ++ [(buffer, outcome)] }

def flushReturned (w : WriteBatchConn ε) (failed : Bool) : Option (List UInt8) → WriteBatchConn ε
  | none => w.release
  | some buffer => if failed then w.returned buffer .refused else w.at_ (.flushed buffer)

def enter (w : WriteBatchConn ε) (call : Call) : WriteBatchConn ε :=
  match w.holder with
  | some _ => w
  | none => { w.at_ (.start call) with calls := w.calls + 1 }

def advance (w : WriteBatchConn ε) : WriteBatchConn ε :=
  match w.holder with
  | none => w
  | some (.start .beginWriteBatch) =>
    if w.deadlineError.isSome then { w.release with batching := false, writeBuffer := [] }
    else if w.batching then w.release
    else { w.release with batching := true, writeBuffer := [] }
  | some (.start .flushWriteBatch) =>
    if w.deadlineError.isSome then { w.release with batching := false, writeBuffer := [] }
    else if !w.batching then w.release
    else { w.at_ (.flush none) with batching := false }
  | some (.start (.write buffer)) =>
    if w.deadlineError.isSome then { w.returned buffer .refused with writeBuffer := [] }
    else w.at_ (.checked buffer)
  | some (.checked buffer) =>
    if !w.batching then w.at_ (.writing buffer (!w.failed) 0)
    else if webSocketWriteBatchMaxByteCount < w.writeBuffer.length + buffer.length then w.at_ (.flush (some buffer))
    else w.at_ (.flushed buffer)
  | some (.flush next) =>
    if w.deadlineError.isSome then { w with writeBuffer := [] }.flushReturned true next
    else if w.writeBuffer.length = 0 then w.flushReturned false next
    else w.at_ (.flushing next 0)
  | some (.flushed buffer) =>
    if webSocketWriteBatchMaxByteCount < buffer.length then w.at_ (.writing buffer (!w.failed) 0)
    else { w.returned buffer .accepted with writeBuffer := w.writeBuffer ++ buffer }
  | some (.flushing ..) => w
  | some (.writing ..) => w

def deliver (w : WriteBatchConn ε) : WriteBatchConn ε :=
  match w.holder with
  | some (.flushing next sent) =>
    if w.failed then w
    else match w.writeBuffer[sent]? with
      | none => w
      | some byte => { w.at_ (.flushing next (sent + 1)) with delivered := w.delivered ++ [(w.calls, byte)] }
  | some (.writing buffer counted sent) =>
    if w.failed then w
    else match buffer[sent]? with
      | none => w
      | some byte =>
        { w.at_ (.writing buffer counted (sent + 1)) with delivered := w.delivered ++ [(w.calls, byte)] }
  | _ => w

def finish (w : WriteBatchConn ε) (err : Bool) : WriteBatchConn ε :=
  match w.holder with
  | some (.flushing next sent) =>
    let failed := w.failed || err
    let short := decide (sent ≠ w.writeBuffer.length)
    { w with failed := failed || (short && w.shortFails), writeBuffer := [] }.flushReturned (failed || short) next
  | some (.writing buffer counted sent) =>
    let failed := w.failed || err
    let short := decide (sent ≠ buffer.length)
    { w with failed := failed || (short && w.shortFails) }.returned buffer
      (if failed then (if counted then .broke else .refused) else .accepted)
  | _ => w

def observeDeadlineError (w : WriteBatchConn ε) (err : ε) : WriteBatchConn ε :=
  match w.deadlineError with
  | some _ => w
  | none => { w with deadlineError := some err }

def step (w : WriteBatchConn ε) : Event ε → WriteBatchConn ε
  | .enter call => w.enter call
  | .advance => w.advance
  | .deliver => w.deliver
  | .finish err => w.finish err
  | .observeDeadlineError err => w.observeDeadlineError err
  | .close => { w with failed := true }

def bytes (w : WriteBatchConn ε) : List UInt8 := w.delivered.map Prod.snd

def accepted (w : WriteBatchConn ε) : List UInt8 :=
  (w.log.filter fun r => decide (r.2 = .accepted)).flatMap Prod.fst

def offered (w : WriteBatchConn ε) : List UInt8 :=
  (w.log.filter fun r => decide (r.2 ≠ .refused)).flatMap Prod.fst

def beingWritten (w : WriteBatchConn ε) : List UInt8 :=
  match w.holder with
  | some (.writing buffer true _) => buffer
  | _ => []

def pending (w : WriteBatchConn ε) : List UInt8 :=
  match w.holder with
  | some (.flushing _ sent) => w.writeBuffer.drop sent
  | some (.writing buffer _ sent) => buffer.drop sent
  | _ => w.writeBuffer

def breaks (w : WriteBatchConn ε) : ℕ := w.log.countP fun r => decide (r.2 = .broke)

def Underway (w : WriteBatchConn ε) : Prop :=
  match w.holder with
  | none => False
  | some (.start _) => False
  | _ => True

def Fits (w : WriteBatchConn ε) (buffer : List UInt8) : Prop :=
  w.writeBuffer.length + buffer.length ≤ webSocketWriteBatchMaxByteCount

def Poised (w : WriteBatchConn ε) : Option Phase → Prop
  | some (.flush none) => w.batching = false
  | some (.flush (some _)) => w.batching = true
  | some (.flushed buffer) => w.batching = true ∧ (w.writeBuffer = [] ∨ w.Fits buffer)
  | some (.flushing none sent) => w.batching = false ∧ sent ≤ w.writeBuffer.length
  | some (.flushing (some _) sent) => w.batching = true ∧ sent ≤ w.writeBuffer.length
  | some (.writing buffer counted sent) => w.writeBuffer = [] ∧ sent ≤ buffer.length ∧
      (counted = false → w.failed = true) ∧ (counted = true → w.breaks = 0)
  | _ => w.batching = false → w.writeBuffer = []

structure Sound (w : WriteBatchConn ε) : Prop where
  shortFails : w.shortFails = true
  poised : w.Poised w.holder
  size : w.writeBuffer.length ≤ webSocketWriteBatchMaxByteCount
  stream : w.bytes <+: w.offered ++ w.beingWritten
  whole : w.failed = false → (w.deadlineError = none ∨ w.Underway) → w.bytes ++ w.pending = w.offered ++ w.beingWritten
  breaks_le : w.breaks ≤ 1
  breaks : w.failed = false → w.breaks = 0
  accepts : w.failed = false → w.deadlineError = none → ∀ r ∈ w.log, r.2 = .accepted

variable {w v : WriteBatchConn ε}

lemma sound_new : Sound (new true : WriteBatchConn ε) where
  shortFails := rfl
  poised := fun _ => rfl
  size := Nat.zero_le _
  stream := List.prefix_rfl
  whole := fun _ _ => rfl
  breaks_le := Nat.zero_le _
  breaks := fun _ => rfl
  accepts := fun _ _ _ hr => absurd hr List.not_mem_nil

structure Moves (w v : WriteBatchConn ε) : Prop where
  shortFails : v.shortFails = w.shortFails
  writeBuffer : v.writeBuffer = w.writeBuffer
  deadlineError : v.deadlineError = w.deadlineError
  failed : v.failed = w.failed
  delivered : v.delivered = w.delivered
  log : v.log = w.log

lemma Sound.moves (h : Sound w) (hv : Moves w v) (hpoised : v.Poised v.holder) (hpending : v.pending = w.pending)
    (hwritten : v.beingWritten = w.beingWritten) (hunderway : v.Underway → w.deadlineError = none ∨ w.Underway) :
    Sound v := by
  have hbytes : v.bytes = w.bytes := congrArg (List.map Prod.snd) hv.delivered
  have hoffered : v.offered = w.offered := by rw [offered, offered, hv.log]
  have hbreaks : v.breaks = w.breaks := by rw [WriteBatchConn.breaks, hv.log, WriteBatchConn.breaks]
  refine ⟨hv.shortFails.trans h.shortFails, hpoised, ?_, ?_, fun hfailed hlatch => ?_, ?_, fun hfailed => ?_,
    fun hfailed hlatch => ?_⟩
  · rw [hv.writeBuffer]
    exact h.size
  · rw [hbytes, hoffered, hwritten]
    exact h.stream
  · rw [hbytes, hoffered, hwritten, hpending]
    rw [hv.failed] at hfailed
    rw [hv.deadlineError] at hlatch
    exact h.whole hfailed (hlatch.elim .inl hunderway)
  · rw [hbreaks]
    exact h.breaks_le
  · rw [hbreaks]
    exact h.breaks (hv.failed ▸ hfailed)
  · rw [hv.log]
    exact h.accepts (hv.failed ▸ hfailed) (hv.deadlineError ▸ hlatch)

lemma offered_returned (w : WriteBatchConn ε) (buffer : List UInt8) (outcome : Outcome) :
    (w.returned buffer outcome).offered = w.offered ++ if outcome = .refused then [] else buffer := by
  rw [offered, returned, List.filter_append, List.flatMap_append, ← offered]
  cases outcome <;> simp

lemma breaks_returned (w : WriteBatchConn ε) (buffer : List UInt8) (outcome : Outcome) :
    (w.returned buffer outcome).breaks = w.breaks + if outcome = .broke then 1 else 0 := by
  rw [WriteBatchConn.breaks, returned, List.countP_append, ← WriteBatchConn.breaks]
  cases outcome <;> simp

lemma Sound.lose (h : Sound w) (hholder : v.holder = none) (hbuffer : v.writeBuffer = [])
    (hshort : v.shortFails = w.shortFails) (hdelivered : v.delivered = w.delivered) (hoffered : v.offered = w.offered)
    (hbreaks : v.breaks = w.breaks) (hwritten : w.beingWritten = []) (hfailed : v.failed = false → w.failed = false)
    (hlost : v.failed = true ∨ v.deadlineError ≠ none) : Sound v := by
  have hdead : v.failed = false → v.deadlineError ≠ none :=
    fun hok => hlost.resolve_left (Bool.eq_false_iff.mp hok)
  refine ⟨hshort.trans h.shortFails, ?_, ?_, ?_, fun hok hlatch => ?_, ?_, fun hok => ?_, fun hok hnone => ?_⟩
  · rw [hholder]
    exact fun _ => hbuffer
  · rw [hbuffer]
    exact Nat.zero_le _
  · have hstream := h.stream
    rw [hwritten, List.append_nil] at hstream
    rw [bytes, hdelivered, hoffered]
    exact hstream.trans (List.prefix_append _ _)
  · rcases hlatch with hnone | hunderway
    · exact absurd hnone (hdead hok)
    · rw [Underway, hholder] at hunderway
      exact hunderway.elim
  · rw [hbreaks]
    exact h.breaks_le
  · rw [hbreaks]
    exact h.breaks (hfailed hok)
  · exact absurd hnone (hdead hok)

lemma Sound.flushReturned_lose (h : Sound w) (hbuffer : v.writeBuffer = []) (hshort : v.shortFails = w.shortFails)
    (hdelivered : v.delivered = w.delivered) (hlog : v.log = w.log) (hwritten : w.beingWritten = [])
    (hfailed : v.failed = false → w.failed = false) (hlost : v.failed = true ∨ v.deadlineError ≠ none)
    (next : Option (List UInt8)) : Sound (v.flushReturned true next) := by
  have hoffered : v.offered = w.offered := by rw [offered, hlog, offered]
  have hbreaks : v.breaks = w.breaks := by rw [WriteBatchConn.breaks, hlog, WriteBatchConn.breaks]
  cases next with
  | none => exact h.lose rfl hbuffer hshort hdelivered hoffered hbreaks hwritten hfailed hlost
  | some buffer =>
    rw [flushReturned, if_pos rfl]
    refine h.lose (v := v.returned buffer .refused) rfl hbuffer hshort hdelivered ?_ ?_ hwritten hfailed hlost
    · rw [offered_returned, if_pos rfl, List.append_nil, hoffered]
    · rw [breaks_returned, if_neg (by decide), hbreaks, Nat.add_zero]

lemma Sound.beginWriting (h : Sound w) (hunderway : w.Underway) (hpending : w.pending = [])
    (hbuffer : w.writeBuffer = []) (hwritten : w.beingWritten = []) (buffer : List UInt8) :
    Sound (w.at_ (.writing buffer (!w.failed) 0)) := by
  have hstream := h.stream
  rw [hwritten, List.append_nil] at hstream
  refine ⟨h.shortFails, ⟨hbuffer, Nat.zero_le _, fun hcounted => ?_, fun hcounted => ?_⟩, h.size, ?_,
    fun hok hlatch => ?_, h.breaks_le, h.breaks, h.accepts⟩
  · exact (Bool.not_eq_false' _).mp hcounted
  · exact h.breaks ((Bool.not_eq_true' _).mp hcounted)
  · exact hstream.trans (List.prefix_append _ _)
  · have hwhole := h.whole hok (.inr hunderway)
    rw [hpending, hwritten, List.append_nil, List.append_nil] at hwhole
    have hok' : w.failed = false := hok
    change w.bytes ++ buffer = w.offered ++ beingWritten (w.at_ (.writing buffer (!w.failed) 0))
    rw [hwhole, hok']
    rfl

lemma Sound.retain (h : Sound w) {buffer : List UInt8} (hholder : w.holder = some (.flushed buffer))
    (hsmall : ¬ webSocketWriteBatchMaxByteCount < buffer.length) :
    Sound { w.returned buffer .accepted with writeBuffer := w.writeBuffer ++ buffer } := by
  have hpoised := h.poised
  rw [hholder] at hpoised
  have hwritten : w.beingWritten = [] := by rw [beingWritten, hholder]
  have hunderway : w.Underway := by rw [Underway, hholder]; trivial
  have hpending : w.pending = w.writeBuffer := by rw [pending, hholder]
  have hoffered := offered_returned w buffer .accepted
  have hbreaks := breaks_returned w buffer .accepted
  rw [if_neg (by decide)] at hoffered hbreaks
  have hstream := h.stream
  rw [hwritten, List.append_nil] at hstream
  refine ⟨h.shortFails, fun hbatching => ?_, ?_, ?_, fun hok _ => ?_, ?_, fun hok => ?_, fun hok hnone r hr => ?_⟩
  · exact absurd (hpoised.1.symm.trans hbatching) (by simp)
  · rw [List.length_append]
    rcases hpoised.2 with hempty | hfits
    · rw [hempty, List.length_nil]
      omega
    · exact hfits
  · change w.bytes <+: (w.returned buffer .accepted).offered ++ []
    rw [hoffered, List.append_nil]
    exact hstream.trans (List.prefix_append _ _)
  · have hwhole := h.whole hok (.inr hunderway)
    rw [hpending, hwritten, List.append_nil] at hwhole
    change w.bytes ++ (w.writeBuffer ++ buffer) = (w.returned buffer .accepted).offered ++ []
    rw [hoffered, List.append_nil, ← List.append_assoc, hwhole]
  · exact hbreaks.le.trans h.breaks_le
  · exact hbreaks.trans (h.breaks hok)
  · rcases List.mem_append.mp hr with hr | hr
    · exact h.accepts hok hnone r hr
    · rw [List.mem_singleton.mp hr]

lemma Moves.at_ (w : WriteBatchConn ε) (phase : Phase) : Moves w (w.at_ phase) := ⟨rfl, rfl, rfl, rfl, rfl, rfl⟩

lemma Moves.release (w : WriteBatchConn ε) : Moves w w.release := ⟨rfl, rfl, rfl, rfl, rfl, rfl⟩

lemma Sound.enter (h : Sound w) (call : Call) : Sound (w.enter call) := by
  rw [WriteBatchConn.enter]
  cases hholder : w.holder with
  | some phase => exact h
  | none =>
    have hpoised := h.poised
    rw [hholder] at hpoised
    refine h.moves ⟨rfl, rfl, rfl, rfl, rfl, rfl⟩ hpoised ?_ ?_ (fun hunderway => hunderway.elim)
    · rw [pending, pending, hholder]
      rfl
    · rw [beingWritten, beingWritten, hholder]
      rfl

lemma Sound.advance_begin (h : Sound w) (hholder : w.holder = some (.start .beginWriteBatch)) : Sound w.advance := by
  have hpoised := h.poised
  have hpending : w.pending = w.writeBuffer := by rw [pending, hholder]
  have hwritten : w.beingWritten = [] := by rw [beingWritten, hholder]
  rw [hholder] at hpoised
  rw [WriteBatchConn.advance, hholder]
  dsimp only
  by_cases hlatch : w.deadlineError.isSome = true
  · rw [if_pos hlatch]
    exact h.lose rfl rfl rfl rfl rfl rfl hwritten id (.inr (Option.isSome_iff_ne_none.mp hlatch))
  rw [if_neg hlatch]
  by_cases hbatching : w.batching = true
  · rw [if_pos hbatching]
    exact h.moves (.release w) hpoised hpending.symm hwritten.symm (fun hunderway => hunderway.elim)
  · rw [if_neg hbatching]
    have hempty : w.writeBuffer = [] := hpoised (Bool.eq_false_iff.mpr hbatching)
    refine h.moves ⟨rfl, hempty.symm, rfl, rfl, rfl, rfl⟩ (fun _ => rfl) ?_ hwritten.symm
      (fun hunderway => hunderway.elim)
    rw [hpending, hempty]
    rfl

lemma Sound.advance_flushBatch (h : Sound w) (hholder : w.holder = some (.start .flushWriteBatch)) :
    Sound w.advance := by
  have hpoised := h.poised
  have hpending : w.pending = w.writeBuffer := by rw [pending, hholder]
  have hwritten : w.beingWritten = [] := by rw [beingWritten, hholder]
  rw [hholder] at hpoised
  rw [WriteBatchConn.advance, hholder]
  dsimp only
  by_cases hlatch : w.deadlineError.isSome = true
  · rw [if_pos hlatch]
    exact h.lose rfl rfl rfl rfl rfl rfl hwritten id (.inr (Option.isSome_iff_ne_none.mp hlatch))
  rw [if_neg hlatch]
  cases hbatching : w.batching with
  | false => exact h.moves (.release w) hpoised hpending.symm hwritten.symm (fun hunderway => hunderway.elim)
  | true =>
    refine h.moves ⟨rfl, rfl, rfl, rfl, rfl, rfl⟩ rfl hpending.symm hwritten.symm (fun _ => .inl ?_)
    simpa using hlatch

lemma Sound.advance_write (h : Sound w) {buffer : List UInt8} (hholder : w.holder = some (.start (.write buffer))) :
    Sound w.advance := by
  have hpoised := h.poised
  have hpending : w.pending = w.writeBuffer := by rw [pending, hholder]
  have hwritten : w.beingWritten = [] := by rw [beingWritten, hholder]
  rw [hholder] at hpoised
  rw [WriteBatchConn.advance, hholder]
  dsimp only
  by_cases hlatch : w.deadlineError.isSome = true
  · rw [if_pos hlatch]
    refine h.lose rfl rfl rfl rfl ?_ ?_ hwritten id (.inr (Option.isSome_iff_ne_none.mp hlatch))
    · exact (offered_returned w buffer .refused).trans (by rw [if_pos rfl, List.append_nil])
    · exact breaks_returned w buffer .refused
  · rw [if_neg hlatch]
    refine h.moves (.at_ w _) hpoised hpending.symm hwritten.symm (fun _ => .inl ?_)
    simpa using hlatch

lemma Sound.advance_checked (h : Sound w) {buffer : List UInt8} (hholder : w.holder = some (.checked buffer)) :
    Sound w.advance := by
  have hpoised := h.poised
  have hpending : w.pending = w.writeBuffer := by rw [pending, hholder]
  have hwritten : w.beingWritten = [] := by rw [beingWritten, hholder]
  have hunderway : w.Underway := by rw [Underway, hholder]; trivial
  rw [hholder] at hpoised
  rw [WriteBatchConn.advance, hholder]
  dsimp only
  cases hbatching : w.batching with
  | false =>
    have hempty := hpoised hbatching
    exact h.beginWriting hunderway (hpending.trans hempty) hempty hwritten buffer
  | true =>
    rw [Bool.not_true, if_neg Bool.false_ne_true]
    split
    · exact h.moves (.at_ w _) hbatching hpending.symm hwritten.symm (fun _ => .inr hunderway)
    · next hfits =>
      exact h.moves (.at_ w _) ⟨hbatching, .inr (not_lt.mp hfits)⟩ hpending.symm hwritten.symm
        (fun _ => .inr hunderway)

lemma Sound.advance_flush (h : Sound w) {next : Option (List UInt8)} (hholder : w.holder = some (.flush next)) :
    Sound w.advance := by
  have hpoised := h.poised
  have hpending : w.pending = w.writeBuffer := by rw [pending, hholder]
  have hwritten : w.beingWritten = [] := by rw [beingWritten, hholder]
  have hunderway : w.Underway := by rw [Underway, hholder]; trivial
  rw [hholder] at hpoised
  rw [WriteBatchConn.advance, hholder]
  dsimp only
  by_cases hlatch : w.deadlineError.isSome = true
  · rw [if_pos hlatch]
    exact h.flushReturned_lose (v := { w with writeBuffer := [] }) rfl rfl rfl rfl hwritten id
      (.inr (Option.isSome_iff_ne_none.mp hlatch)) next
  rw [if_neg hlatch]
  by_cases hempty : w.writeBuffer.length = 0
  · rw [if_pos hempty]
    have hnil := List.eq_nil_of_length_eq_zero hempty
    cases next with
    | none => exact h.moves (.release w) (fun _ => hnil) hpending.symm hwritten.symm (fun hunderway => hunderway.elim)
    | some buffer =>
      exact h.moves (.at_ w _) ⟨hpoised, .inl hnil⟩ hpending.symm hwritten.symm (fun _ => .inr hunderway)
  · rw [if_neg hempty]
    refine h.moves (.at_ w _) ?_ hpending.symm hwritten.symm (fun _ => .inr hunderway)
    cases next with
    | none => exact ⟨hpoised, Nat.zero_le _⟩
    | some buffer => exact ⟨hpoised, Nat.zero_le _⟩

lemma Sound.advance_flushed (h : Sound w) {buffer : List UInt8} (hholder : w.holder = some (.flushed buffer)) :
    Sound w.advance := by
  have hpoised := h.poised
  have hpending : w.pending = w.writeBuffer := by rw [pending, hholder]
  have hwritten : w.beingWritten = [] := by rw [beingWritten, hholder]
  have hunderway : w.Underway := by rw [Underway, hholder]; trivial
  rw [hholder] at hpoised
  rw [WriteBatchConn.advance, hholder]
  dsimp only
  by_cases hlarge : webSocketWriteBatchMaxByteCount < buffer.length
  · rw [if_pos hlarge]
    have hempty : w.writeBuffer = [] := by
      rcases hpoised.2 with hempty | hfits
      · exact hempty
      · rw [Fits] at hfits
        omega
    exact h.beginWriting hunderway (hpending.trans hempty) hempty hwritten buffer
  · rw [if_neg hlarge]
    exact h.retain hholder hlarge

lemma Sound.advance (h : Sound w) : Sound w.advance := by
  cases hholder : w.holder with
  | none =>
    rw [WriteBatchConn.advance, hholder]
    exact h
  | some phase =>
    cases phase with
    | start call =>
      cases call with
      | beginWriteBatch => exact h.advance_begin hholder
      | flushWriteBatch => exact h.advance_flushBatch hholder
      | write buffer => exact h.advance_write hholder
    | checked buffer => exact h.advance_checked hholder
    | flush next => exact h.advance_flush hholder
    | flushed buffer => exact h.advance_flushed hholder
    | flushing next sent =>
      rw [WriteBatchConn.advance, hholder]
      exact h
    | writing buffer counted sent =>
      rw [WriteBatchConn.advance, hholder]
      exact h

lemma Sound.deliver_byte (h : Sound w) (hok : w.failed = false) (hunderway : w.Underway) (byte : UInt8)
    (hpending : w.pending = byte :: v.pending) (hshort : v.shortFails = w.shortFails) (hpoised : v.Poised v.holder)
    (hbuffer : v.writeBuffer = w.writeBuffer) (hbytes : v.bytes = w.bytes ++ [byte]) (hlog : v.log = w.log)
    (hwritten : v.beingWritten = w.beingWritten) (hfailed : v.failed = w.failed)
    (hlatch : v.deadlineError = w.deadlineError) : Sound v := by
  have hoffered : v.offered = w.offered := by rw [offered, hlog, offered]
  have hbreaks : v.breaks = w.breaks := by rw [WriteBatchConn.breaks, hlog, WriteBatchConn.breaks]
  have hwhole : v.bytes ++ v.pending = v.offered ++ v.beingWritten := by
    have hw := h.whole hok (.inr hunderway)
    rw [hpending, List.append_cons] at hw
    rw [hbytes, hw, hoffered, hwritten]
  refine ⟨hshort.trans h.shortFails, hpoised, ?_, ?_, fun _ _ => hwhole, ?_, ?_, ?_⟩
  · rw [hbuffer]
    exact h.size
  · rw [← hwhole]
    exact List.prefix_append _ _
  · rw [hbreaks]
    exact h.breaks_le
  · rw [hbreaks, hfailed]
    exact h.breaks
  · rw [hlog, hfailed, hlatch]
    exact h.accepts

lemma Sound.deliver (h : Sound w) : Sound w.deliver := by
  have hpoised := h.poised
  rw [WriteBatchConn.deliver]
  split
  · next next sent hholder =>
    rw [hholder] at hpoised
    by_cases hfailed : w.failed = true
    · rw [if_pos hfailed]
      exact h
    rw [if_neg hfailed]
    cases hbyte : w.writeBuffer[sent]? with
    | none => exact h
    | some byte =>
      obtain ⟨hlt, hget⟩ := List.getElem?_eq_some_iff.mp hbyte
      refine h.deliver_byte (Bool.eq_false_iff.mpr hfailed) (by rw [Underway, hholder]; trivial) byte ?_ rfl
        ?_ rfl ?_ rfl ?_ rfl rfl
      · rw [pending, hholder, ← hget]
        exact List.drop_eq_getElem_cons hlt
      · cases next with
        | none => exact ⟨hpoised.1, hlt⟩
        | some buffer => exact ⟨hpoised.1, hlt⟩
      · exact List.map_append
      · rw [beingWritten, beingWritten, hholder]
        rfl
  · next buffer counted sent hholder =>
    rw [hholder] at hpoised
    by_cases hfailed : w.failed = true
    · rw [if_pos hfailed]
      exact h
    rw [if_neg hfailed]
    cases hbyte : buffer[sent]? with
    | none => exact h
    | some byte =>
      obtain ⟨hlt, hget⟩ := List.getElem?_eq_some_iff.mp hbyte
      refine h.deliver_byte (Bool.eq_false_iff.mpr hfailed) (by rw [Underway, hholder]; trivial) byte ?_ rfl
        ⟨hpoised.1, hlt, hpoised.2.2⟩ rfl ?_ rfl ?_ rfl rfl
      · rw [pending, hholder, ← hget]
        exact List.drop_eq_getElem_cons hlt
      · exact List.map_append
      · rw [beingWritten, beingWritten, hholder]
        cases counted <;> rfl
  · exact h

lemma finish_flushing_eq (hshort : w.shortFails = true) {next : Option (List UInt8)} {sent : ℕ}
    (hholder : w.holder = some (.flushing next sent)) (err : Bool) :
    w.finish err = { w with
      failed := w.failed || err || decide (sent ≠ w.writeBuffer.length)
      writeBuffer := [] }.flushReturned (w.failed || err || decide (sent ≠ w.writeBuffer.length)) next := by
  cases w
  cases hshort
  cases hholder
  simp only [finish, Bool.and_true]

lemma finish_writing_eq (hshort : w.shortFails = true) {buffer : List UInt8} {counted : Bool} {sent : ℕ}
    (hholder : w.holder = some (.writing buffer counted sent)) (err : Bool) :
    w.finish err = { w with failed := w.failed || err || decide (sent ≠ buffer.length) }.returned buffer
      (if (w.failed || err) = true then (if counted = true then .broke else .refused) else .accepted) := by
  cases w
  cases hshort
  cases hholder
  simp only [finish, Bool.and_true]

lemma Sound.finish_flushing (h : Sound w) {next : Option (List UInt8)} {sent : ℕ}
    (hholder : w.holder = some (.flushing next sent)) (err : Bool) : Sound (w.finish err) := by
  have hpoised := h.poised
  have hwritten : w.beingWritten = [] := by rw [beingWritten, hholder]
  have hunderway : w.Underway := by rw [Underway, hholder]; trivial
  rw [hholder] at hpoised
  rw [finish_flushing_eq h.shortFails hholder]
  cases hbad : (w.failed || err || decide (sent ≠ w.writeBuffer.length)) with
  | true =>
    exact h.flushReturned_lose (v := { w with failed := true, writeBuffer := [] }) rfl rfl rfl rfl hwritten
      (fun hok => absurd hok (by simp)) (.inl rfl) next
  | false =>
    rw [Bool.or_eq_false_iff, Bool.or_eq_false_iff, decide_eq_false_iff_not, not_not] at hbad
    obtain ⟨⟨hok, -⟩, hall⟩ := hbad
    have hwhole := h.whole hok (.inr hunderway)
    have hpending : w.pending = [] := by
      rw [pending, hholder, hall]
      exact List.drop_length
    rw [hpending, hwritten, List.append_nil, List.append_nil] at hwhole
    -- Everything that was retained has been sent.
    have hsound : ∀ v : WriteBatchConn ε, v.shortFails = true → v.Poised v.holder → v.writeBuffer = [] →
        v.bytes = w.bytes → v.log = w.log → v.pending = [] → v.beingWritten = [] →
        v.failed = false → v.deadlineError = w.deadlineError → Sound v := by
      intro v hshort hv_poised hbuffer hbytes hlog hv_pending hv_written hv_ok hlatch
      have hoffered : v.offered = w.offered := by rw [offered, hlog, offered]
      have hbreaks : v.breaks = 0 := by
        rw [WriteBatchConn.breaks, hlog]
        exact h.breaks hok
      have hv_whole : v.bytes ++ v.pending = v.offered ++ v.beingWritten := by
        rw [hv_pending, hv_written, List.append_nil, List.append_nil, hbytes, hoffered, hwhole]
      refine ⟨hshort, hv_poised, ?_, ?_, fun _ _ => hv_whole, ?_, fun _ => hbreaks, fun _ hnone => ?_⟩
      · rw [hbuffer]
        exact Nat.zero_le _
      · rw [← hv_whole]
        exact List.prefix_append _ _
      · rw [hbreaks]
        exact Nat.zero_le _
      · rw [hlog]
        exact h.accepts hok (hlatch ▸ hnone)
    cases next with
    | none => exact hsound _ h.shortFails (fun _ => rfl) rfl rfl rfl rfl rfl rfl rfl
    | some buffer => exact hsound _ h.shortFails ⟨hpoised.1, .inl rfl⟩ rfl rfl rfl rfl rfl rfl rfl

lemma Sound.finish_writing (h : Sound w) {buffer : List UInt8} {counted : Bool} {sent : ℕ}
    (hholder : w.holder = some (.writing buffer counted sent)) (err : Bool) : Sound (w.finish err) := by
  have hpoised := h.poised
  have hunderway : w.Underway := by rw [Underway, hholder]; trivial
  have hwritten : w.beingWritten = if counted then buffer else [] := by
    rw [beingWritten, hholder]
    cases counted <;> rfl
  rw [hholder] at hpoised
  obtain ⟨hbuffer, -, huncounted, hcounted⟩ := hpoised
  rw [finish_writing_eq h.shortFails hholder]
  generalize hv : { w with failed := w.failed || err || decide (sent ≠ buffer.length) } = v
  have hlog : v.log = w.log := by rw [← hv]
  have hoffered : v.offered = w.offered := by rw [offered, hlog, offered]
  have hbreaks : v.breaks = w.breaks := by rw [WriteBatchConn.breaks, hlog, WriteBatchConn.breaks]
  have hbytes : v.bytes = w.bytes := by rw [← hv]; rfl
  have hv_failed : v.failed = (w.failed || err || decide (sent ≠ buffer.length)) := by rw [← hv]
  generalize houtcome : (if (w.failed || err) = true then (if counted = true then Outcome.broke else Outcome.refused)
    else Outcome.accepted) = outcome
  have hcount : (if outcome = .refused then [] else buffer) = if counted = true then buffer else [] := by
    cases counted with
    | true =>
      rw [← houtcome]
      split <;> simp
    | false =>
      rw [← houtcome, huncounted rfl]
      rfl
  have hstream : w.bytes <+: w.offered ++ if counted = true then buffer else [] := by
    rw [← hwritten]
    exact h.stream
  refine ⟨?_, fun _ => ?_, ?_, ?_, fun hok _ => ?_, ?_, fun hok => ?_, fun hok hnone r hr => ?_⟩
  · rw [← hv]
    exact h.shortFails
  · rw [← hv]
    exact hbuffer
  · rw [← hv]
    exact h.size
  · change v.bytes <+: (v.returned buffer outcome).offered ++ []
    rw [List.append_nil, offered_returned, hoffered, hcount, hbytes]
    exact hstream
  · change v.bytes ++ v.writeBuffer = (v.returned buffer outcome).offered ++ []
    have hok' : v.failed = false := hok
    rw [hv_failed, Bool.or_eq_false_iff, Bool.or_eq_false_iff, decide_eq_false_iff_not, not_not] at hok'
    obtain ⟨⟨hw_ok, -⟩, hall⟩ := hok'
    have hwhole := h.whole hw_ok (.inr hunderway)
    rw [pending, hholder, hall] at hwhole
    rw [List.append_nil, offered_returned, hoffered, hcount, hbytes, ← hwritten, ← hwhole, ← hv]
    change w.bytes ++ w.writeBuffer = _
    rw [hbuffer]
    exact congrArg (w.bytes ++ ·) List.drop_length.symm
  · rw [breaks_returned, hbreaks]
    split
    · next hbroke =>
      have htrue : counted = true := by
        cases counted with
        | true => rfl
        | false =>
          rw [← houtcome, huncounted rfl] at hbroke
          exact absurd hbroke (by simp)
      rw [hcounted htrue]
    · exact h.breaks_le
  · have hok' : v.failed = false := hok
    rw [hv_failed, Bool.or_eq_false_iff] at hok'
    rw [breaks_returned, hbreaks, ← houtcome, hok'.1, if_neg Bool.false_ne_true, if_neg (by decide)]
    exact h.breaks (Bool.or_eq_false_iff.mp hok'.1).1
  · have hok' : v.failed = false := hok
    rw [hv_failed, Bool.or_eq_false_iff] at hok'
    rcases List.mem_append.mp hr with hr | hr
    · rw [hlog] at hr
      have hlatch : w.deadlineError = none := by
        rw [← hv] at hnone
        exact hnone
      exact h.accepts (Bool.or_eq_false_iff.mp hok'.1).1 hlatch r hr
    · rw [List.mem_singleton.mp hr, ← houtcome, hok'.1]
      rfl

lemma Sound.finish (h : Sound w) (err : Bool) : Sound (w.finish err) := by
  cases hholder : w.holder with
  | none =>
    rw [WriteBatchConn.finish, hholder]
    exact h
  | some phase =>
    cases phase with
    | flushing next sent => exact h.finish_flushing hholder err
    | writing buffer counted sent => exact h.finish_writing hholder err
    | start _ | checked _ | flush _ | flushed _ =>
      rw [WriteBatchConn.finish, hholder]
      exact h

lemma Sound.observeDeadlineError (h : Sound w) (err : ε) : Sound (w.observeDeadlineError err) := by
  rw [WriteBatchConn.observeDeadlineError]
  cases hlatch : w.deadlineError with
  | some _ => exact h
  | none =>
    refine ⟨h.shortFails, h.poised, h.size, h.stream, fun hok _ => h.whole hok (.inl hlatch), h.breaks_le, h.breaks,
      fun _ hnone => absurd hnone (by simp)⟩

lemma Sound.close (h : Sound w) : Sound { w with failed := true } := by
  have hpoised := h.poised
  refine ⟨h.shortFails, ?_, h.size, h.stream, fun hok _ => absurd hok (by simp), h.breaks_le,
    fun hok => absurd hok (by simp), fun hok _ => absurd hok (by simp)⟩
  dsimp only
  cases hholder : w.holder with
  | none =>
    rw [hholder] at hpoised
    exact hpoised
  | some phase =>
    rw [hholder] at hpoised
    cases phase with
    | start _ | checked _ | flushed _ => exact hpoised
    | flush next => cases next <;> exact hpoised
    | flushing next sent => cases next <;> exact hpoised
    | writing buffer counted sent => exact ⟨hpoised.1, hpoised.2.1, fun _ => rfl, hpoised.2.2.2⟩

lemma Sound.step (h : Sound w) (e : Event ε) : Sound (w.step e) := by
  cases e with
  | enter call => exact h.enter call
  | advance => exact h.advance
  | deliver => exact h.deliver
  | finish err => exact h.finish err
  | observeDeadlineError err => exact h.observeDeadlineError err
  | close => exact h.close

lemma sound_run (es : List (Event ε)) : Sound (Runs.run step (new true) es) :=
  Runs.run_invariant (I := Sound) (fun _ e h => h.step e) sound_new es

structure Keeps (w v : WriteBatchConn ε) : Prop where
  delivered : v.delivered = w.delivered
  calls : v.calls = w.calls
  deadlineError : v.deadlineError = w.deadlineError

lemma Keeps.flushReturned (h : Keeps w v) (failed : Bool) (next : Option (List UInt8)) :
    Keeps w (v.flushReturned failed next) := by
  cases next with
  | none => exact ⟨h.delivered, h.calls, h.deadlineError⟩
  | some buffer => cases failed <;> exact ⟨h.delivered, h.calls, h.deadlineError⟩

lemma keeps_advance (w : WriteBatchConn ε) : Keeps w w.advance := by
  have hself : Keeps w w := ⟨rfl, rfl, rfl⟩
  have hempty : Keeps w { w with writeBuffer := [] } := ⟨rfl, rfl, rfl⟩
  rw [advance]
  split
  · exact hself
  · split_ifs <;> exact ⟨rfl, rfl, rfl⟩
  · split_ifs <;> exact ⟨rfl, rfl, rfl⟩
  · split_ifs <;> exact ⟨rfl, rfl, rfl⟩
  · split_ifs <;> exact ⟨rfl, rfl, rfl⟩
  · split_ifs
    · exact hempty.flushReturned _ _
    · exact hself.flushReturned _ _
    · exact ⟨rfl, rfl, rfl⟩
  · split_ifs <;> exact ⟨rfl, rfl, rfl⟩
  · exact hself
  · exact hself

lemma keeps_finish (w : WriteBatchConn ε) (err : Bool) : Keeps w (w.finish err) := by
  rw [finish]
  split
  · dsimp only
    refine Keeps.flushReturned ?_ _ _
    exact ⟨rfl, rfl, rfl⟩
  · exact ⟨rfl, rfl, rfl⟩
  · exact ⟨rfl, rfl, rfl⟩

lemma deliver_cases (w : WriteBatchConn ε) : w.deliver.calls = w.calls ∧ w.deliver.deadlineError = w.deadlineError ∧
    (w.deliver.delivered = w.delivered ∨ ∃ byte, w.deliver.delivered = w.delivered ++ [(w.calls, byte)]) := by
  have hself : w.calls = w.calls ∧ w.deadlineError = w.deadlineError ∧
      (w.delivered = w.delivered ∨ ∃ byte, w.delivered = w.delivered ++ [(w.calls, byte)]) := ⟨rfl, rfl, .inl rfl⟩
  rw [deliver]
  split
  · split_ifs
    · exact hself
    · split
      · exact hself
      · exact ⟨rfl, rfl, .inr ⟨_, rfl⟩⟩
  · split_ifs
    · exact hself
    · split
      · exact hself
      · exact ⟨rfl, rfl, .inr ⟨_, rfl⟩⟩
  · exact hself

lemma not_underway (h : ¬ w.Underway) : w.holder = none ∨ ∃ call, w.holder = some (.start call) := by
  rw [Underway] at h
  split at h
  · next hholder => exact .inl hholder
  · next call hholder => exact .inr ⟨call, hholder⟩
  · exact absurd trivial h

lemma deliver_of_not_underway (h : ¬ w.Underway) : w.deliver = w := by
  rcases not_underway h with hholder | ⟨call, hholder⟩ <;> rw [deliver, hholder]

lemma finish_of_not_underway (h : ¬ w.Underway) (err : Bool) : w.finish err = w := by
  rcases not_underway h with hholder | ⟨call, hholder⟩ <;> rw [finish, hholder]

lemma delivered_step (w : WriteBatchConn ε) (e : Event ε) : (w.step e).delivered = w.delivered ∨
    w.Underway ∧ ∃ byte, (w.step e).delivered = w.delivered ++ [(w.calls, byte)] := by
  cases e with
  | enter call =>
    rw [step, enter]
    split <;> exact .inl rfl
  | advance => exact .inl (keeps_advance w).delivered
  | deliver =>
    by_cases hunderway : w.Underway
    · exact (deliver_cases w).2.2.imp id fun hbyte => ⟨hunderway, hbyte⟩
    · rw [step, deliver_of_not_underway hunderway]
      exact .inl rfl
  | finish err => exact .inl (keeps_finish w err).delivered
  | observeDeadlineError err =>
    rw [step, observeDeadlineError]
    split <;> exact .inl rfl
  | close => exact .inl rfl

lemma advance_of_not_underway (hlatch : w.deadlineError.isSome = true) (h : ¬ w.Underway) :
    ¬ w.advance.Underway := by
  rcases not_underway h with hholder | ⟨call, hholder⟩
  · rw [advance, hholder]
    exact h
  · rw [advance, hholder]
    cases call with
    | beginWriteBatch =>
      dsimp only
      rw [if_pos hlatch]
      exact id
    | flushWriteBatch =>
      dsimp only
      rw [if_pos hlatch]
      exact id
    | write buffer =>
      dsimp only
      rw [if_pos hlatch]
      exact id

lemma underway_step (hlatch : w.deadlineError.isSome = true) (e : Event ε) (h : (w.step e).Underway) :
    w.Underway ∧ (w.step e).calls = w.calls := by
  cases e with
  | enter call =>
    rw [step, enter] at h ⊢
    split at h
    · exact ⟨h, rfl⟩
    · exact h.elim
  | advance => exact ⟨by_contra fun hout => advance_of_not_underway hlatch hout h, (keeps_advance w).calls⟩
  | deliver =>
    refine ⟨by_contra fun hout => hout ?_, (deliver_cases w).1⟩
    rw [step, deliver_of_not_underway hout] at h
    exact h
  | finish err =>
    refine ⟨by_contra fun hout => hout ?_, (keeps_finish w err).calls⟩
    rw [step, finish_of_not_underway hout] at h
    exact h
  | observeDeadlineError err =>
    rw [step, observeDeadlineError] at h ⊢
    split at h <;> exact ⟨h, rfl⟩
  | close => exact ⟨h, rfl⟩

lemma deadlineError_step (hlatch : w.deadlineError.isSome = true) (e : Event ε) :
    (w.step e).deadlineError.isSome = true := by
  cases e with
  | enter call =>
    rw [step, enter]
    split <;> exact hlatch
  | advance =>
    rw [step, (keeps_advance w).deadlineError]
    exact hlatch
  | deliver =>
    rw [step, (deliver_cases w).2.1]
    exact hlatch
  | finish err =>
    rw [step, (keeps_finish w err).deadlineError]
    exact hlatch
  | observeDeadlineError err =>
    rw [step, observeDeadlineError]
    split
    · exact hlatch
    · rfl
  | close => exact hlatch

structure After (w v : WriteBatchConn ε) : Prop where
  latch : v.deadlineError.isSome = true
  underway : v.Underway → v.calls = w.calls
  sent : ∃ sent, v.delivered = w.delivered ++ sent ∧ ∀ x ∈ sent, x.1 ≤ w.calls

lemma After.step (h : After w v) (e : Event ε) : After w (v.step e) := by
  obtain ⟨sent, hsent, hnumbers⟩ := h.sent
  refine ⟨deadlineError_step h.latch e, fun hunderway => ?_, ?_⟩
  · obtain ⟨hbefore, hsame⟩ := underway_step h.latch e hunderway
    rw [hsame]
    exact h.underway hbefore
  · rcases delivered_step v e with hsame | ⟨hunderway, byte, hbyte⟩
    · exact ⟨sent, hsame.trans hsent, hnumbers⟩
    · refine ⟨sent ++ [(v.calls, byte)], ?_, fun x hx => ?_⟩
      · rw [hbyte, hsent, List.append_assoc]
      · rcases List.mem_append.mp hx with hx | hx
        · exact hnumbers x hx
        · rw [List.mem_singleton.mp hx]
          exact (h.underway hunderway).le

lemma after_run (hlatch : w.deadlineError.isSome = true) (es : List (Event ε)) : After w (Runs.run step w es) :=
  Runs.run_invariant (I := After w) (fun _ e h => h.step e)
    ⟨hlatch, fun _ => rfl, [], (List.append_nil _).symm, List.forall_mem_nil _⟩ es

def FlushesBatch (w : WriteBatchConn ε) : Prop :=
  match w.holder with
  | some (.flush none) => True
  | some (.flushing none _) => True
  | _ => False

lemma Sound.pending_suffix (h : Sound w) (hok : w.failed = false) (hbatching : w.batching = false)
    (hflush : ¬ w.FlushesBatch) : w.pending <:+ w.beingWritten := by
  have hpoised := h.poised
  rw [pending, beingWritten]
  rw [FlushesBatch] at hflush
  cases hholder : w.holder with
  | none =>
    rw [hholder] at hpoised
    rw [hpoised hbatching]
  | some phase =>
    rw [hholder] at hpoised hflush
    cases phase with
    | start _ | checked _ =>
      dsimp only
      rw [hpoised hbatching]
    | flush next =>
      cases next with
      | none => exact absurd trivial hflush
      | some buffer => exact absurd (hpoised.symm.trans hbatching) (by simp)
    | flushed buffer => exact absurd (hpoised.1.symm.trans hbatching) (by simp)
    | flushing next sent =>
      cases next with
      | none => exact absurd trivial hflush
      | some buffer => exact absurd (hpoised.1.symm.trans hbatching) (by simp)
    | writing buffer counted sent =>
      cases counted with
      | false => exact absurd (hok.symm.trans (hpoised.2.2.1 rfl)) (by simp)
      | true => exact List.drop_suffix _ _

theorem batches_keep_the_stream (es : List (Event ε)) :
    let w := Runs.run step (new true) es
    w.bytes <+: w.offered ++ w.beingWritten ∧
    (w.log.countP fun r => decide (r.2 = .broke)) ≤ 1 ∧
    (w.failed = false → w.deadlineError = none → w.batching = false → ¬ w.FlushesBatch →
      w.log.flatMap Prod.fst <+: w.bytes ∧ ∀ r ∈ w.log, r.2 = .accepted) ∧
    w.writeBuffer.length ≤ webSocketWriteBatchMaxByteCount ∧
    (w.deadlineError.isSome = true → ∀ later, ∃ sent,
      (Runs.run step w later).delivered = w.delivered ++ sent ∧ ∀ x ∈ sent, x.1 ≤ w.calls) := by
  intro w
  have h : Sound w := sound_run es
  refine ⟨h.stream, h.breaks_le, fun hok hlatch hbatching hflush => ?_, h.size,
    fun hlatch later => (after_run hlatch later).sent⟩
  have haccepts := h.accepts hok hlatch
  have hoffered : w.offered = w.log.flatMap Prod.fst := by
    rw [offered, List.filter_eq_self.mpr]
    intro r hr
    rw [haccepts r hr]
    rfl
  have hwhole := h.whole hok (.inl hlatch)
  obtain ⟨sent, hsent⟩ := h.pending_suffix hok hbatching hflush
  rw [hoffered, ← hsent, ← List.append_assoc, List.append_left_inj] at hwhole
  rw [hwhole]
  exact ⟨List.prefix_append _ _, haccepts⟩

def writes (buffer : List UInt8) (sent : ℕ) (err : Bool) : List (Event Unit) :=
  [.enter (.write buffer), .advance, .advance] ++ List.replicate sent .deliver ++ [.finish err]

theorem stream_broken_by_short_write :
    let short := Runs.run step (new false) (writes [1, 2] 1 false ++ writes [3] 1 false)
    let failed := Runs.run step (new true) (writes [1, 2] 1 true)
    (short.accepted = [1, 2, 3] ∧ short.holder.isNone = true ∧ short.bytes = [1, 3]) ∧
      failed.accepted = [] ∧ failed.holder.isNone = true ∧ failed.bytes = [1] := by
  decide +kernel

end WriteBatchConn

end UrConnect.Transport.WriteBatch
