import Mathlib
import UrConnect.Base
import UrConnect.Lib.Runs

/-! The padded blocks of a vision stream: the writer of one direction and the block parser of the other. -/

namespace UrConnect.Vless.Vision

open Lib.Runs

abbrev Bytes := List UInt8

section Writing

def commandContinue : UInt8 := 0

def commandEnd : UInt8 := 1

def commandDirect : UInt8 := 2

def longPaddingThreshold : ℕ := 900

def longPaddingRange : ℕ := 500

def longPaddingBase : ℕ := 900

def shortPaddingRange : ℕ := 256

def maxBlockContent : ℕ := 8 * 1024 - 21

def paddedWriteLimit : ℕ := 7

def isTlsClientHello (b : Bytes) : Bool :=
  6 ≤ b.length && b.getD 0 0 == 22 && b.getD 1 0 == 3 && b.getD 2 0 ≤ 4 && b.getD 5 0 == 1

def isTlsApplicationData (b : Bytes) : Bool :=
  3 ≤ b.length && b.getD 0 0 == 0x17 && b.getD 1 0 == 3 && b.getD 2 0 == 3

structure Writer where
  requestHeader : Bytes
  requestSent : Bool
  writePadding : Bool
  writeUserIdPending : Bool
  writeTls : Bool
  writeCount : ℕ

def Writer.new (requestHeader : Bytes) : Writer := ⟨requestHeader, false, true, true, false, 0⟩

/-- The padding for one draw of the random source, whose range the two cases cut down. -/
def paddingLength (draw contentLength : ℕ) (longPadding : Bool) : ℕ :=
  let padding := if longPadding ∧ contentLength < longPaddingThreshold then
      draw % longPaddingRange + longPaddingBase - contentLength
    else draw % shortPaddingRange
  min padding (maxBlockContent - contentLength)

def block (content : Bytes) (command : UInt8) (padding : ℕ) : Bytes :=
  [command, .ofNat (content.length >>> 8), .ofNat content.length, .ofNat (padding >>> 8), .ofNat padding] ++
    content ++ List.replicate padding 0

def appendBlock (userId : Id) (pending : Bool) (draw : ℕ) (packet content : Bytes) (command : UInt8)
    (longPadding : Bool) : Bytes :=
  packet ++ (if pending then userId.bytes else []) ++
    block content command (paddingLength draw content.length longPadding)

/-- The loop of a padded write; a block takes the draw numbered by the bytes that are left before it. -/
def appendBlocks (userId : Id) (draws : ℕ → ℕ) (ends longPadding pending : Bool) (packet content : Bytes) : Bytes :=
  if content.length ≤ maxBlockContent then
    appendBlock userId pending (draws content.length) packet content (if ends then commandEnd else commandContinue)
      longPadding
  else
    appendBlocks userId draws ends longPadding false
      (appendBlock userId pending (draws content.length) packet (content.take maxBlockContent) commandContinue
        longPadding) (content.drop maxBlockContent)
termination_by content.length
decreasing_by
  rw [List.length_drop]
  unfold maxBlockContent at *
  omega

def write (userId : Id) (draws : ℕ → ℕ) (w : Writer) (b : Bytes) : Writer × Bytes :=
  if !w.writePadding then (w, b)
  else
    let tls := w.writeTls || (w.writeCount == 0 && isTlsClientHello b)
    let ends := (tls && isTlsApplicationData b) || (!tls && paddedWriteLimit ≤ w.writeCount + 1)
    (⟨[], true, !ends, false, tls, w.writeCount + 1⟩,
      appendBlocks userId draws ends tls w.writeUserIdPending (if w.requestSent then [] else w.requestHeader) b)

def sendRequestHeader (userId : Id) (draw : ℕ) (w : Writer) : Writer × Bytes :=
  if w.requestSent then (w, [])
  else ({ w with requestHeader := [], requestSent := true, writeUserIdPending := false },
    appendBlock userId w.writeUserIdPending draw w.requestHeader [] commandContinue true)

inductive Event
  | write (b : Bytes) (draws : ℕ → ℕ)
  | sendRequestHeader (draw : ℕ)

def Event.content : Event → Bytes
  | .write b _ => b
  | .sendRequestHeader _ => []

def Event.emit (userId : Id) (w : Writer) : Event → Writer × Bytes
  | .write b draws => Vision.write userId draws w b
  | .sendRequestHeader draw => Vision.sendRequestHeader userId draw w

def send (userId : Id) (s : Writer × Bytes) (e : Event) : Writer × Bytes :=
  ((e.emit userId s.1).1, s.2 ++ (e.emit userId s.1).2)

end Writing

section Reading

inductive ReadMode
  | padded
  | plain
  | direct

structure Reader where
  readMode : ReadMode
  readUserIdChecked : Bool
  readPending : Bytes
  remainingCommand : ℕ
  currentCommand : UInt8
  remainingContent : ℕ
  remainingPadding : ℕ
  readOut : Bytes
  readErr : Option UInt8

def Reader.new : Reader := ⟨.padded, false, [], 0, 0, 0, 0, [], none⟩

def Reader.header (r : Reader) (v : UInt8) : Reader :=
  match r.remainingCommand with
  | 5 => { r with currentCommand := v, remainingCommand := 4 }
  | 4 => { r with remainingContent := v.toNat <<< 8, remainingCommand := 3 }
  | 3 => { r with remainingContent := r.remainingContent ||| v.toNat, remainingCommand := 2 }
  | 2 => { r with remainingPadding := v.toNat <<< 8, remainingCommand := 1 }
  | 1 => { r with remainingPadding := r.remainingPadding ||| v.toNat, remainingCommand := 0 }
  | n => { r with remainingCommand := n - 1 }

def Reader.pass (r : Reader) (v : UInt8) (rest : Bytes) : Reader × Bytes :=
  let chunk := v :: rest
  if 0 < r.remainingCommand then (r.header v, rest)
  else if 0 < r.remainingContent then
    let n := min chunk.length r.remainingContent
    ({ r with readOut := r.readOut ++ chunk.take n, remainingContent := r.remainingContent - n }, chunk.drop n)
  else
    let n := min chunk.length r.remainingPadding
    ({ r with remainingPadding := r.remainingPadding - n }, chunk.drop n)

def Reader.AtEnd (r : Reader) : Prop := r.remainingCommand = 0 ∧ r.remainingContent = 0 ∧ r.remainingPadding = 0

instance (r : Reader) : Decidable r.AtEnd := inferInstanceAs (Decidable (_ ∧ _))

lemma Reader.pass_length (r : Reader) (v : UInt8) (rest : Bytes) :
    (r.pass v rest).2.length ≤ rest.length ∨ r.pass v rest = (r, v :: rest) ∧ r.AtEnd := by
  unfold Reader.pass Reader.AtEnd
  dsimp only
  split_ifs with hcommand hcontent
  · exact Or.inl le_rfl
  · left
    rw [List.length_drop, List.length_cons]
    omega
  · rcases Nat.eq_zero_or_pos r.remainingPadding with hpadding | hpadding
    · right
      refine ⟨?_, by omega, by omega, hpadding⟩
      rw [hpadding, Nat.min_zero, List.drop_zero, Nat.sub_zero, ← hpadding]
    · left
      rw [List.length_drop, List.length_cons]
      omega

/-- The end of a block that does not go on with padding; nothing should follow a direct command in its record. -/
def Reader.leave (r : Reader) (left : Bytes) : Reader :=
  if r.currentCommand = commandEnd then { r with readMode := .plain, readOut := r.readOut ++ left }
  else if r.currentCommand = commandDirect then { r with readMode := .direct, readOut := r.readOut ++ left }
  else { r with readErr := some r.currentCommand }

def unpadBlocks (r : Reader) : Bytes → Reader
  | [] => r
  | v :: rest =>
      if (r.pass v rest).1.AtEnd then
        if (r.pass v rest).1.currentCommand = commandContinue then
          unpadBlocks { (r.pass v rest).1 with remainingCommand := 5 } (r.pass v rest).2
        else (r.pass v rest).1.leave (r.pass v rest).2
      else unpadBlocks (r.pass v rest).1 (r.pass v rest).2
termination_by chunk => 2 * chunk.length + if r.remainingCommand = 0 then 1 else 0
decreasing_by
  · simp only [List.length_cons]
    rcases r.pass_length v rest with hleft | ⟨hpass, hend⟩
    · split_ifs <;> omega
    · rw [hpass, if_neg (by simp), if_pos hend.1, List.length_cons]
      omega
  · rename_i hmore
    simp only [List.length_cons]
    rcases r.pass_length v rest with hleft | ⟨hpass, hend⟩
    · split_ifs <;> omega
    · rw [hpass] at hmore
      exact absurd hend hmore

def unpad (userId : Id) (r : Reader) (chunk : Bytes) : Reader :=
  if r.readUserIdChecked then unpadBlocks r chunk
  else
    let pending := r.readPending ++ chunk
    if pending.length < 16 then { r with readPending := pending }
    else
      let r := { r with readPending := [], readUserIdChecked := true }
      -- a server that does not pad: everything is plain
      if pending.take 16 ≠ userId.bytes then { r with readMode := .plain, readOut := r.readOut ++ pending }
      else unpadBlocks { r with remainingCommand := 5 } (pending.drop 16)

/-- What the reading loop does with the bytes of one read: of the outer connection, or after the direct command of
the socket under it. A reader with an error reads no more. -/
def receive (userId : Id) (r : Reader) (chunk : Bytes) : Reader :=
  if r.readErr.isSome then r
  else match r.readMode with
    | .padded => unpad userId r chunk
    | .plain => { r with readOut := r.readOut ++ chunk }
    | .direct => { r with readOut := r.readOut ++ chunk }

structure Reader.Open (r : Reader) : Prop where
  err : r.readErr = none
  mode : r.readMode = .padded
  checked : r.readUserIdChecked = true
  more : ¬ r.AtEnd

variable {userId : Id} {r : Reader}

lemma receive_open (h : r.Open) (chunk : Bytes) : receive userId r chunk = unpadBlocks r chunk := by
  simp [receive, unpad, h.err, h.mode, h.checked]

lemma Reader.pass_fields (r : Reader) (v : UInt8) (rest : Bytes) :
    (r.pass v rest).1.readErr = r.readErr ∧ (r.pass v rest).1.readMode = r.readMode ∧
      (r.pass v rest).1.readUserIdChecked = r.readUserIdChecked := by
  unfold Reader.pass Reader.header
  dsimp only
  split_ifs
  · split <;> exact ⟨rfl, rfl, rfl⟩
  · exact ⟨rfl, rfl, rfl⟩
  · exact ⟨rfl, rfl, rfl⟩

lemma Reader.pass_content (hcommand : r.remainingCommand = 0) (hcontent : 0 < r.remainingContent) (v : UInt8)
    (rest : Bytes) : r.pass v rest =
      ({ r with
        readOut := r.readOut ++ (v :: rest).take r.remainingContent
        remainingContent := r.remainingContent - (v :: rest).length }, (v :: rest).drop r.remainingContent) := by
  have hsub : r.remainingContent - min r.remainingContent (v :: rest).length =
      r.remainingContent - (v :: rest).length := by omega
  unfold Reader.pass
  dsimp only
  rw [if_neg (by omega), if_pos hcontent, Nat.min_comm, ← List.take_eq_take_min, ← List.drop_eq_drop_min, hsub]

lemma Reader.pass_padding (hcommand : r.remainingCommand = 0) (hcontent : r.remainingContent = 0) (v : UInt8)
    (rest : Bytes) : r.pass v rest =
      ({ r with remainingPadding := r.remainingPadding - (v :: rest).length },
        (v :: rest).drop r.remainingPadding) := by
  have hsub : r.remainingPadding - min r.remainingPadding (v :: rest).length =
      r.remainingPadding - (v :: rest).length := by omega
  unfold Reader.pass
  dsimp only
  rw [if_neg (by omega), if_neg (by omega), Nat.min_comm, ← List.drop_eq_drop_min, hsub]

lemma Reader.pass_append (r : Reader) (v : UInt8) (rest chunk : Bytes) :
    r.pass v (rest ++ chunk) = ((r.pass v rest).1, (r.pass v rest).2 ++ chunk) ∨
      (r.pass v rest).2 = [] ∧ ¬ (r.pass v rest).1.AtEnd ∧
        ∀ w more, chunk = w :: more → r.pass v (rest ++ chunk) = (r.pass v rest).1.pass w more := by
  rcases Nat.eq_zero_or_pos r.remainingCommand with hcommand | hcommand
  · rcases Nat.eq_zero_or_pos r.remainingContent with hcontent | hcontent
    · rw [Reader.pass_padding hcommand hcontent, Reader.pass_padding hcommand hcontent, ← List.cons_append,
        List.drop_append, List.length_append]
      rcases Nat.lt_or_ge (v :: rest).length r.remainingPadding with hlen | hlen
      · right
        refine ⟨List.drop_of_length_le hlen.le, fun hend => ?_, ?_⟩
        · exact absurd hend.2.2 (Nat.sub_ne_zero_of_lt hlen)
        · rintro w more rfl
          have hnext := Reader.pass_padding (r := { r with
            remainingPadding := r.remainingPadding - (v :: rest).length }) hcommand hcontent w more
          rw [hnext, List.drop_of_length_le hlen.le, List.nil_append, Nat.sub_sub]
      · left
        rw [Nat.sub_eq_zero_of_le hlen, Nat.sub_eq_zero_of_le (hlen.trans (Nat.le_add_right _ _)), List.drop_zero]
    · rw [Reader.pass_content hcommand hcontent, Reader.pass_content hcommand hcontent, ← List.cons_append,
        List.take_append, List.drop_append, List.length_append]
      rcases Nat.lt_or_ge (v :: rest).length r.remainingContent with hlen | hlen
      · right
        refine ⟨List.drop_of_length_le hlen.le, fun hend => ?_, ?_⟩
        · exact absurd hend.2.1 (Nat.sub_ne_zero_of_lt hlen)
        · rintro w more rfl
          have hnext := Reader.pass_content (r := { r with
            readOut := r.readOut ++ (v :: rest).take r.remainingContent
            remainingContent := r.remainingContent - (v :: rest).length }) hcommand (Nat.sub_pos_of_lt hlen) w more
          rw [hnext, List.drop_of_length_le hlen.le, List.nil_append, Nat.sub_sub, List.append_assoc]
      · left
        rw [Nat.sub_eq_zero_of_le hlen, Nat.sub_eq_zero_of_le (hlen.trans (Nat.le_add_right _ _)), List.drop_zero,
          List.take_zero, List.append_nil]
  · left
    simp [Reader.pass, hcommand]

lemma leave_append (herr : r.readErr = none) (a b : Bytes) :
    receive userId (r.leave a) b = r.leave (a ++ b) := by
  unfold Reader.leave
  split_ifs <;> simp [receive, herr]

lemma receive_unpadBlocks (h : r.Open) (a b : Bytes) :
    receive userId (unpadBlocks r a) b = unpadBlocks r (a ++ b) := by
  fun_induction unpadBlocks r a with
  | case1 r => exact receive_open h b
  | case2 r v rest hend hcommand ih =>
    obtain ⟨herr, hmode, hchecked⟩ := r.pass_fields v rest
    rcases r.pass_append v rest b with happend | ⟨-, hmore, -⟩
    · rw [List.cons_append, unpadBlocks, happend, if_pos hend, if_pos hcommand]
      exact ih ⟨herr.trans h.err, hmode.trans h.mode, hchecked.trans h.checked, fun hnot => by simp [Reader.AtEnd] at hnot⟩
    · exact absurd hend hmore
  | case3 r v rest hend hcommand =>
    obtain ⟨herr, hmode, hchecked⟩ := r.pass_fields v rest
    rcases r.pass_append v rest b with happend | ⟨-, hmore, -⟩
    · rw [List.cons_append, unpadBlocks, happend, if_pos hend, if_neg hcommand]
      exact leave_append (herr.trans h.err) _ _
    · exact absurd hend hmore
  | case4 r v rest hmore ih =>
    obtain ⟨herr, hmode, hchecked⟩ := r.pass_fields v rest
    have hopen : (r.pass v rest).1.Open := ⟨herr.trans h.err, hmode.trans h.mode, hchecked.trans h.checked, hmore⟩
    rcases r.pass_append v rest b with happend | ⟨hleft, -, hshort⟩
    · rw [List.cons_append, unpadBlocks, happend, if_neg hmore]
      exact ih hopen
    · rw [hleft, unpadBlocks, receive_open hopen]
      cases b with
      | nil => rw [List.append_nil, unpadBlocks, unpadBlocks, if_neg hmore, hleft, unpadBlocks]
      | cons w more => rw [List.cons_append, unpadBlocks, unpadBlocks, hshort w more rfl]

def Reader.started (out : Bytes) (command : UInt8) : Reader := ⟨.padded, true, [], 5, command, 0, 0, out, none⟩

lemma started_open (out : Bytes) (command : UInt8) : (Reader.started out command).Open :=
  ⟨rfl, rfl, rfl, by simp [Reader.AtEnd, Reader.started]⟩

lemma receive_new (chunk : Bytes) : receive userId .new chunk =
    if chunk.length < 16 then { Reader.new with readPending := chunk }
    else if chunk.take 16 ≠ userId.bytes then
      { Reader.new with readUserIdChecked := true, readMode := .plain, readOut := chunk }
    else unpadBlocks (.started [] 0) (chunk.drop 16) := rfl

lemma receive_new_append (a b : Bytes) : receive userId (receive userId .new a) b = receive userId .new (a ++ b) := by
  rw [receive_new, receive_new]
  by_cases hshort : a.length < 16
  · rw [if_pos hshort]
    rfl
  · have hlong : 16 ≤ a.length := Nat.le_of_not_lt hshort
    have hboth : ¬ (a ++ b).length < 16 := by
      rw [List.length_append]
      omega
    rw [if_neg hshort, if_neg hboth, List.take_append_of_le_length hlong, List.drop_append_of_le_length hlong]
    split_ifs
    · rfl
    · exact receive_unpadBlocks (started_open _ _) _ _

lemma cuts_vanish (userId : Id) (chunks : List Bytes) :
    run (receive userId) .new chunks = receive userId .new chunks.flatten := by
  induction chunks using List.reverseRecOn with
  | nil => rfl
  | append_singleton chunks chunk ih =>
    rw [run_concat, ih, receive_new_append, List.flatten_append, List.flatten_singleton]

theorem reads_may_be_cut (userId : Id) (chunks chunks' : List Bytes) (h : chunks.flatten = chunks'.flatten) :
    run (receive userId) .new chunks = run (receive userId) .new chunks' := by
  rw [cuts_vanish, cuts_vanish, h]

theorem reads_may_be_cut_short :
    run (receive .zero) .new [[1], [], [2, 3]] = run (receive .zero) .new [[1, 2], [3]] :=
  reads_may_be_cut _ _ _ rfl

end Reading

section RoundTrip

variable {userId : Id} {out content rest : Bytes} {command : UInt8} {padding : ℕ}

lemma joined_bytes {n : ℕ} (h : n < 65536) : (UInt8.ofNat (n >>> 8)).toNat <<< 8 ||| (UInt8.ofNat n).toNat = n := by
  have hlow : (UInt8.ofNat n).toNat = n % 256 := by simp
  have hhigh : (UInt8.ofNat (n >>> 8)).toNat = n / 256 := by
    rw [Nat.shiftRight_eq_div_pow]
    simp
    omega
  rw [hlow, hhigh, ← Nat.shiftLeft_add_eq_or_of_lt (by omega), Nat.shiftLeft_eq]
  omega

def ended (out : Bytes) (command : UInt8) (rest : Bytes) : Reader :=
  if command = commandContinue then unpadBlocks (.started out command) rest
  else Reader.leave ⟨.padded, true, [], 0, command, 0, 0, out, none⟩ rest

lemma unpadBlocks_padding (hpadding : 0 < padding) :
    unpadBlocks ⟨.padded, true, [], 0, command, 0, padding, out, none⟩ (List.replicate padding 0 ++ rest) =
      ended out command rest := by
  obtain ⟨n, rfl⟩ := Nat.exists_eq_succ_of_ne_zero hpadding.ne'
  rw [List.replicate_succ, List.cons_append, unpadBlocks, Reader.pass_padding rfl rfl]
  simp [Reader.AtEnd, ended, Reader.started]

lemma unpadBlocks_content (hcontent : content ≠ []) :
    unpadBlocks ⟨.padded, true, [], 0, command, content.length, padding, out, none⟩
        (content ++ List.replicate padding 0 ++ rest) = ended (out ++ content) command rest := by
  obtain ⟨v, more, rfl⟩ := List.exists_cons_of_ne_nil hcontent
  rw [List.cons_append, List.cons_append, unpadBlocks, Reader.pass_content rfl (Nat.succ_pos _)]
  rcases Nat.eq_zero_or_pos padding with rfl | hpadding
  · simp [Reader.AtEnd, ended, Reader.started]
  · have hmore : unpadBlocks ⟨.padded, true, [], 0, command, 0, padding, out ++ v :: more, none⟩
        (List.replicate padding 0 ++ rest) = ended (out ++ v :: more) command rest := unpadBlocks_padding hpadding
    simpa [Reader.AtEnd, hpadding.ne'] using hmore

lemma unpadBlocks_header (before : UInt8) {high low high' low' : UInt8} {n p : ℕ}
    (hn : high.toNat <<< 8 ||| low.toNat = n) (hp : high'.toNat <<< 8 ||| low'.toNat = p) :
    unpadBlocks (.started out before) ([command, high, low, high', low'] ++ rest) =
      if n = 0 ∧ p = 0 then ended out command rest
      else unpadBlocks ⟨.padded, true, [], 0, command, n, p, out, none⟩ rest := by
  subst hn hp
  by_cases hend : high.toNat <<< 8 ||| low.toNat = 0 ∧ high'.toNat <<< 8 ||| low'.toNat = 0
  · rw [if_pos hend]
    simp [unpadBlocks, Reader.pass, Reader.header, Reader.started, Reader.AtEnd, ended, hend.1, hend.2]
  · rw [if_neg hend]
    simp [unpadBlocks, Reader.pass, Reader.header, Reader.started, Reader.AtEnd, -Nat.or_eq_zero_iff, hend]

lemma unpadBlocks_block (hcontent : content.length < 65536) (hpadding : padding < 65536) (before : UInt8) :
    unpadBlocks (.started out before) (block content command padding ++ rest) =
      ended (out ++ content) command rest := by
  rw [block, List.append_assoc, List.append_assoc, ← List.append_assoc content,
    unpadBlocks_header before (joined_bytes hcontent) (joined_bytes hpadding)]
  by_cases hempty : content = []
  · subst hempty
    rcases Nat.eq_zero_or_pos padding with rfl | hpos
    · simp
    · rw [if_neg (by simp [hpos.ne'])]
      simpa using unpadBlocks_padding hpos
  · rw [if_neg (by simp [hempty])]
    exact unpadBlocks_content hempty

lemma paddingLength_lt (draw contentLength : ℕ) (longPadding : Bool) :
    paddingLength draw contentLength longPadding < 65536 := by
  unfold paddingLength maxBlockContent
  dsimp only
  omega

variable (userId) in
lemma appendBlocks_read (draws : ℕ → ℕ) (ends longPadding pending : Bool) (packet content : Bytes) :
    ∃ body, appendBlocks userId draws ends longPadding pending packet content =
        packet ++ (if pending then userId.bytes else []) ++ body ∧
      ∀ out before rest, unpadBlocks (.started out before) (body ++ rest) =
        ended (out ++ content) (if ends then commandEnd else commandContinue) rest := by
  fun_induction appendBlocks userId draws ends longPadding pending packet content with
  | case1 pending packet content hlen =>
    refine ⟨_, rfl, fun out before rest => ?_⟩
    exact unpadBlocks_block (hlen.trans_lt (by decide)) (paddingLength_lt _ _ _) before
  | case2 pending packet content hlen ih =>
    obtain ⟨body, hbody, hread⟩ := ih
    rw [hbody, appendBlock, if_neg Bool.false_ne_true, List.append_nil, List.append_assoc _ _ body]
    refine ⟨_, rfl, fun out before rest => ?_⟩
    have htake : (content.take maxBlockContent).length < 65536 := (List.length_take_le _ _).trans_lt (by decide)
    rw [List.append_assoc, unpadBlocks_block htake (paddingLength_lt _ _ _), ended, if_pos rfl, hread,
      List.append_assoc, List.take_append_drop]

def Writer.closing (w : Writer) : UInt8 := if w.writePadding then commandContinue else commandEnd

variable (userId) in
lemma write_read {w : Writer} (hpadding : w.writePadding = true) (draws : ℕ → ℕ) (b : Bytes) :
    (write userId draws w b).1.requestSent = true ∧ (write userId draws w b).1.writeUserIdPending = false ∧
      ∃ body, (write userId draws w b).2 = (if w.requestSent then [] else w.requestHeader) ++
          (if w.writeUserIdPending then userId.bytes else []) ++ body ∧
        ∀ out before rest, unpadBlocks (.started out before) (body ++ rest) =
          ended (out ++ b) (write userId draws w b).1.closing rest := by
  unfold write
  rw [if_neg (by simp [hpadding])]
  dsimp only
  generalize (w.writeTls || _) = tls
  generalize (tls && _ || _) = ends
  obtain ⟨body, hbody, hread⟩ := appendBlocks_read userId draws ends tls w.writeUserIdPending
    (if w.requestSent then [] else w.requestHeader) b
  refine ⟨rfl, rfl, body, hbody, fun out before rest => ?_⟩
  rw [hread, Writer.closing]
  cases ends <;> rfl

def Sent (userId : Id) (header : Bytes) (s : Writer × Bytes) (contents : Bytes) : Prop :=
  s.1.requestSent = true ∧ s.1.writeUserIdPending = false ∧ ∃ body, s.2 = header ++ (userId.bytes ++ body) ∧
    ∀ rest, unpadBlocks (.started [] 0) (body ++ rest) = ended contents s.1.closing rest

lemma Sent.send {header contents : Bytes} {s : Writer × Bytes} (h : Sent userId header s contents) (e : Event) :
    Sent userId header (send userId s e) (contents ++ e.content) := by
  obtain ⟨hsent, hpending, body, hbody, hread⟩ := h
  cases e with
  | sendRequestHeader draw =>
    have hemit : (Event.sendRequestHeader draw).emit userId s.1 = (s.1, []) := if_pos hsent
    simp only [Vision.send, hemit, Event.content, List.append_nil]
    exact ⟨hsent, hpending, body, hbody, hread⟩
  | write b draws =>
    cases hpadding : s.1.writePadding with
    | false =>
      have hemit : (Event.write b draws).emit userId s.1 = (s.1, b) := if_pos (by rw [hpadding]; rfl)
      simp only [Vision.send, hemit, Event.content]
      refine ⟨hsent, hpending, body ++ b, by rw [hbody]; simp only [List.append_assoc], fun rest => ?_⟩
      rw [List.append_assoc, hread]
      simp [ended, Reader.leave, Writer.closing, hpadding, commandEnd, commandContinue]
    | true =>
      obtain ⟨hsent', hpending', more, hmore, hnext⟩ := write_read userId hpadding draws b
      refine ⟨hsent', hpending', body ++ more, ?_, fun rest => ?_⟩
      · simp only [Vision.send, Event.emit]
        rw [hmore, hbody, hsent, hpending]
        simp
      · rw [List.append_assoc, hread, Writer.closing, hpadding, ended, if_pos rfl, if_pos rfl]
        exact hnext contents _ rest

variable (userId) in
lemma sent_first (header : Bytes) (e : Event) :
    Sent userId header (send userId (Writer.new header, []) e) e.content := by
  cases e with
  | sendRequestHeader draw =>
    refine ⟨rfl, rfl, block [] commandContinue (paddingLength draw 0 true), ?_, fun rest => ?_⟩
    · simp [send, Event.emit, sendRequestHeader, appendBlock, Writer.new]
    · have hempty : ([] : Bytes).length < 65536 := Nat.zero_lt_succ _
      exact unpadBlocks_block hempty (paddingLength_lt _ _ _) 0
  | write b draws =>
    obtain ⟨hsent, hpending, body, hbody, hread⟩ :=
      write_read userId (w := Writer.new header) rfl draws b
    refine ⟨hsent, hpending, body, ?_, hread [] 0⟩
    simp only [send, Event.emit]
    rw [hbody]
    simp [Writer.new]

lemma sent_run {header contents : Bytes} {s : Writer × Bytes} (h : Sent userId header s contents)
    (events : List Event) :
    Sent userId header (run (send userId) s events) (contents ++ events.flatMap Event.content) := by
  induction events generalizing s contents with
  | nil => simpa using h
  | cons e events ih => simpa using ih (h.send e)

lemma readOut_pass (r : Reader) (v : UInt8) (rest : Bytes) : r.readOut <+: (r.pass v rest).1.readOut := by
  unfold Reader.pass Reader.header
  dsimp only
  split_ifs
  · split <;> exact List.prefix_rfl
  · exact List.prefix_append _ _
  · exact List.prefix_rfl

lemma readOut_leave (r : Reader) (left : Bytes) : r.readOut <+: (r.leave left).readOut := by
  unfold Reader.leave
  split_ifs
  · exact List.prefix_append _ _
  · exact List.prefix_append _ _
  · exact List.prefix_rfl

lemma readOut_unpadBlocks (r : Reader) (chunk : Bytes) : r.readOut <+: (unpadBlocks r chunk).readOut := by
  fun_induction unpadBlocks r chunk with
  | case1 r => exact List.prefix_rfl
  | case2 r v rest hend hcommand ih => exact (readOut_pass r v rest).trans ih
  | case3 r v rest hend hcommand => exact (readOut_pass r v rest).trans (readOut_leave _ _)
  | case4 r v rest hmore ih => exact (readOut_pass r v rest).trans ih

lemma readOut_unpad (r : Reader) (chunk : Bytes) : r.readOut <+: (unpad userId r chunk).readOut := by
  unfold unpad
  dsimp only
  split_ifs
  · exact readOut_unpadBlocks _ _
  · exact List.prefix_rfl
  · exact List.prefix_append _ _
  · exact readOut_unpadBlocks { r with readPending := [], readUserIdChecked := true, remainingCommand := 5 } _

lemma readOut_receive (r : Reader) (chunk : Bytes) : r.readOut <+: (receive userId r chunk).readOut := by
  unfold receive
  split_ifs
  · exact List.prefix_rfl
  · cases r.readMode with
    | padded => exact readOut_unpad r chunk
    | plain => exact List.prefix_append _ _
    | direct => exact List.prefix_append _ _

lemma receive_userId (body : Bytes) : receive userId .new (userId.bytes ++ body) = unpadBlocks (.started [] 0) body := by
  have hlen := userId.length_eq
  rw [receive_new, if_neg (by rw [List.length_append]; omega), List.take_left' hlen, List.drop_left' hlen,
    if_neg (not_not_intro rfl)]

lemma ended_closing (out : Bytes) (w : Writer) :
    (ended out w.closing []).readErr = none ∧ (ended out w.closing []).readOut = out := by
  unfold ended Writer.closing
  split_ifs
  all_goals simp_all [unpadBlocks, Reader.started, Reader.leave, commandEnd, commandContinue]

/-- What one side writes the other side reads, however the writes are padded and the stream is cut into reads, and at
any moment it has read a beginning of it. -/
theorem vision_round_trip (userId : Id) (header : Bytes) (events : List Event) :
    ∃ body, (run (send userId) (Writer.new header, []) events).2 = (if events = [] then [] else header) ++ body ∧
      ∀ chunks rest, chunks.flatten ++ rest = body →
        (run (receive userId) .new chunks).readErr = none ∧
          (run (receive userId) .new chunks).readOut <+: events.flatMap Event.content ∧
          (rest = [] → (run (receive userId) .new chunks).readOut = events.flatMap Event.content) := by
  cases events with
  | nil =>
    refine ⟨[], rfl, fun chunks rest h => ?_⟩
    rw [cuts_vanish, (List.append_eq_nil_iff.mp h).1]
    exact ⟨rfl, List.prefix_rfl, fun _ => rfl⟩
  | cons e events =>
    obtain ⟨-, -, body, hbody, hread⟩ := sent_run (sent_first userId header e) events
    refine ⟨userId.bytes ++ body, hbody, fun chunks rest h => ?_⟩
    have hfinal : receive userId (run (receive userId) .new chunks) rest = ended
        (e.content ++ events.flatMap Event.content) (run (send userId) (send userId (.new header, []) e) events).1.closing
        [] := by
      rw [cuts_vanish, receive_new_append, h, receive_userId, ← hread, List.append_nil]
    obtain ⟨herr, hout⟩ := ended_closing (e.content ++ events.flatMap Event.content)
      (run (send userId) (send userId (.new header, []) e) events).1
    rw [← hfinal] at herr hout
    refine ⟨?_, ?_, ?_⟩
    · -- A reader with an error keeps it.
      by_contra hsome
      rw [receive, if_pos (Option.isSome_iff_ne_none.mpr hsome)] at herr
      exact hsome herr
    · rw [List.flatMap_cons, ← hout]
      exact readOut_receive _ _
    · rintro rfl
      rw [List.flatMap_cons, ← hout, cuts_vanish, receive_new_append, List.append_nil]

end RoundTrip

end UrConnect.Vless.Vision
