import UrConnect.DurableVolume.Journal

/-! The capacity of an accepted plan covers every record that any run of it appends. -/

namespace UrConnect.DurableVolume.Journal

open UrConnect.Lib.JsonLines UrConnect.Lib.Runs

def Regular (t : Text) : Prop := t.length = 71 ∧ ∀ c ∈ t, Plain c

lemma Regular.length_quote {t : Text} (h : Regular t) : (quote t).length = 73 := by
  rw [length_quote_plain h.2, h.1]

lemma Regular.ne_nil {t : Text} (h : Regular t) : t ≠ [] := by
  rintro rfl
  exact absurd h.1 (by decide)

lemma regular_scheme {t : Text} (hlen : t.length = 64) (h : ∀ c ∈ t, Plain c) : Regular ("sha256:".toList ++ t) := by
  constructor
  · rw [List.length_append, hlen]
    decide +kernel
  · intro c hc
    rcases List.mem_append.1 hc with hp | ht
    · exact (by simp [Plain, escape, utf8] : ∀ c ∈ "sha256:".toList, Plain c) c hp
    · exact h c ht

lemma regular_widestDigest : Regular widestDigest := by
  refine regular_scheme (List.length_replicate ..) fun c hc => ?_
  rw [List.eq_of_mem_replicate hc]
  decide +kernel

lemma plain_hexChar : ∀ d, Plain (hexChar d) := by decide +kernel

lemma regular_preparationDigest (hash : Bytes → Fin 64 → Fin 16) (raw : Bytes) :
    Regular (preparationDigest hash raw) := by
  refine regular_scheme (List.length_ofFn ..) fun c hc => ?_
  obtain ⟨i, rfl⟩ := List.mem_ofFn.1 hc
  exact plain_hexChar _

lemma Identity.length_json_le (i : Identity) : i.json.length ≤ widestIdentity.json.length := by
  have hdevice := length_decimal_mono (Nat.le_pred_of_lt i.device.toNat_lt)
  have hinode := length_decimal_mono (Nat.le_pred_of_lt i.inode.toNat_lt)
  have hmode := length_decimal_mono (Nat.le_pred_of_lt i.mode.toNat_lt)
  have huid := length_decimal_mono (Nat.le_pred_of_lt i.uid.toNat_lt)
  have hgid := length_decimal_mono (Nat.le_pred_of_lt i.gid.toNat_lt)
  have h64 : (widestIdentity.device.toNat = 2 ^ 64 - 1 ∧ widestIdentity.inode.toNat = 2 ^ 64 - 1) := by decide
  have h32 : widestIdentity.mode.toNat = 2 ^ 32 - 1 ∧ widestIdentity.uid.toNat = 2 ^ 32 - 1 ∧
      widestIdentity.gid.toNat = 2 ^ 32 - 1 := by decide
  simp only [Nat.pred_eq_sub_one] at hdevice hinode hmode huid hgid
  simp only [Identity.json, length_object, weight_cons, weight_nil, h64.1, h64.2, h32.1, h32.2.1, h32.2.2]
  omega

def Fits (s r : Step) : Prop := s.json.length ≤ r.json.length

lemma Record.length_json_le {r : Record} {t : Step} (hseq : r.sequence < 2 ^ 64) (hprev : Regular r.previousSha256)
    (hphase : r.phase = .pending ∨ r.phase = .complete) (hsha : Regular r.sha256) (hf : Fits r.step t) :
    r.json.length + 1 ≤ reserved t := by
  have hs := length_decimal_mono (Nat.le_pred_of_lt hseq)
  simp only [Nat.pred_eq_sub_one] at hs
  have hp : (quote r.phase.name).length ≤ (quote Phase.complete.name).length := by
    rcases hphase with h | h
    · rw [h]
      decide +kernel
    · rw [h]
  have hi := r.identity.length_json_le
  have hstep : r.step.json.length ≤ t.json.length := hf
  simp only [reserved, widestRecord, Record.json, Record.fields, length_object, weight_cons, weight_nil,
    hprev.length_quote, hsha.length_quote, regular_widestDigest.length_quote]
  omega

lemma fits_raw {s t : Step} {raw raw' : Bytes} {d d' : Text} (hd : Regular d) (hd' : Regular d')
    (hraw : raw.length ≤ raw'.length) (hs : s = { t with bytes := raw.length, sha256 := d, raw := raw })
    (ht : t.bytes = raw'.length ∧ t.sha256 = d' ∧ t.raw = raw') : Fits s t := by
  have hr : (34 :: base64 raw ++ [34]).length ≤ (34 :: base64 raw' ++ [34]).length := by
    simp only [List.length_append, List.length_cons, length_base64]
    omega
  have hpos : raw ≠ [] → raw' ≠ [] := by
    simp only [← List.length_pos_iff]
    omega
  have hbytes := weight_unlessEmpty_mono (p := raw.length ≠ 0) (q := raw'.length ≠ 0) "bytes"
    (by simpa using hpos) (length_decimal_mono hraw)
  have hsha := weight_unlessEmpty_mono (p := d ≠ []) (q := d' ≠ []) "sha256" (by simp [hd'.ne_nil])
    (hd.length_quote.trans hd'.length_quote.symm).le
  have hraw' := weight_unlessEmpty_mono (p := raw ≠ []) (q := raw' ≠ []) "raw" (by simpa using hpos) hr
  subst hs
  refine length_object_mono ?_
  simp only [Step.fields, weight_append, ht.1, ht.2.1, ht.2.2]
  omega

lemma length_indented (opening closing depth : ℕ) (members : List Bytes) :
    (indented opening closing depth members).length =
      (members.map fun m => m.length + (2 * depth + 4)).sum - 1 + (2 * depth + 3) := by
  have hs : (members.flatMap fun m => 10 :: List.replicate (2 * depth + 2) 32 ++ m ++ [44]).length =
      (members.map fun m => m.length + (2 * depth + 4)).sum := by
    rw [List.length_flatMap]
    congr 1
    refine List.map_congr_left fun m _ => ?_
    simp only [List.length_append, List.length_cons, List.length_replicate, List.length_nil]
    omega
  simp only [indented, List.length_append, List.length_cons, List.length_dropLast, hs, List.length_replicate,
    List.length_nil]
  omega

lemma length_indentedMember (key : String) (value : Bytes) :
    (indentedMember key value).length = key.length + value.length + 4 := by
  simp only [indentedMember, List.length_append, List.length_cons, List.length_nil, length_ascii]
  omega

lemma length_declaration (r : Request) (inode : UInt64) {g m l g' m' l' : Text} (hg : Regular g) (hm : Regular m)
    (hl : Regular l) (hg' : Regular g') (hm' : Regular m') (hl' : Regular l') :
    (r.declaration inode g m l).length = (r.declaration inode g' m' l').length := by
  simp only [Request.declaration, List.length_append, length_indented, List.map_cons, List.map_nil,
    length_indentedMember, hg.length_quote, hm.length_quote, hl.length_quote, hg'.length_quote, hm'.length_quote,
    hl'.length_quote]

inductive Covered : List Move → List Step → Prop
  | nil : Covered [] []
  | stop (ms : List Move) (rs : List Step) : Covered (.stop :: ms) rs
  | check {ms : List Move} {rs : List Step} : Covered ms rs → Covered (.check :: ms) rs
  | step {s r : Step} {ms : List Move} {rs : List Step} :
      Fits s r → Covered ms rs → Covered (.step s :: ms) (r :: rs)

lemma Covered.append {ms ns : List Move} {rs ts : List Step} (h : Covered ms rs) (h' : Covered ns ts) :
    Covered (ms ++ ns) (rs ++ ts) := by
  induction h with
  | nil => exact h'
  | stop ms rs => exact .stop _ _
  | check _ ih => exact .check ih
  | step hf _ ih => exact .step hf ih

lemma Covered.exact (rs : List Step) : Covered (rs.map Move.step) rs := by
  induction rs with
  | nil => exact .nil
  | cons r rs ih => exact .step (le_refl _) ih

section Matching

variable (hash : Bytes → Fin 64 → Fin 16) (paths : Paths)

lemma fits_attribute (path name : Text) {raw raw' : Bytes} (h : raw.length ≤ raw'.length) :
    Fits (attributeStep (preparationDigest hash raw) path name raw) (attributeStep widestDigest path name raw') :=
  fits_raw (regular_preparationDigest hash raw) regular_widestDigest h rfl ⟨rfl, rfl, rfl⟩

lemma fits_metadata (path : Text) {raw raw' : Bytes} (h : raw.length ≤ raw'.length) :
    Fits (metadataStep (preparationDigest hash raw) path raw) (metadataStep widestDigest path raw') :=
  fits_raw (regular_preparationDigest hash raw) regular_widestDigest h rfl ⟨rfl, rfl, rfl⟩

lemma covered_attributeMoves (request : Request) {specs : List AttributeSpec} {prepared : List PreparedAttribute}
    (hlen : prepared.length = specs.length) (used : ℕ) :
    Covered (attributeMoves hash paths request specs prepared used) (specs.map fun spec =>
      attributeStep widestDigest (attributePath paths request spec) spec.name (List.replicate 4096 0)) := by
  induction specs generalizing prepared used with
  | nil => exact .nil
  | cons spec specs ih =>
      cases prepared with
      | nil => exact absurd hlen (by simp)
      | cons a rest =>
          by_cases hbad : a.spec ≠ spec ∨ a.raw = [] ∨ 4096 < a.raw.length ∨
              request.limits.maxOwnerAttributeBytes - used < a.raw.length
          · rw [attributeMoves, if_pos hbad]
            exact .stop _ _
          · rw [attributeMoves, if_neg hbad]
            simp only [not_or, not_not, not_lt] at hbad
            rw [hbad.1]
            refine .step (fits_attribute hash _ _ ?_) (ih (by simpa using hlen) _)
            rw [List.length_replicate]
            exact hbad.2.2.1

lemma covered_ownerMoves (request : Request) (inspect : ℕ → OwnerPlan → Option (List PreparedAttribute))
    (owners : List OwnerPlan) (used : ℕ) :
    Covered (ownerMoves hash paths request inspect owners used)
      (owners.flatMap fun owner => owner.attributes.map fun spec =>
        attributeStep widestDigest (attributePath paths request spec) spec.name (List.replicate 4096 0)) := by
  induction owners generalizing used with
  | nil => exact .nil
  | cons owner rest ih =>
      rw [ownerMoves, List.flatMap_cons]
      refine .check ?_
      cases inspect rest.length owner with
      | none => exact .stop _ _
      | some attributes =>
          dsimp only
          by_cases hlen : attributes.length = owner.attributes.length
          · rw [if_neg (not_not.2 hlen)]
            exact (covered_attributeMoves hash paths request hlen used).append (ih _)
          · rw [if_pos hlen]
            exact .stop _ _

lemma covered_runMoves (request : Request) (plan : Plan)
    (inspect : ℕ → OwnerPlan → Option (List PreparedAttribute)) :
    Covered (runMoves hash paths request plan inspect) (reservedSteps paths request plan) := by
  have hdeclaration := length_declaration request plan.root.inode (regular_preparationDigest hash plan.generation)
    (regular_preparationDigest hash plan.marker) (regular_preparationDigest hash plan.lease) regular_widestDigest
    regular_widestDigest regular_widestDigest
  refine ((Covered.append ?_ (.step (fits_attribute hash _ _ (le_refl _)) ?_)).append
    (covered_ownerMoves hash paths request inspect plan.owners 0)).append ?_
  · by_cases hroot : request.rootCreation = createPrivate
    · rw [if_pos hroot, if_pos hroot]
      exact .exact [_]
    · rw [if_neg hroot, if_neg hroot]
      exact .nil
  · simpa [Function.comp_def] using Covered.exact (plan.sources.map (sourceStep paths request plan))
  · refine .step (fits_metadata hash _ (le_refl _)) (.step (fits_metadata hash _ (le_refl _)) ?_)
    exact .check (.check (.step (fits_metadata hash _ hdeclaration.le) (.check .nil)))

end Matching

def slots (rs : List Step) : List ℕ := rs.flatMap fun r => [reserved r, reserved r]

lemma slots_cons (r : Step) (rs : List Step) : slots (r :: rs) = reserved r :: reserved r :: slots rs := rfl

lemma getElem?_slots (rs : List Step) (n : ℕ) : (slots rs)[n]? = (rs[n / 2]?).map reserved := by
  induction rs generalizing n with
  | nil => simp [slots]
  | cons r rs ih =>
      rw [slots_cons]
      match n with
      | 0 => rfl
      | 1 => rfl
      | n + 2 => simp [ih n, show (n + 2) / 2 = n / 2 + 1 by omega]

lemma length_slots (rs : List Step) : (slots rs).length = 2 * rs.length := by
  induction rs with
  | nil => rfl
  | cons r rs ih =>
      rw [slots_cons, List.length_cons, List.length_cons, ih, List.length_cons]
      omega

structure Kept (rs : List Step) (c : Control) : Prop where
  records : List.Forall₂ (fun r n => r.json.length + 1 ≤ n) c.records ((slots rs).take c.records.length)
  tail : c.tail.length ≤ ((slots rs).drop c.records.length).sum
  oneLine : OneLine c.tail

lemma Kept.count {rs : List Step} {c : Control} (h : Kept rs c) : c.records.length ≤ 2 * rs.length := by
  have hlen := h.records.length_eq
  rw [List.length_take, length_slots] at hlen
  omega

lemma length_lines (ls : List Bytes) :
    (ls.flatMap fun l => l ++ [10]).length = (ls.map fun l => l.length + 1).sum := by
  simp [List.length_flatMap]

lemma Kept.length_bytes {rs : List Step} {c : Control} (h : Kept rs c) :
    c.bytes.length ≤ c.header.json.length + 1 + (slots rs).sum := by
  have hsum : (c.records.map fun r => r.json.length + 1).sum ≤ ((slots rs).take c.records.length).sum := by
    refine List.Forall₂.sum_le_sum ?_
    exact List.forall₂_map_left_iff.2 h.records
  have hsplit := List.sum_take_add_sum_drop (slots rs) c.records.length
  have htail := h.tail
  simp only [Control.bytes, Control.lines, List.length_append, length_lines, List.map_cons, List.map_map,
    Function.comp_def, List.sum_cons]
  omega

lemma Kept.length_record {rs : List Step} {c : Control} (h : Kept rs c) {r : Record} (hr : r ∈ c.records) :
    ∃ t ∈ rs, r.json.length + 1 ≤ reserved t := by
  obtain ⟨i, hi, rfl⟩ := List.mem_iff_getElem.1 hr
  have hlen := h.records.length_eq
  have hget := h.records.get hi (hlen ▸ hi)
  have hslot : (slots rs)[i]? = some (((slots rs).take c.records.length)[i]) := by
    rw [List.getElem_take, List.getElem?_eq_getElem]
  rw [getElem?_slots] at hslot
  obtain ⟨t, ht, heq⟩ := Option.map_eq_some_iff.1 hslot
  refine ⟨t, List.mem_of_getElem? ht, ?_⟩
  rw [heq]
  exact hget

section Writes

variable {rs : List Step} {c : Control} {t : Step} {record : Record}

lemma Kept.append_record (h : Kept rs c) (htail : c.tail = []) (ht : rs[c.records.length / 2]? = some t)
    (hr : record.json.length + 1 ≤ reserved t) : Kept rs { c with records := c.records ++ [record] } := by
  have hslot : (slots rs)[c.records.length]? = some (reserved t) := by rw [getElem?_slots, ht]; rfl
  constructor
  · rw [List.length_append, List.length_singleton, List.take_add_one, hslot]
    exact List.rel_append h.records (.cons hr .nil)
  · simp [htail]
  · exact h.oneLine

lemma Kept.torn (h : Kept rs c) (ht : rs[c.records.length / 2]? = some t)
    (hr : record.json.length + 1 ≤ reserved t) {count : ℕ} (hcount : count < (record.json ++ [10]).length) :
    Kept rs { c with tail := (record.json ++ [10]).take count } := by
  have hslot : (slots rs)[c.records.length]? = some (reserved t) := by rw [getElem?_slots, ht]; rfl
  have hle : count ≤ record.json.length := by simpa [Nat.lt_succ_iff] using hcount
  obtain ⟨hlt, hget⟩ := List.getElem?_eq_some_iff.1 hslot
  constructor
  · exact h.records
  · rw [List.drop_eq_getElem_cons hlt, List.sum_cons, hget, List.length_take]
    omega
  · rw [List.take_append_of_le_length hle]
    exact record.json_oneLine.mono (List.take_subset _ _)

end Writes

structure Counted (n : ℕ) (s : Session) : Prop where
  sequence : s.sequence = n
  completed : s.completed.length = n / 2
  pending : s.pending.isSome ↔ n % 2 = 1
  previous : Regular s.previous
  position : s.position ≤ s.completed.length

structure Tracks (rs : List Step) (c : Control) (s : Session) : Prop where
  kept : Kept rs c
  tail : c.tail = []
  size : s.size = c.bytes.length
  counted : Counted c.records.length s

structure Roomy (rs : List Step) (header : Header) : Prop where
  record : ∀ r ∈ rs, reserved r ≤ maximumPreparationControlRecordBytes
  total : header.json.length + 1 + (slots rs).sum ≤ maximumPreparationControlBytes
  count : 2 * rs.length < 2 ^ 64

structure Holds (rs : List Step) (header : Header) (goes : Control → Session → Prop)
    (out : Control × Except Fault Session) : Prop where
  kept : Kept rs out.1
  header : out.1.header = header
  fault : ∀ f, out.2 = .error f → f = .refused ∨ f = .uncertain
  goes : ∀ s, out.2 = .ok s → Tracks rs out.1 s ∧ goes out.1 s

lemma Holds.refusal {rs : List Step} {header : Header} {goes : Control → Session → Prop} {c : Control} {f : Fault}
    (h : Kept rs c) (hheader : c.header = header) (hf : f = .refused ∨ f = .uncertain) :
    Holds rs header goes (c, .error f) := by
  refine ⟨h, hheader, fun g hg => Except.error.inj hg ▸ hf, ?_⟩
  rintro s ⟨⟩

section Steps

variable (hash : Bytes → Fin 64 → Fin 16)

lemma nextRecord_fits {n : ℕ} {s : Session} (h : Counted n s) {phase : Phase}
    (hphase : phase = .pending ∨ phase = .complete) {st t : Step} (hf : Fits st t) (identity : Identity) :
    (nextRecord hash s phase st identity).json.length + 1 ≤ reserved t :=
  Record.length_json_le (Nat.mod_lt _ (by decide)) h.previous hphase (regular_preparationDigest hash _) hf

lemma Counted.appended {n : ℕ} {s : Session} (h : Counted n s) (hn : n + 1 < 2 ^ 64) {phase : Phase}
    (hphase : phase = if n % 2 = 0 then .pending else .complete) (st : Step) (identity : Identity) :
    Counted (n + 1) (s.appended (nextRecord hash s phase st identity)) := by
  have hseq : (s.sequence + 1) % 2 ^ 64 = n + 1 := by rw [h.sequence, Nat.mod_eq_of_lt hn]
  have hcompleted := h.completed
  have hposition := h.position
  rcases Nat.mod_two_eq_zero_or_one n with heven | hodd
  · rw [if_pos heven] at hphase
    subst hphase
    exact ⟨hseq, show s.completed.length = (n + 1) / 2 by omega, by simp [Session.appended, nextRecord]; omega,
      regular_preparationDigest hash _, hposition⟩
  · rw [if_neg (by omega)] at hphase
    subst hphase
    refine ⟨hseq, ?_, by simp [Session.appended, nextRecord]; omega, regular_preparationDigest hash _, ?_⟩
    · simp only [Session.appended, nextRecord, reduceCtorEq, if_false, List.length_append, List.length_singleton]
      omega
    · simp only [Session.appended, nextRecord, reduceCtorEq, if_false, List.length_append, List.length_singleton]
      omega

lemma Tracks.append {rs : List Step} {c : Control} {s : Session} (h : Tracks rs c s) (hroom : Roomy rs c.header)
    {t st : Step} (ht : rs[c.records.length / 2]? = some t) (hf : Fits st t) {phase : Phase}
    (hphase : phase = if c.records.length % 2 = 0 then .pending else .complete) (written : Written)
    (identity : Identity) :
    Holds rs c.header (fun c' s' => c'.records.length = c.records.length + 1 ∧ s'.position = s.position)
      (append hash written phase st identity c s) := by
  have hp : phase = .pending ∨ phase = .complete := by
    rw [hphase]
    split
    · exact .inl rfl
    · exact .inr rfl
  have hr := nextRecord_fits hash h.counted hp hf identity
  have hlt : c.records.length / 2 < rs.length := (List.getElem?_eq_some_iff.1 ht).1
  have hkept := h.kept.append_record h.tail ht hr
  have hbytes : ({ c with records := c.records ++ [nextRecord hash s phase st identity] } : Control).bytes.length =
      c.bytes.length + ((nextRecord hash s phase st identity).json.length + 1) := by
    simp only [Control.bytes, Control.lines, List.length_append, length_lines, List.map_cons, List.map_append,
      List.map_nil, List.sum_cons, List.sum_append, List.sum_nil]
    omega
  have hfits : c.bytes.length + ((nextRecord hash s phase st identity).json.length + 1) ≤
      c.header.json.length + 1 + (slots rs).sum := hbytes.symm.trans_le hkept.length_bytes
  have hrecord := hroom.record t (List.mem_of_getElem? ht)
  have htotal := hroom.total
  have hcount := hroom.count
  have hsize := h.size
  unfold Journal.append
  dsimp only
  rw [if_neg (by
    simp only [List.length_append, List.length_singleton, not_or, not_lt]
    exact ⟨hr.trans hrecord, by omega⟩)]
  cases written with
  | torn count =>
      dsimp only
      by_cases hc : count < ((nextRecord hash s phase st identity).json ++ [10]).length
      · rw [if_pos hc]
        exact .refusal (h.kept.torn ht hr hc) rfl (by decide)
      · rw [if_neg hc]
        exact .refusal hkept rfl (by decide)
  | lost => exact .refusal hkept rfl (by decide)
  | acknowledged =>
      refine ⟨hkept, rfl, by rintro f ⟨⟩, ?_⟩
      rintro s' ⟨⟩
      have hnext := h.counted.appended hash (by omega) hphase st identity
      refine ⟨⟨hkept, h.tail, ?_, ?_⟩, ?_, ?_⟩
      · rw [hbytes, ← hsize]
        unfold Session.appended
        split <;> rfl
      · rw [List.length_append, List.length_singleton]
        exact hnext
      · rw [List.length_append, List.length_singleton]
      · unfold Session.appended
        split <;> rfl

lemma Tracks.complete {rs : List Step} {c : Control} {s : Session} (h : Tracks rs c s) (hroom : Roomy rs c.header)
    (hodd : c.records.length % 2 = 1) {t st : Step} (ht : rs[s.position]? = some t) (hf : Fits st t)
    (hposition : s.position = c.records.length / 2) (reply : Reply) :
    Holds rs c.header (fun _ s' => s'.position = s.position + 1) (complete hash reply st c s) := by
  unfold Journal.complete
  cases reply.observed with
  | none => exact .refusal h.kept rfl (by decide)
  | some identity =>
      have happend := h.append hash hroom (hposition ▸ ht) hf (by rw [if_neg (by omega)]) reply.completeWrite identity
      dsimp only
      generalize Journal.append hash reply.completeWrite .complete st identity c s = out at happend
      obtain ⟨c', f | s'⟩ := out
      · exact ⟨happend.kept, happend.header, happend.fault, by rintro s ⟨⟩⟩
      · obtain ⟨htracks, hlen, hpos⟩ := happend.goes s' rfl
        refine ⟨happend.kept, happend.header, by rintro f ⟨⟩, ?_⟩
        rintro s'' ⟨⟩
        have hcounted := htracks.counted
        refine ⟨⟨htracks.kept, htracks.tail, htracks.size, ⟨hcounted.sequence, hcounted.completed, hcounted.pending,
          hcounted.previous, ?_⟩⟩, by rw [hpos]⟩
        have hcompleted := hcounted.completed
        show s'.position + 1 ≤ s'.completed.length
        omega

lemma Tracks.step {rs : List Step} {c : Control} {s : Session} (h : Tracks rs c s) (hroom : Roomy rs c.header)
    {t st : Step} (ht : rs[s.position]? = some t) (hf : Fits st t) (reply : Reply) :
    Holds rs c.header (fun _ s' => s'.position = s.position + 1) (step hash reply st c s) := by
  have hcounted := h.counted
  have hle := hcounted.position
  have hcompleted := hcounted.completed
  unfold Journal.step
  by_cases hchecked : reply.checked = false
  · rw [if_pos hchecked]
    exact .refusal h.kept rfl (by decide)
  rw [if_neg hchecked]
  cases hget : s.completed[s.position]? with
  | some completed =>
      dsimp only
      split
      · exact .refusal h.kept rfl (by decide)
      · refine ⟨h.kept, rfl, by rintro f ⟨⟩, ?_⟩
        rintro s' ⟨⟩
        exact ⟨⟨h.kept, h.tail, h.size, ⟨hcounted.sequence, hcounted.completed, hcounted.pending, hcounted.previous,
          (List.getElem?_eq_some_iff.1 hget).1⟩⟩, rfl⟩
  | none =>
      have hge := List.getElem?_eq_none_iff.1 hget
      have hposition : s.position = c.records.length / 2 := by omega
      cases hpending : s.pending with
      | some pending =>
          dsimp only
          split
          · exact .refusal h.kept rfl (by decide)
          · exact h.complete hash hroom (hcounted.pending.1 (by rw [hpending]; rfl)) ht hf hposition reply
      | none =>
          dsimp only
          by_cases habsent : reply.absent = false
          · rw [if_pos habsent]
            exact .refusal h.kept rfl (by decide)
          have heven : c.records.length % 2 = 0 := by
            have hnot := mt hcounted.pending.2 (by rw [hpending]; simp)
            omega
          rw [if_neg habsent]
          have happend := h.append hash hroom (hposition ▸ ht) hf (by rw [if_pos heven]) reply.pendingWrite .zero
          generalize Journal.append hash reply.pendingWrite .pending st .zero c s = out at happend
          obtain ⟨c', f | s'⟩ := out
          · exact ⟨happend.kept, happend.header, happend.fault, by rintro s ⟨⟩⟩
          · obtain ⟨htracks, hlen, hpos⟩ := happend.goes s' rfl
            have hheader : c'.header = c.header := happend.header
            have hdone := htracks.complete hash (hheader ▸ hroom) (by omega) (hpos ▸ ht) hf (by omega) reply
            rw [hheader, hpos] at hdone
            exact hdone

lemma Tracks.execute {rs : List Step} {ms : List Move} (replies : ℕ → Reply) {c : Control} {s : Session}
    (h : Tracks rs c s) (hroom : Roomy rs c.header) (hcover : Covered ms (rs.drop s.position)) :
    Holds rs c.header (fun _ _ => True) (execute hash replies ms c s) := by
  induction ms generalizing c s with
  | nil =>
      refine ⟨h.kept, rfl, by rintro f ⟨⟩, ?_⟩
      rintro s' ⟨⟩
      exact ⟨h, trivial⟩
  | cons m ms ih =>
      cases m with
      | stop => exact .refusal h.kept rfl (by decide)
      | check =>
          cases hcover with
          | check hrest =>
              rw [Journal.execute]
              split
              · exact .refusal h.kept rfl (by decide)
              · exact ih h hroom hrest
      | step st =>
          cases hdrop : rs.drop s.position with
          | nil =>
              rw [hdrop] at hcover
              cases hcover
          | cons r rest =>
              rw [hdrop] at hcover
              cases hcover with
              | step hf hrest =>
                  have hr : rs[s.position]? = some r := by
                    rw [← List.head?_drop, hdrop]
                    rfl
                  have hstep := h.step hash hroom hr hf (replies ms.length)
                  rw [Journal.execute]
                  generalize Journal.step hash (replies ms.length) st c s = out at hstep
                  obtain ⟨c', f | s'⟩ := out
                  · exact ⟨hstep.kept, hstep.header, hstep.fault, by rintro s ⟨⟩⟩
                  · obtain ⟨htracks, hpos⟩ := hstep.goes s' rfl
                    have hheader : c'.header = c.header := hstep.header
                    have hrest' : Covered ms (rs.drop s'.position) := by
                      rw [hpos, ← List.drop_drop, hdrop]
                      exact hrest
                    have hdone := ih htracks (hheader ▸ hroom) hrest'
                    rw [hheader] at hdone
                    exact hdone

lemma readRecord_counted {l : Limits} {n : ℕ} {s s' : Session} {record : Record} (h : Counted n s)
    (hr : readRecord hash l s record = .ok s') : Counted (n + 1) s' ∧ s'.position = s.position ∧ s'.size = s.size := by
  have hcompleted := h.completed
  have hposition := h.position
  unfold readRecord at hr
  by_cases hlimit : recordLimit l ≤ s.sequence
  · rw [if_pos hlimit] at hr
    cases hr
  rw [if_neg hlimit] at hr
  by_cases hbad : record.sequence ≠ (s.sequence + 1) % 2 ^ 64 ∨ record.previousSha256 ≠ s.previous ∨
      preparationDigest hash { record with sha256 := [] }.json ≠ record.sha256
  · rw [if_pos hbad] at hr
    cases hr
  rw [if_neg hbad] at hr
  simp only [not_or, not_not] at hbad
  have hlt : recordLimit l < 2 ^ 64 := Nat.mod_lt _ (by decide)
  have hseq : record.sequence = n + 1 := by
    rw [hbad.1, h.sequence, Nat.mod_eq_of_lt]
    have := h.sequence
    omega
  have hsha : Regular record.sha256 := hbad.2.2 ▸ regular_preparationDigest hash _
  have hparity := h.pending
  cases hphase : record.phase with
  | unknown name => simp [hphase] at hr
  | pending =>
      cases hpending : s.pending with
      | some intent => simp [hphase, hpending] at hr
      | none =>
          simp only [hphase, hpending] at hr
          split at hr
          · cases hr
          cases hr
          simp only [hpending, Option.isSome_none, Bool.false_eq_true, false_iff] at hparity
          exact ⟨⟨hseq, show s.completed.length = (n + 1) / 2 by omega, by simp; omega, hsha, hposition⟩, rfl, rfl⟩
  | complete =>
      cases hpending : s.pending with
      | none => simp [hphase, hpending] at hr
      | some intent =>
          simp only [hphase, hpending] at hr
          split at hr
          · cases hr
          cases hr
          simp only [hpending, Option.isSome_some, true_iff] at hparity
          refine ⟨⟨hseq, ?_, by simp; omega, hsha, ?_⟩, rfl, rfl⟩
          · simp only [List.length_append, List.length_singleton]
            omega
          · simp only [List.length_append, List.length_singleton]
            omega

lemma readRecords_counted {l : Limits} {records : List Record} {n : ℕ} {s s' : Session} (h : Counted n s)
    (hr : records.foldlM (readRecord hash l) s = .ok s') :
    Counted (n + records.length) s' ∧ s'.position = s.position ∧ s'.size = s.size := by
  induction records generalizing n s with
  | nil =>
      cases hr
      exact ⟨h, rfl, rfl⟩
  | cons record records ih =>
      rw [List.foldlM_cons] at hr
      cases hfirst : readRecord hash l s record with
      | error f =>
          rw [hfirst] at hr
          cases hr
      | ok s₁ =>
          rw [hfirst] at hr
          obtain ⟨hcounted, hpos, hsize⟩ := readRecord_counted hash h hfirst
          obtain ⟨hlast, hpos', hsize'⟩ := ih hcounted hr
          rw [List.length_cons, show n + (records.length + 1) = n + 1 + records.length by omega]
          exact ⟨hlast, hpos'.trans hpos, hsize'.trans hsize⟩

lemma counted_startSession (header : Bytes) (size : ℕ) : Counted 0 (startSession hash header size) :=
  ⟨rfl, rfl, by simp [startSession], regular_preparationDigest hash _, le_refl _⟩

lemma Kept.reopen {rs : List Step} {c : Control} (h : Kept rs c) {l : Limits} {s : Session}
    (hs : c.reopen hash l = .ok s) : Tracks rs c s ∧ s.position = 0 := by
  unfold Control.reopen at hs
  split at hs
  · cases hs
  · rename_i htail
    obtain ⟨hcounted, hpos, hsize⟩ := readRecords_counted hash (counted_startSession hash _ _) hs
    rw [Nat.zero_add] at hcounted
    exact ⟨⟨h, not_not.1 htail, hsize, hcounted⟩, hpos⟩

lemma Kept.invoke {paths : Paths} {request : Request} {plan : Plan} {c : Control}
    (h : Kept (reservedSteps paths request plan) c) (hroom : Roomy (reservedSteps paths request plan) c.header)
    (i : Invocation) :
    Kept (reservedSteps paths request plan) (invoke hash paths request plan c i).1 ∧
      (invoke hash paths request plan c i).1.header = c.header ∧
      ∀ f, (invoke hash paths request plan c i).2 = .error f → f = .refused ∨ f = .uncertain ∨
        ∃ g, f = .unreadable g ∧ c.reopen hash request.limits = .error g := by
  unfold Journal.invoke
  cases hs : c.reopen hash request.limits with
  | error g =>
      refine ⟨h, rfl, ?_⟩
      rintro f ⟨⟩
      exact .inr (.inr ⟨g, rfl, rfl⟩)
  | ok s =>
      obtain ⟨htracks, hpos⟩ := h.reopen hash hs
      have hcover := covered_runMoves hash paths request plan i.inspect
      have hrun := htracks.execute hash i.replies hroom (by rw [hpos]; exact hcover)
      dsimp only
      generalize Journal.execute hash i.replies (runMoves hash paths request plan i.inspect) c s = out at hrun
      obtain ⟨c', f | s'⟩ := out
      · exact ⟨hrun.kept, hrun.header, fun g hg => (hrun.fault g hg).imp_right .inl⟩
      · dsimp only
        split
        · refine ⟨hrun.kept, hrun.header, ?_⟩
          rintro f ⟨⟩
          exact .inl rfl
        · exact ⟨hrun.kept, hrun.header, by rintro f ⟨⟩⟩

lemma Kept.controlAfter {paths : Paths} {request : Request} {plan : Plan} {c : Control}
    (h : Kept (reservedSteps paths request plan) c) (hroom : Roomy (reservedSteps paths request plan) c.header)
    (invocations : List Invocation) :
    Kept (reservedSteps paths request plan) (controlAfter hash paths request plan c invocations) ∧
      (controlAfter hash paths request plan c invocations).header = c.header := by
  refine run_invariant (I := fun c' => Kept (reservedSteps paths request plan) c' ∧ c'.header = c.header) ?_
    ⟨h, rfl⟩ invocations
  rintro c' i ⟨hkept, hheader⟩
  obtain ⟨hnext, hsame, -⟩ := hkept.invoke hash (hheader ▸ hroom) i
  exact ⟨hnext, hsame.trans hheader⟩

lemma readRecord_malformed {l : Limits} {s : Session} {record : Record} {f : ReadFault}
    (hlimit : s.sequence < recordLimit l) (hr : readRecord hash l s record = .error f) : f = .malformed := by
  unfold readRecord at hr
  rw [if_neg (not_le.2 hlimit)] at hr
  split at hr
  · cases hr
    rfl
  · split at hr
    · split at hr <;> cases hr
      rfl
    · split at hr <;> cases hr
      rfl
    all_goals
      cases hr
      rfl

lemma readItems_malformed {α : Type} {l : Limits} {read : Session → α → Except ReadFault Session}
    (hread : ∀ s a, s.sequence < recordLimit l →
      read s a = .error .malformed ∨ ∃ record, read s a = readRecord hash l s record)
    {items : List α} {n : ℕ} {s : Session} {f : ReadFault} (h : Counted n s)
    (hcount : n + items.length ≤ recordLimit l) (hr : items.foldlM read s = .error f) : f = .malformed := by
  induction items generalizing n s with
  | nil => cases hr
  | cons a items ih =>
      rw [List.length_cons] at hcount
      have hlimit : s.sequence < recordLimit l := by
        rw [h.sequence]
        omega
      rw [List.foldlM_cons] at hr
      rcases hread s a hlimit with hbad | ⟨record, hrecord⟩
      · rw [hbad] at hr
        cases hr
        rfl
      · rw [hrecord] at hr
        cases hfirst : readRecord hash l s record with
        | error g =>
            rw [hfirst] at hr
            cases hr
            exact readRecord_malformed hash hlimit hfirst
        | ok s₁ =>
            rw [hfirst] at hr
            exact ih (readRecord_counted hash h hfirst).1 (by omega) hr

lemma readLine_malformed_or (decoder : Decoder) {l : Limits} (s : Session) (line : Bytes)
    (hlimit : s.sequence < recordLimit l) : readLine hash decoder l s line = .error .malformed ∨
      ∃ record, readLine hash decoder l s line = readRecord hash l s record := by
  rw [readLine, if_neg (not_le.2 hlimit)]
  cases decoder.record (dropReturn line) with
  | none => exact .inl rfl
  | some record => exact .inr ⟨record, rfl⟩

end Steps

section Reading

variable {c : Control}

lemma Control.lines_oneLine (c : Control) : ∀ line ∈ c.lines, OneLine line := by
  intro line hline
  rcases List.mem_cons.1 hline with rfl | hmem
  · exact c.header.json_oneLine
  · obtain ⟨r, -, rfl⟩ := List.mem_map.1 hmem
    exact r.json_oneLine

lemma Control.splitLines_bytes (h : c.tail = []) : splitLines c.bytes = (c.lines, []) := by
  rw [Control.bytes, h, List.append_nil]
  exact splitLines_lines c.lines_oneLine

lemma Control.getLast_bytes (h : c.tail = []) : c.bytes.getLast? = some 10 := by
  rw [Control.bytes, h, List.append_nil]
  obtain ⟨init, last, hl⟩ := List.eq_nil_or_concat c.lines |>.resolve_left (by simp [Control.lines])
  rw [hl]
  simp

lemma Control.getLast_torn (h : c.tail ≠ []) (hone : OneLine c.tail) : c.bytes.getLast? ≠ some 10 := by
  rw [Control.bytes, List.getLast?_append_of_ne_nil _ h]
  exact fun he => hone (List.mem_of_getLast? he)

lemma Control.bytes_ne_nil (c : Control) : c.bytes.length ≠ 0 := by
  simp [Control.bytes, Control.lines]

lemma dropReturn_object (fields : List Field) : dropReturn (object fields) = object fields := by
  have hlast : (object fields).getLast? = some 125 := List.getLast?_concat ..
  simp [dropReturn, hlast]

lemma takeWhile_lines {rs : List Step} (h : Kept rs c) (hroom : Roomy rs c.header)
    (hheader : c.header.json.length + 1 ≤ maximumPreparationControlRecordBytes) :
    c.lines.takeWhile fitsScanner = c.lines := by
  refine List.takeWhile_eq_self_iff.2 fun line hline => decide_eq_true ?_
  rcases List.mem_cons.1 hline with rfl | hmem
  · exact hheader
  · obtain ⟨r, hr, rfl⟩ := List.mem_map.1 hmem
    obtain ⟨t, ht, hle⟩ := h.length_record hr
    exact hle.trans (hroom.record t ht)

variable (hash : Bytes → Fin 64 → Fin 16)

lemma Kept.readControl_eq {rs : List Step} (h : Kept rs c) (hroom : Roomy rs c.header)
    (hheader : c.header.json.length + 1 ≤ maximumPreparationControlRecordBytes) (decoder : Decoder) (l : Limits) :
    readControl hash decoder l c.bytes =
      if c.tail ≠ [] then .error .partialTail
      else if (decoder.header c.header.json).isNone then .error .malformed
      else (c.records.map Record.json).foldlM (readLine hash decoder l)
        (startSession hash c.header.json c.bytes.length) := by
  have hsize : ¬ (c.bytes.length = 0 ∨ maximumPreparationControlBytes < c.bytes.length) := by
    rw [not_or, not_lt]
    exact ⟨c.bytes_ne_nil, h.length_bytes.trans hroom.total⟩
  unfold readControl
  rw [if_neg hsize]
  by_cases htail : c.tail = []
  · rw [if_neg (not_not.2 htail), if_neg (not_not.2 (Control.getLast_bytes htail)), Control.splitLines_bytes htail,
      takeWhile_lines h hroom hheader]
    have hdrop : dropReturn c.header.json = c.header.json := dropReturn_object _
    simp only [Control.lines, List.length_cons, lt_irrefl, if_false, hdrop]
    split
    · rfl
    · cases (c.records.map Record.json).foldlM (readLine hash decoder l)
        (startSession hash c.header.json c.bytes.length) <;> rfl
  · rw [if_pos htail, if_pos (Control.getLast_torn htail h.oneLine)]

lemma Kept.readControl_not_limit {rs : List Step} (h : Kept rs c) (hroom : Roomy rs c.header)
    (hheader : c.header.json.length + 1 ≤ maximumPreparationControlRecordBytes) {l : Limits}
    (hcount : 2 * rs.length ≤ recordLimit l) (decoder : Decoder) {f : ReadFault}
    (hf : readControl hash decoder l c.bytes = .error f) : ¬ f.IsLimit := by
  rw [h.readControl_eq hash hroom hheader] at hf
  split at hf
  · cases hf
    simp [ReadFault.IsLimit]
  · split at hf
    · cases hf
      simp [ReadFault.IsLimit]
    · have hlen : 0 + (c.records.map Record.json).length ≤ recordLimit l := by
        rw [List.length_map, Nat.zero_add]
        exact h.count.trans hcount
      rw [readItems_malformed hash (readLine_malformed_or hash decoder) (counted_startSession hash _ _) hlen hf]
      simp [ReadFault.IsLimit]

lemma Kept.reopen_not_limit {rs : List Step} (h : Kept rs c) {l : Limits} (hcount : 2 * rs.length ≤ recordLimit l)
    {f : ReadFault} (hf : c.reopen hash l = .error f) : ¬ f.IsLimit := by
  unfold Control.reopen at hf
  split at hf
  · cases hf
    simp [ReadFault.IsLimit]
  · have hlen : 0 + c.records.length ≤ recordLimit l := by
      rw [Nat.zero_add]
      exact h.count.trans hcount
    rw [readItems_malformed hash (fun s a _ => .inr ⟨a, rfl⟩) (counted_startSession hash _ _) hlen hf]
    simp [ReadFault.IsLimit]

lemma readLines_json {decoder : Decoder} {l : Limits} {records : List Record}
    (hdr : ∀ r ∈ records, decoder.record r.json = some r) (s : Session) :
    (records.map Record.json).foldlM (readLine hash decoder l) s = records.foldlM (readRecord hash l) s := by
  induction records generalizing s with
  | nil => rfl
  | cons r records ih =>
      have hdrop : dropReturn r.json = r.json := dropReturn_object _
      have hline : readLine hash decoder l s r.json = readRecord hash l s r := by
        rw [readLine, hdrop, hdr r List.mem_cons_self]
        split
        · rename_i hlimit
          rw [readRecord, if_pos hlimit]
        · rfl
      rw [List.map_cons, List.foldlM_cons, List.foldlM_cons, hline]
      exact bind_congr fun s' => ih (fun q hq => hdr q (List.mem_cons_of_mem _ hq)) s'

lemma Kept.readControl_reopen {rs : List Step} (h : Kept rs c) (hroom : Roomy rs c.header)
    (hheader : c.header.json.length + 1 ≤ maximumPreparationControlRecordBytes) {decoder : Decoder} {l : Limits}
    (hdh : decoder.header c.header.json = some c.header)
    (hdr : ∀ r ∈ c.records, decoder.record r.json = some r) :
    readControl hash decoder l c.bytes = c.reopen hash l := by
  rw [h.readControl_eq hash hroom hheader, Control.reopen, hdh, Option.isNone_some, if_neg Bool.false_ne_true,
    readLines_json hash hdr]

end Reading

section Accepting

lemma reserve_eq_some {used n : ℕ} {step : Step} (h : reserve used step = some n) :
    reserved step ≤ maximumPreparationControlRecordBytes ∧ n = used + 2 * reserved step ∧
      2 * reserved step ≤ maximumPreparationControlBytes - used := by
  unfold reserve at h
  split at h
  · cases h
  · split at h
    · cases h
    · cases h
      rename_i hrecord htotal
      exact ⟨not_lt.1 hrecord, rfl, not_lt.1 htotal⟩

lemma foldlM_reserve {steps : List Step} {used n : ℕ} (hused : used ≤ maximumPreparationControlBytes)
    (h : steps.foldlM reserve used = some n) :
    n = used + (slots steps).sum ∧ n ≤ maximumPreparationControlBytes ∧
      ∀ r ∈ steps, reserved r ≤ maximumPreparationControlRecordBytes := by
  induction steps generalizing used with
  | nil =>
      cases h
      simp [slots, hused]
  | cons step steps ih =>
      rw [List.foldlM_cons] at h
      obtain ⟨m, hm, hrest⟩ := Option.bind_eq_some_iff.1 h
      obtain ⟨hrecord, rfl, hroom⟩ := reserve_eq_some hm
      obtain ⟨hn, hmax, hall⟩ := ih (by omega) hrest
      refine ⟨?_, hmax, List.forall_mem_cons.2 ⟨hrecord, hall⟩⟩
      rw [hn, slots_cons, List.sum_cons, List.sum_cons]
      omega

lemma widestHeader_fits (cohort : Bool) :
    (widestHeader cohort).json.length + 1 ≤ maximumPreparationControlRecordBytes := by
  cases cohort <;> decide +kernel

lemma length_createdControl_header (hash : Bytes → Fin 64 → Fin 16) (plan : Plan) (planRaw : Bytes)
    (cohortRaw : Option Bytes) (identity : Identity) :
    (createdControl hash plan planRaw cohortRaw identity).header.json.length ≤
      (widestHeader cohortRaw.isSome).json.length := by
  have hroot := plan.root.length_json_le
  have hcontrol := identity.length_json_le
  have hplan := (regular_preparationDigest hash planRaw).length_quote
  have hwidest := regular_widestDigest.length_quote
  refine length_object_mono ?_
  cases cohortRaw with
  | none =>
      simp only [createdControl, widestHeader, weight_append, weight_cons, weight_nil, weight_unlessEmpty,
        Option.elim_none, Option.isSome_none, Bool.false_eq_true, if_false, hplan, hwidest, ne_eq, not_true_eq_false,
        decide_false]
      omega
  | some raw =>
      have hcohort := regular_preparationDigest hash raw
      simp only [createdControl, widestHeader, weight_append, weight_cons, weight_nil,
        weight_unlessEmpty, Option.elim_some, Option.isSome_some, if_true, hplan, hwidest, hcohort.length_quote,
        hcohort.ne_nil, regular_widestDigest.ne_nil, ne_eq, not_false_eq_true, decide_true]
      omega

variable {paths : Paths} {reader : PlanReader} {request : Request}

structure Bound.Within (b : Bound) (l : Limits) : Prop where
  sources : b.sources.length = b.seen.length
  entries : b.seen.length ≤ l.maxEntries

lemma bindFile_within {owner : OwnerPlan} {b b' : Bound} {file : File} (h : b.Within request.limits)
    (hb : bindFile paths reader request owner b file = some b') :
    b'.Within request.limits ∧ b'.attributesUsed = b.attributesUsed := by
  unfold bindFile at hb
  split at hb
  · cases hb
  · split at hb
    · cases hb
    · rename_i hroom
      obtain ⟨identity, -, rfl⟩ := Option.map_eq_some_iff.1 hb
      refine ⟨⟨?_, ?_⟩, rfl⟩
      · simp [h.sources]
      · simp only [not_or, not_le] at hroom
        exact hroom.1

lemma bindFiles_within {owner : OwnerPlan} {files : List File} {b b' : Bound} (h : b.Within request.limits)
    (hb : files.foldlM (bindFile paths reader request owner) b = some b') :
    b'.Within request.limits ∧ b'.attributesUsed = b.attributesUsed := by
  induction files generalizing b with
  | nil =>
      cases hb
      exact ⟨h, rfl⟩
  | cons file files ih =>
      rw [List.foldlM_cons] at hb
      obtain ⟨b₁, hfirst, hrest⟩ := Option.bind_eq_some_iff.1 hb
      obtain ⟨hw, hused⟩ := bindFile_within h hfirst
      obtain ⟨hw', hused'⟩ := ih hw hrest
      exact ⟨hw', hused'.trans hused⟩

lemma bindAttributes_within {specs : List AttributeSpec} {b b' : Bound} (h : b.Within request.limits)
    (hb : specs.foldlM (bindAttribute paths request) b = some b') :
    b'.Within request.limits ∧ b'.attributesUsed = b.attributesUsed + specs.length := by
  induction specs generalizing b with
  | nil =>
      cases hb
      exact ⟨h, rfl⟩
  | cons spec specs ih =>
      rw [List.foldlM_cons] at hb
      obtain ⟨b₁, hfirst, hrest⟩ := Option.bind_eq_some_iff.1 hb
      unfold bindAttribute at hfirst
      split at hfirst
      · cases hfirst
      · cases hfirst
        obtain ⟨hw, hused⟩ := ih (b := { b with
          attributes := attributeKey spec :: b.attributes
          attributesUsed := b.attributesUsed + 1 }) ⟨h.sources, h.entries⟩ hrest
        refine ⟨hw, hused.trans ?_⟩
        show b.attributesUsed + 1 + specs.length = b.attributesUsed + (specs.length + 1)
        omega

lemma bindOwners_within {count : ℕ} {owners : List OwnerPlan} {b b' : Bound} (h : b.Within request.limits)
    (hb : owners.foldlM (bindOwner paths reader request count) b = some b') :
    b'.Within request.limits ∧
      b'.attributesUsed = b.attributesUsed + (owners.map fun owner => owner.attributes.length).sum := by
  induction owners generalizing b with
  | nil =>
      cases hb
      exact ⟨h, rfl⟩
  | cons owner owners ih =>
      rw [List.foldlM_cons] at hb
      obtain ⟨b₁, hfirst, hrest⟩ := Option.bind_eq_some_iff.1 hb
      unfold bindOwner at hfirst
      split at hfirst
      · cases hfirst
      · obtain ⟨b₂, hfiles, hattributes⟩ := Option.bind_eq_some_iff.1 hfirst
        obtain ⟨hw₂, hused₂⟩ := bindFiles_within h hfiles
        obtain ⟨hw₁, hused₁⟩ := bindAttributes_within hw₂ hattributes
        obtain ⟨hw, hused⟩ := ih hw₁ hrest
        refine ⟨hw, ?_⟩
        rw [hused, hused₁, hused₂, List.map_cons, List.sum_cons]
        omega

lemma bindPreparationSources_within {owners : List OwnerPlan} {sources : List Source}
    (h : bindPreparationSources paths reader request owners = some sources) :
    sources.length ≤ request.limits.maxEntries ∧
      (owners.map fun owner => owner.attributes.length).sum ≤ request.limits.maxOwnerAttributes := by
  obtain ⟨b, hb, hrest⟩ := Option.bind_eq_some_iff.1 h
  obtain ⟨hw, hused⟩ := bindOwners_within ⟨rfl, Nat.zero_le _⟩ hb
  split at hrest
  · cases hrest
  · rename_i hlimit
    simp only [not_or, not_lt] at hlimit
    split at hrest
    · cases hrest
    · split at hrest
      · cases hrest
      · cases hrest
        rw [List.length_insertionSort, hw.sources]
        refine ⟨hw.entries, ?_⟩
        rw [Nat.zero_add] at hused
        exact hused ▸ hlimit.1

lemma readPreparationPlan_accepts {plan : Plan} (h : readPreparationPlan paths reader = some (plan, request)) :
    (∃ n, request.limits.within request.purpose n ∧ n ≤ 2048) ∧
      bindPreparationSources paths reader request plan.owners = some plan.sources ∧
      (preparationControlCapacity paths request plan false).isSome := by
  obtain ⟨⟨plan', request', size⟩, -, hrest⟩ := Option.bind_eq_some_iff.1 h
  dsimp only at hrest
  split at hrest
  · cases hrest
  rename_i hvalid
  split at hrest
  · cases hrest
  obtain ⟨sources, hsources, hrest⟩ := Option.bind_eq_some_iff.1 hrest
  split at hrest
  · cases hrest
  rename_i hsame
  obtain ⟨used, hused, hrest⟩ := Option.bind_eq_some_iff.1 hrest
  cases hrest
  rw [not_not] at hsame
  refine ⟨?_, hsame ▸ hsources, by rw [hused]; rfl⟩
  simp only [Request.validate, Bool.not_eq_false, Bool.and_eq_true, Option.any_eq_true, decide_eq_true_eq] at hvalid
  obtain ⟨-, profile, hprofile, hwithin, -⟩ := hvalid
  refine ⟨profile.2, hwithin, ?_⟩
  unfold Request.profile at hprofile
  split_ifs at hprofile <;> cases hprofile <;> decide

lemma length_reservedSteps (paths : Paths) (request : Request) (plan : Plan) :
    (reservedSteps paths request plan).length ≤
      plan.sources.length + (plan.owners.map fun owner => owner.attributes.length).sum + 5 := by
  unfold reservedSteps
  simp only [List.length_append, List.length_cons, List.length_map, List.length_flatMap, List.length_nil]
  split_ifs
  · simp only [List.length_singleton]
    omega
  · simp only [List.length_nil]
    omega

structure WithinLimits (hash : Bytes → Fin 64 → Fin 16) (paths : Paths) (request : Request) (plan : Plan) (used : ℕ)
    (c : Control) : Prop where
  record : ∀ r ∈ c.records, (r.json ++ [10]).length ≤ maximumPreparationControlRecordBytes
  total : c.bytes.length ≤ used
  append : ∀ i, (invoke hash paths request plan c i).2 ≠ .error .capacity
  resume : ∀ i f, (invoke hash paths request plan c i).2 = .error (.unreadable f) → ¬ f.IsLimit
  read : ∀ decoder f, readControl hash decoder request.limits c.bytes = .error f → ¬ f.IsLimit
  decode : ∀ decoder : Decoder, decoder.header c.header.json = some c.header →
    (∀ r ∈ c.records, decoder.record r.json = some r) →
    readControl hash decoder request.limits c.bytes = c.reopen hash request.limits

lemma Kept.withinLimits (hash : Bytes → Fin 64 → Fin 16) {plan : Plan} {used : ℕ} {c : Control}
    (h : Kept (reservedSteps paths request plan) c) (hroom : Roomy (reservedSteps paths request plan) c.header)
    (hheader : c.header.json.length + 1 ≤ maximumPreparationControlRecordBytes)
    (hused : c.header.json.length + 1 + (slots (reservedSteps paths request plan)).sum ≤ used)
    (hcount : 2 * (reservedSteps paths request plan).length ≤ recordLimit request.limits) :
    WithinLimits hash paths request plan used c where
  record r hr := by
    obtain ⟨t, ht, hle⟩ := h.length_record hr
    rw [List.length_append, List.length_singleton]
    exact hle.trans (hroom.record t ht)
  total := h.length_bytes.trans hused
  append i hf := by
    rcases (h.invoke hash hroom i).2.2 _ hf with hr | hu | ⟨g, hg, -⟩
    · cases hr
    · cases hu
    · cases hg
  resume i f hf := by
    rcases (h.invoke hash hroom i).2.2 _ hf with hr | hu | ⟨g, hg, hs⟩
    · cases hr
    · cases hu
    · cases hg
      exact h.reopen_not_limit hash hcount hs
  read decoder f hf := h.readControl_not_limit hash hroom hheader hcount decoder hf
  decode decoder hdh hdr := h.readControl_reopen hash hroom hheader hdh hdr

lemma reservedSteps_count {plan : Plan} (h : readPreparationPlan paths reader = some (plan, request)) :
    2 * (reservedSteps paths request plan).length ≤ recordLimit request.limits ∧
      2 * (reservedSteps paths request plan).length < 2 ^ 64 := by
  obtain ⟨⟨n, hwithin, hn⟩, hsources, -⟩ := readPreparationPlan_accepts h
  obtain ⟨hentries, hattributes⟩ := bindPreparationSources_within hsources
  have hsteps := length_reservedSteps paths request plan
  obtain ⟨-, hmaxEntries, -, -, -, -, -, hmaxAttributes, -⟩ := hwithin
  have hentryLimit : request.limits.maxEntries ≤ 32768 := by
    refine hmaxEntries.trans ?_
    unfold maximumPhysicalInventoryEntries
    split <;> omega
  unfold recordLimit
  rw [Nat.mod_eq_of_lt (by omega)]
  omega

/-- For every accepted plan, alone or in a cohort that admits its capacity, and after every sequence of applications
whatever they observe and wherever they stop. -/
theorem accepted_plan_fits_control (hash : Bytes → Fin 64 → Fin 16) {plan : Plan}
    (accepted : readPreparationPlan paths reader = some (plan, request)) (planRaw : Bytes) (cohortRaw : Option Bytes)
    (cohort : cohortRaw.isSome → (preparationControlCapacity paths request plan true).isSome) (identity : Identity)
    (invocations : List Invocation) :
    ∃ used, preparationControlCapacity paths request plan cohortRaw.isSome = some used ∧
      used ≤ maximumPreparationControlBytes ∧
      WithinLimits hash paths request plan used (controlAfter hash paths request plan
        (createdControl hash plan planRaw cohortRaw identity) invocations) := by
  obtain ⟨used, hcapacity⟩ : ∃ used, preparationControlCapacity paths request plan cohortRaw.isSome = some used := by
    cases hc : cohortRaw.isSome with
    | false => exact Option.isSome_iff_exists.1 (readPreparationPlan_accepts accepted).2.2
    | true => exact Option.isSome_iff_exists.1 (cohort hc)
  obtain ⟨hcount, hsmall⟩ := reservedSteps_count accepted
  have hwidest := widestHeader_fits cohortRaw.isSome
  obtain ⟨hsum, hmax, hrecord⟩ := foldlM_reserve (hwidest.trans (by decide)) hcapacity
  have hcreated := length_createdControl_header hash plan planRaw cohortRaw identity
  have hroom : Roomy (reservedSteps paths request plan)
      (createdControl hash plan planRaw cohortRaw identity).header := ⟨hrecord, by omega, hsmall⟩
  have hempty : Kept (reservedSteps paths request plan) (createdControl hash plan planRaw cohortRaw identity) :=
    ⟨.nil, Nat.zero_le _, oneLine_nil⟩
  obtain ⟨hkept, hheader⟩ := hempty.controlAfter hash hroom invocations
  refine ⟨used, hcapacity, hmax, hkept.withinLimits hash (hheader ▸ hroom) ?_ ?_ hcount⟩
  · rw [hheader]
    omega
  · rw [hheader]
    omega

def samplePaths : Paths where
  join a b := a ++ '/' :: b
  dir _ := ".".toList
  base path := path
  relative path _ root := root || decide (path ≠ ".".toList)

def sampleRequest : Request :=
  ⟨.fresh, .daemon, [], "/m".toList, "u".toList, "ext4".toList, 1, 1, "/m/r".toList, createPrivate, "/m/k".toList,
    "/m/l".toList, "/m/d".toList, "/m/s".toList, ⟨4, 4096, 2, 2, 8192, 4096⟩, 1⟩

def sampleFile : File := ⟨"f".toList, .file, 0o600, 3, widestDigest⟩

def samplePlan : Plan :=
  ⟨⟨1, 2, 0o700, 0, 0⟩, "/m/s/r".toList, List.replicate 32 0, List.replicate 32 1, List.replicate 32 2,
    List.replicate 32 3,
    [⟨"o".toList, false, [sampleFile], [], [1], false⟩],
    [⟨sampleFile, "/m/s/o/f".toList, ⟨1, 3, 0o600, 0, 0⟩⟩]⟩

def sampleReader : PlanReader where
  decoded := some (samplePlan, sampleRequest, 2000)
  shape _ := true
  authentic _ _ := true
  metadata _ _ := true
  opened _ _ _ := some ⟨1, 3, 0o600, 0, 0⟩

lemma foldlM_reserve_of_le {steps : List Step} {used : ℕ}
    (hrecord : ∀ r ∈ steps, reserved r ≤ maximumPreparationControlRecordBytes)
    (htotal : used + 2 * steps.length * maximumPreparationControlRecordBytes ≤ maximumPreparationControlBytes) :
    (steps.foldlM reserve used).isSome := by
  induction steps generalizing used with
  | nil => rfl
  | cons step steps ih =>
      obtain ⟨hstep, hrest⟩ := List.forall_mem_cons.1 hrecord
      rw [List.length_cons, Nat.mul_add, Nat.add_mul] at htotal
      have hfirst : reserve used step = some (used + 2 * reserved step) := by
        rw [reserve, if_neg (not_lt.2 hstep), if_neg (by omega)]
      rw [List.foldlM_cons, hfirst]
      exact ih hrest (by omega)

lemma sample_capacity (cohort : Bool) :
    (preparationControlCapacity samplePaths sampleRequest samplePlan cohort).isSome := by
  have hrecord : ∀ r ∈ reservedSteps samplePaths sampleRequest samplePlan,
      reserved r ≤ maximumPreparationControlRecordBytes := by decide +kernel
  have hlength := length_reservedSteps samplePaths sampleRequest samplePlan
  have hheader := widestHeader_fits cohort
  refine foldlM_reserve_of_le hrecord ?_
  have hsteps : (reservedSteps samplePaths sampleRequest samplePlan).length ≤ 6 := hlength
  have hmax : 13 * maximumPreparationControlRecordBytes ≤ maximumPreparationControlBytes := by decide
  have hmul := Nat.mul_le_mul_right maximumPreparationControlRecordBytes (Nat.mul_le_mul_left 2 hsteps)
  omega

lemma sampleReader_accepts : readPreparationPlan samplePaths sampleReader = some (samplePlan, sampleRequest) := by
  obtain ⟨used, hused⟩ := Option.isSome_iff_exists.1 (sample_capacity false)
  have hvalid : sampleRequest.validate sampleReader = true := by decide +kernel
  have hsources : bindPreparationSources samplePaths sampleReader sampleRequest samplePlan.owners =
      some samplePlan.sources := by decide +kernel
  have hshape : ¬ (samplePlan.nonce.length ≠ 32 ∨ samplePlan.generation.length ≠ 32 ∨ samplePlan.marker.length ≠ 32 ∨
      samplePlan.lease.length ≠ 32 ∨ sampleRequest.limits.maxPlanBytes < 2000 ∨
      samplePlan.owners.length ≠ sampleRequest.owners ∨ sampleReader.authentic samplePlan sampleRequest = false) := by
    decide
  have hdecoded : sampleReader.decoded = some (samplePlan, sampleRequest, 2000) := rfl
  rw [readPreparationPlan, hdecoded, Option.bind_eq_bind, Option.bind_some]
  dsimp only
  rw [if_neg (by rw [hvalid]; decide), if_neg hshape, hsources, Option.bind_eq_bind, Option.bind_some,
    if_neg (not_not.2 rfl), hused]
  rfl

theorem accepted_plan_fits_control_sample :
    ∃ used, preparationControlCapacity samplePaths sampleRequest samplePlan true = some used ∧
      used ≤ maximumPreparationControlBytes ∧
      WithinLimits (fun _ _ => 7) samplePaths sampleRequest samplePlan used
        (controlAfter (fun _ _ => 7) samplePaths sampleRequest samplePlan
          (createdControl (fun _ _ => 7) samplePlan [0] (some [1]) ⟨1, 9, 0o600, 0, 0⟩)
          [⟨fun _ _ => none, fun _ => ⟨true, true, some ⟨1, 2, 0o700, 0, 0⟩, .acknowledged, .lost⟩⟩,
            ⟨fun _ _ => some [], fun _ => ⟨true, true, some ⟨1, 2, 0o700, 0, 0⟩, .acknowledged, .acknowledged⟩⟩]) :=
  accepted_plan_fits_control _ sampleReader_accepts [0] (some [1]) (fun _ => sample_capacity true) _ _

end Accepting

end UrConnect.DurableVolume.Journal
