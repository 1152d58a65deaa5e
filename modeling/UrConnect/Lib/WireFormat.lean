import Mathlib

/-! The protobuf wire format: base 128 varints, tagged fields, and readers that decode a message
field by field. -/

namespace UrConnect.Lib.WireFormat

def varint (n : ℕ) : List UInt8 :=
  if n < 128 then [UInt8.ofNat n] else UInt8.ofNat (n % 128 + 128) :: varint (n / 128)
termination_by n
decreasing_by omega

lemma varint_of_lt {n : ℕ} (h : n < 128) : varint n = [UInt8.ofNat n] := by
  rw [varint, if_pos h]

lemma varint_of_le {n : ℕ} (h : 128 ≤ n) :
    varint n = UInt8.ofNat (n % 128 + 128) :: varint (n / 128) := by
  rw [varint, if_neg (Nat.not_lt.mpr h)]

lemma varint_ne_nil (n : ℕ) : varint n ≠ [] := by
  rw [varint]
  split <;> simp

lemma varint_length_le {k n : ℕ} (h : n < 128 ^ (k + 1)) : (varint n).length ≤ k + 1 := by
  induction k generalizing n with
  | zero => simp [varint_of_lt (show n < 128 by omega)]
  | succ k ih =>
    by_cases hn : n < 128
    · simp [varint_of_lt hn]
    · rw [varint_of_le (Nat.not_lt.mp hn), List.length_cons, Nat.succ_le_succ_iff]
      apply ih
      rw [Nat.div_lt_iff_lt_mul (by decide)]
      exact h

lemma varint_length_congr {m n : ℕ} (h : m / 8 = n / 8) : (varint m).length = (varint n).length := by
  by_cases hm : m < 128
  · rw [varint_of_lt hm, varint_of_lt (by omega), List.length_singleton, List.length_singleton]
  · rw [varint_of_le (Nat.not_lt.mp hm), varint_of_le (n := n) (by omega), List.length_cons, List.length_cons,
      show m / 128 = n / 128 by omega]

inductive Value where
  | varint (v : UInt64)
  | bytes (payload : List UInt8)

structure Field where
  number : ℕ
  value : Value

def varintType : ℕ := 0

def bytesType : ℕ := 2

def tag (number wireType : ℕ) : List UInt8 := varint (number * 8 + wireType)

namespace Value

def wireType : Value → ℕ
  | varint _ => varintType
  | bytes _ => bytesType

lemma wireType_lt (value : Value) : value.wireType < 8 := by
  cases value
  · exact (by decide : varintType < 8)
  · exact (by decide : bytesType < 8)

def encode : Value → List UInt8
  | varint v => WireFormat.varint v.toNat
  | bytes payload => WireFormat.varint payload.length ++ payload

def Valid : Value → Prop
  | varint _ => True
  | bytes payload => payload.length < 2 ^ 64

end Value

namespace Field

def encode (f : Field) : List UInt8 := tag f.number f.value.wireType ++ f.value.encode

def Valid (f : Field) : Prop := 0 < f.number ∧ f.number < 2 ^ 29 ∧ f.value.Valid

end Field

def encode (fs : List Field) : List UInt8 := fs.flatMap Field.encode

@[simp] lemma encode_nil : encode [] = [] := rfl

@[simp] lemma encode_cons (f : Field) (fs : List Field) : encode (f :: fs) = f.encode ++ encode fs := rfl

@[simp] lemma encode_append (fs gs : List Field) : encode (fs ++ gs) = encode fs ++ encode gs := by
  simp [encode]

lemma tag_ne_nil (number wireType : ℕ) : tag number wireType ≠ [] := varint_ne_nil _

structure Reader where
  consumeTag : List UInt8 → Option (ℕ × ℕ × ℕ)
  consumeVarint : List UInt8 → Option (UInt64 × ℕ)
  consumeBytes : List UInt8 → Option (List UInt8 × ℕ)
  consumeFieldValue : ℕ → ℕ → List UInt8 → Option ℕ

namespace Reader

structure Standard (r : Reader) : Prop where
  consumeTag : ∀ number wireType rest, 0 < number → number < 2 ^ 29 → wireType < 8 →
    r.consumeTag (tag number wireType ++ rest) = some (number, wireType, (tag number wireType).length)
  consumeVarint : ∀ v rest,
    r.consumeVarint ((Value.varint v).encode ++ rest) = some (v, (Value.varint v).encode.length)
  consumeBytes : ∀ payload rest, (Value.bytes payload).Valid →
    r.consumeBytes ((Value.bytes payload).encode ++ rest) = some (payload, (Value.bytes payload).encode.length)
  consumeFieldValue : ∀ number (value : Value) rest, value.Valid →
    r.consumeFieldValue number value.wireType (value.encode ++ rest) = some value.encode.length

section fields

variable {σ : Type} (r : Reader)

def varintField (wireType : ℕ) (b : List UInt8) (set : UInt64 → σ) : Option (σ × ℕ) :=
  if wireType ≠ varintType then none
  else (r.consumeVarint b).map fun (v, n) => (set v, n)

def bytesField (wireType : ℕ) (b : List UInt8) (set : List UInt8 → Option σ) : Option (σ × ℕ) :=
  if wireType ≠ bytesType then none
  else (r.consumeBytes b).bind fun (v, n) => (set v).map fun s => (s, n)

def skipField (number wireType : ℕ) (b : List UInt8) (s : σ) : Option (σ × ℕ) :=
  (r.consumeFieldValue number wireType b).map fun n => (s, n)

/-- A message loop: `take` reads the value of the field whose tag was just read. The buffer gets
shorter with every tag, so its length bounds the rounds. -/
def readFields (take : ℕ → ℕ → List UInt8 → σ → Option (σ × ℕ)) : ℕ → List UInt8 → σ → Option σ
  | _, [], s => some s
  | 0, _ :: _, _ => none
  | rounds + 1, b :: bs, s =>
    (r.consumeTag (b :: bs)).bind fun (number, wireType, n) =>
      (take number wireType ((b :: bs).drop n) s).bind fun (s', k) =>
        readFields take rounds (((b :: bs).drop n).drop k) s'

def readMessage (take : ℕ → ℕ → List UInt8 → σ → Option (σ × ℕ)) (b : List UInt8) (s : σ) : Option σ :=
  readFields r take b.length b s

end fields

end Reader

section consumes

variable {σ : Type} {r : Reader} {take : ℕ → ℕ → List UInt8 → σ → Option (σ × ℕ)}
  {f : Field} {fs gs : List Field} {s s' t : σ}

inductive Consumes (take : ℕ → ℕ → List UInt8 → σ → Option (σ × ℕ)) : List Field → σ → σ → Prop
  | nil (s : σ) : Consumes take [] s s
  | cons {f : Field} {fs : List Field} {s t s' : σ} (valid : f.Valid)
      (taken : ∀ rest, take f.number f.value.wireType (f.value.encode ++ rest) s =
        some (t, f.value.encode.length))
      (others : Consumes take fs t s') : Consumes take (f :: fs) s s'

namespace Consumes

variable {number : ℕ}

lemma varint (hr : r.Standard) (h0 : 0 < number) (hn : number < 2 ^ 29) (v : UInt64) {set : UInt64 → σ}
    (ht : ∀ b, take number varintType b s = r.varintField varintType b set) (hs : set v = s') :
    Consumes take [⟨number, .varint v⟩] s s' := by
  subst hs
  refine .cons ⟨h0, hn, trivial⟩ (fun rest => ?_) (.nil _)
  rw [Value.wireType, ht, Reader.varintField, if_neg (not_not.mpr rfl), hr.consumeVarint, Option.map_some]

lemma bytes (hr : r.Standard) (h0 : 0 < number) (hn : number < 2 ^ 29) {payload : List UInt8}
    (hp : payload.length < 2 ^ 64) {set : List UInt8 → Option σ}
    (ht : ∀ b, take number bytesType b s = r.bytesField bytesType b set) (hs : set payload = some s') :
    Consumes take [⟨number, .bytes payload⟩] s s' := by
  refine .cons ⟨h0, hn, hp⟩ (fun rest => ?_) (.nil _)
  rw [Value.wireType, ht, Reader.bytesField, if_neg (not_not.mpr rfl), hr.consumeBytes _ _ hp]
  simp only [Option.bind_some, hs, Option.map_some]

lemma skip (hr : r.Standard) (hf : f.Valid)
    (ht : ∀ b, take f.number f.value.wireType b s = r.skipField f.number f.value.wireType b s) :
    Consumes take [f] s s := by
  refine .cons hf (fun rest => ?_) (.nil _)
  rw [ht, Reader.skipField, hr.consumeFieldValue _ _ _ hf.2.2, Option.map_some]

lemma append (hf : Consumes take fs s t) (hg : Consumes take gs t s') : Consumes take (fs ++ gs) s s' := by
  induction hf with
  | nil => exact hg
  | cons valid taken _ ih => exact .cons valid taken (ih hg)

lemma ite {c : Prop} [Decidable c] (h : c → Consumes take fs s s') (h' : ¬c → s' = s) :
    Consumes take (if c then fs else []) s s' := by
  by_cases hc : c
  · rw [if_pos hc]
    exact h hc
  · rw [if_neg hc, h' hc]
    exact .nil s

end Consumes

lemma readFields_step {rounds number wireType n k : ℕ} {b : List UInt8} (hb : b ≠ [])
    (ht : r.consumeTag b = some (number, wireType, n)) (hv : take number wireType (b.drop n) s = some (t, k)) :
    r.readFields take (rounds + 1) b s = r.readFields take rounds ((b.drop n).drop k) t := by
  obtain ⟨c, cs, rfl⟩ := List.exists_cons_of_ne_nil hb
  rw [Reader.readFields, ht]
  simp only [Option.bind_some, hv]

lemma readFields_encode (hr : r.Standard) (h : Consumes take fs s s') {rounds : ℕ}
    (hn : (encode fs).length ≤ rounds) : r.readFields take rounds (encode fs) s = some s' := by
  induction h generalizing rounds with
  | nil s => rw [encode_nil, Reader.readFields]
  | @cons f fs s t s' valid taken _ ih =>
    have htag : tag f.number f.value.wireType ≠ [] := tag_ne_nil _ _
    have hpos := List.length_pos_of_ne_nil htag
    have hread := hr.consumeTag f.number f.value.wireType (f.value.encode ++ encode fs) valid.1 valid.2.1
      f.value.wireType_lt
    rw [encode_cons, Field.encode, List.append_assoc] at hn ⊢
    rw [List.length_append, List.length_append] at hn
    obtain ⟨rounds, rfl⟩ : ∃ k, rounds = k + 1 := ⟨rounds - 1, by omega⟩
    rw [readFields_step (List.append_ne_nil_of_left_ne_nil htag _) hread
      (by rw [List.drop_left]; exact taken _), List.drop_left, List.drop_left]
    apply ih
    omega

lemma readMessage_encode (hr : r.Standard) (h : Consumes take fs s s') :
    r.readMessage take (encode fs) s = some s' :=
  readFields_encode hr h (Nat.le_refl _)

end consumes

/-! A reader of the standard format. -/

def takeVarint : ℕ → List UInt8 → Option (ℕ × ℕ)
  | _, [] => none
  | 0, _ :: _ => none
  | groups + 1, b :: bs =>
    if b.toNat < 128 then some (b.toNat, 1)
    else (takeVarint groups bs).map fun (v, n) => (b.toNat - 128 + 128 * v, n + 1)

lemma takeVarint_of_lt {groups n : ℕ} (h : n < 128) (rest : List UInt8) :
    takeVarint (groups + 1) (varint n ++ rest) = some (n, (varint n).length) := by
  have hb : (UInt8.ofNat n).toNat = n := UInt8.toNat_ofNat_of_lt (Nat.lt_trans h (by decide))
  rw [varint_of_lt h, List.singleton_append, takeVarint, hb, if_pos h, List.length_singleton]

lemma takeVarint_varint {groups n : ℕ} (h : n < 128 ^ (groups + 1)) (rest : List UInt8) :
    takeVarint (groups + 1) (varint n ++ rest) = some (n, (varint n).length) := by
  induction groups generalizing n with
  | zero => exact takeVarint_of_lt h rest
  | succ groups ih =>
    by_cases hn : n < 128
    · exact takeVarint_of_lt hn rest
    · have hb : (UInt8.ofNat (n % 128 + 128)).toNat = n % 128 + 128 :=
        UInt8.toNat_ofNat_of_lt (show _ < 256 by omega)
      have hdiv : n / 128 < 128 ^ (groups + 1) := by
        rw [Nat.div_lt_iff_lt_mul (by decide)]
        exact h
      rw [varint_of_le (Nat.not_lt.mp hn), List.cons_append, takeVarint, hb, if_neg (by omega), ih hdiv]
      simp only [Option.map_some, List.length_cons, Nat.add_sub_cancel, Nat.mod_add_div]

def takeUInt64 (b : List UInt8) : Option (UInt64 × ℕ) :=
  (takeVarint 10 b).bind fun (v, n) => if v < 2 ^ 64 then some (UInt64.ofNat v, n) else none

def takeBytes (b : List UInt8) : Option (List UInt8 × ℕ) :=
  (takeUInt64 b).bind fun (v, n) =>
    if v.toNat ≤ (b.drop n).length then some ((b.drop n).take v.toNat, n + v.toNat) else none

lemma takeUInt64_varint {n : ℕ} (h : n < 2 ^ 64) (rest : List UInt8) :
    takeUInt64 (varint n ++ rest) = some (UInt64.ofNat n, (varint n).length) := by
  rw [takeUInt64, takeVarint_varint (by omega)]
  simp only [Option.bind_some, if_pos h]

def takeTag (b : List UInt8) : Option (ℕ × ℕ × ℕ) :=
  (takeUInt64 b).bind fun (v, n) =>
    if v.toNat / 8 = 0 ∨ 2 ^ 29 ≤ v.toNat / 8 then none else some (v.toNat / 8, v.toNat % 8, n)

def takeScalar (wireType : ℕ) (b : List UInt8) : Option ℕ :=
  match wireType with
  | 0 => (takeUInt64 b).map Prod.snd
  | 1 => if 8 ≤ b.length then some 8 else none
  | 2 => (takeBytes b).map Prod.snd
  | 5 => if 4 ≤ b.length then some 4 else none
  | _ => none

def takeGroup : ℕ → ℕ → List UInt8 → Option ℕ
  | 0, _, _ => none
  | rounds + 1, number, b =>
    (takeTag b).bind fun (inner, wireType, n) =>
      if wireType = 4 then if inner = number then some n else none
      else
        (if wireType = 3 then takeGroup rounds inner (b.drop n) else takeScalar wireType (b.drop n)).bind fun k =>
          (takeGroup rounds number ((b.drop n).drop k)).map fun rest => n + k + rest

def reader : Reader where
  consumeTag := takeTag
  consumeVarint := takeUInt64
  consumeBytes := takeBytes
  consumeFieldValue number wireType b :=
    if wireType = 3 then takeGroup b.length number b else takeScalar wireType b

lemma takeBytes_encode {payload : List UInt8} (h : payload.length < 2 ^ 64) (rest : List UInt8) :
    takeBytes ((Value.bytes payload).encode ++ rest) = some (payload, (Value.bytes payload).encode.length) := by
  have hlen : (UInt64.ofNat payload.length).toNat = payload.length := UInt64.toNat_ofNat_of_lt h
  rw [takeBytes, Value.encode, List.append_assoc, takeUInt64_varint h]
  simp only [Option.bind_some, List.drop_left, hlen]
  rw [if_pos (by simp), List.take_left, List.length_append]

theorem reader_standard : reader.Standard where
  consumeTag number wireType rest h0 h hw := by
    have hlt : number * 8 + wireType < 2 ^ 64 := by omega
    have hv : (UInt64.ofNat (number * 8 + wireType)).toNat = number * 8 + wireType :=
      UInt64.toNat_ofNat_of_lt hlt
    have hd : (number * 8 + wireType) / 8 = number := by omega
    have hm : (number * 8 + wireType) % 8 = wireType := by omega
    simp only [reader, takeTag, tag, takeUInt64_varint hlt, Option.bind_some, hv, hd, hm]
    rw [if_neg (by omega)]
  consumeVarint v rest := by
    simp only [reader, Value.encode, takeUInt64_varint v.toNat_lt, UInt64.ofNat_toNat]
  consumeBytes payload rest h := takeBytes_encode h rest
  consumeFieldValue number value rest h := by
    cases value with
    | varint v =>
      rw [reader, Value.wireType, Value.encode]
      simp only [varintType, takeScalar, takeUInt64_varint v.toNat_lt, Option.map_some]
      rfl
    | bytes payload =>
      rw [reader, Value.wireType]
      simp only [bytesType, takeScalar, takeBytes_encode h, Option.map_some]
      rfl

end UrConnect.Lib.WireFormat
