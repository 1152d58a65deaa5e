import UrConnect.Lib.WireFormat

/-! A message split into its fields, with every varint as it stands in the buffer: a value may exceed
64 bits and a field number need not be valid. The standard reader accepts exactly the fields whose
varints and numbers are in range. -/

namespace UrConnect.Lib.WireFormat

/-- `varint` is the value of a varint field and the length of a bytes field, before any reduction. -/
structure RawField where
  tag : ℕ
  tagLength : ℕ
  varint : Option ℕ
  payload : List UInt8
  length : ℕ

namespace RawField

variable (f : RawField)

def number : ℕ := f.tag % 2 ^ 64 / 8

def wireType : ℕ := f.tag % 8

def rest (b : List UInt8) : List UInt8 := (b.drop f.tagLength).drop f.length

def TagInRange : Prop := f.tag < 2 ^ 64 ∧ 0 < f.number ∧ f.number < 2 ^ 29

def VarintInRange : Prop := ∀ v ∈ f.varint, v < 2 ^ 64

def InRange : Prop := f.TagInRange ∧ f.VarintInRange

instance : Decidable f.TagInRange := inferInstanceAs (Decidable (_ ∧ _))

instance : Decidable f.VarintInRange := inferInstanceAs (Decidable (∀ v ∈ f.varint, _))

instance : Decidable f.InRange := inferInstanceAs (Decidable (_ ∧ _))

end RawField

def headValue (wireType : ℕ) (b : List UInt8) : Option (Option ℕ × List UInt8 × ℕ) :=
  match wireType with
  | 0 => (takeVarint 10 b).map fun (v, n) => (some v, [], n)
  | 1 => if b.length < 8 then none else some (none, [], 8)
  | 2 => (takeVarint 10 b).bind fun (v, n) =>
      if (b.drop n).length < v % 2 ^ 64 then none
      else some (some v, (b.drop n).take (v % 2 ^ 64), n + v % 2 ^ 64)
  | 5 => if b.length < 4 then none else some (none, [], 4)
  | _ => none

def headField (b : List UInt8) : Option RawField :=
  (takeVarint 10 b).bind fun (tag, n) =>
    (headValue (tag % 8) (b.drop n)).map fun (varint, payload, k) => ⟨tag, n, varint, payload, k⟩

inductive Splits : List UInt8 → List RawField → Prop
  | nil : Splits [] []
  | cons {b : List UInt8} {f : RawField} {fs : List RawField} (head : headField b = some f)
      (others : Splits (f.rest b) fs) : Splits b (f :: fs)

variable {b : List UInt8} {f : RawField} {fs gs : List RawField}

lemma takeVarint_length {groups v n : ℕ} (h : takeVarint groups b = some (v, n)) : 0 < n ∧ n ≤ b.length := by
  induction groups generalizing b v n with
  | zero => cases b <;> cases h
  | succ groups ih =>
    cases b with
    | nil => cases h
    | cons c cs =>
      rw [takeVarint] at h
      split at h
      · cases h
        simp
      · obtain ⟨⟨v', n'⟩, hrest, heq⟩ := Option.map_eq_some_iff.mp h
        cases heq
        have := ih hrest
        simp only [List.length_cons]
        omega

lemma headField_eq (h : headField b = some f) :
    takeVarint 10 b = some (f.tag, f.tagLength) ∧
      headValue f.wireType (b.drop f.tagLength) = some (f.varint, f.payload, f.length) := by
  obtain ⟨⟨tag, n⟩, htag, h⟩ := Option.bind_eq_some_iff.mp h
  obtain ⟨⟨varint, payload, k⟩, hvalue, rfl⟩ := Option.map_eq_some_iff.mp h
  exact ⟨htag, hvalue⟩

lemma ne_nil_of_headField (h : headField b = some f) : b ≠ [] := by
  rintro rfl
  cases h

def splitFields : ℕ → List UInt8 → Option (List RawField)
  | _, [] => some []
  | 0, _ :: _ => none
  | rounds + 1, c :: cs =>
    (headField (c :: cs)).bind fun f => (splitFields rounds (f.rest (c :: cs))).map (f :: ·)

lemma rest_length_lt (h : headField b = some f) : (f.rest b).length < b.length := by
  have hlen := takeVarint_length (headField_eq h).1
  rw [RawField.rest, List.length_drop, List.length_drop]
  omega

lemma splits_of_splitFields {rounds : ℕ} (h : splitFields rounds b = some fs) : Splits b fs := by
  induction rounds generalizing b fs with
  | zero =>
    cases b with
    | nil =>
      cases h
      exact .nil
    | cons c cs => cases h
  | succ rounds ih =>
    cases b with
    | nil =>
      cases h
      exact .nil
    | cons c cs =>
      obtain ⟨f, hf, h⟩ := Option.bind_eq_some_iff.mp h
      obtain ⟨gs, hgs, rfl⟩ := Option.map_eq_some_iff.mp h
      exact .cons hf (ih hgs)

lemma splitFields_of_splits (h : Splits b fs) {rounds : ℕ} (hn : b.length ≤ rounds) :
    splitFields rounds b = some fs := by
  induction h generalizing rounds with
  | nil => cases rounds <;> rfl
  | @cons b f fs head others ih =>
    have hlt := rest_length_lt head
    obtain ⟨c, cs, rfl⟩ := List.exists_cons_of_ne_nil (ne_nil_of_headField head)
    obtain ⟨rounds, rfl⟩ : ∃ k, rounds = k + 1 := ⟨rounds - 1, by simp at hn; omega⟩
    rw [splitFields, head, Option.bind_some, ih (by omega)]
    rfl

lemma Splits.unique (hf : Splits b fs) (hg : Splits b gs) : fs = gs := by
  have hfs := splitFields_of_splits hf (Nat.le_refl _)
  rw [splitFields_of_splits hg (Nat.le_refl _)] at hfs
  exact (Option.some.inj hfs).symm

lemma splits_iff : Splits b fs ↔ splitFields b.length b = some fs :=
  ⟨fun h => splitFields_of_splits h (Nat.le_refl _), splits_of_splitFields⟩

/-! The standard reader on a field. -/

lemma takeUInt64_eq {v n : ℕ} (h : takeVarint 10 b = some (v, n)) :
    takeUInt64 b = if v < 2 ^ 64 then some (UInt64.ofNat v, n) else none := by
  rw [takeUInt64, h]
  rfl

lemma consumeTag_headField (h : headField b = some f) :
    reader.consumeTag b = if f.TagInRange then some (f.number, f.wireType, f.tagLength) else none := by
  have htake := takeUInt64_eq (headField_eq h).1
  by_cases hv : f.tag < 2 ^ 64
  · have htag : (UInt64.ofNat f.tag).toNat = f.tag := UInt64.toNat_ofNat_of_lt' hv
    rw [if_pos hv] at htake
    simp only [reader, takeTag, htake, Option.bind_some, htag, RawField.TagInRange, RawField.number,
      RawField.wireType, Nat.mod_eq_of_lt hv]
    by_cases hn : f.tag / 8 = 0 ∨ 2 ^ 29 ≤ f.tag / 8
    · rw [if_pos hn, if_neg (by omega)]
    · rw [if_neg hn, if_pos (by omega)]
  · rw [if_neg hv] at htake
    simp only [reader, takeTag, htake, Option.bind_none]
    rw [if_neg fun hr => hv hr.1]

lemma headValue_bytes {varint : Option ℕ} {payload : List UInt8} {k : ℕ}
    (h : headValue 2 b = some (varint, payload, k)) :
    ∃ v n, takeVarint 10 b = some (v, n) ∧ varint = some v ∧ v % 2 ^ 64 ≤ (b.drop n).length ∧
      payload = (b.drop n).take (v % 2 ^ 64) ∧ k = n + v % 2 ^ 64 := by
  obtain ⟨⟨v, n⟩, hv, h⟩ := Option.bind_eq_some_iff.mp h
  dsimp only at h
  split at h
  · cases h
  · cases h
    exact ⟨v, n, hv, rfl, Nat.not_lt.mp ‹_›, rfl, rfl⟩

lemma takeBytes_eq {varint : Option ℕ} {payload : List UInt8} {k : ℕ}
    (h : headValue 2 b = some (varint, payload, k)) :
    takeBytes b = if ∀ v ∈ varint, v < 2 ^ 64 then some (payload, k) else none := by
  obtain ⟨v, n, hv, rfl, hlen, rfl, rfl⟩ := headValue_bytes h
  rw [takeBytes, takeUInt64_eq hv]
  by_cases hlt : v < 2 ^ 64
  · have hnat : (UInt64.ofNat v).toNat = v := UInt64.toNat_ofNat_of_lt' hlt
    rw [Nat.mod_eq_of_lt hlt] at hlen ⊢
    rw [if_pos hlt, if_pos (by simpa using hlt)]
    simp only [Option.bind_some, hnat, if_pos hlen]
  · rw [if_neg hlt, if_neg (by simpa using hlt)]
    rfl

lemma takeScalar_eq {wireType : ℕ} {varint : Option ℕ} {payload : List UInt8} {k : ℕ}
    (h : headValue wireType b = some (varint, payload, k)) :
    takeScalar wireType b = if ∀ v ∈ varint, v < 2 ^ 64 then some k else none := by
  rcases wireType with _ | _ | _ | _ | _ | _ | wireType
  · obtain ⟨⟨v, n⟩, hv, heq⟩ := Option.map_eq_some_iff.mp h
    cases heq
    rw [takeScalar, takeUInt64_eq hv]
    by_cases hlt : v < 2 ^ 64
    · rw [if_pos hlt, if_pos (by simpa using hlt)]
      rfl
    · rw [if_neg hlt, if_neg (by simpa using hlt)]
      rfl
  · simp only [headValue] at h
    split at h
    · cases h
    · cases h
      simp only [takeScalar]
      rw [if_pos (Nat.not_lt.mp ‹_›), if_pos (by simp)]
  · rw [takeScalar, takeBytes_eq h]
    split <;> rfl
  · cases h
  · cases h
  · simp only [headValue] at h
    split at h
    · cases h
    · cases h
      simp only [takeScalar]
      rw [if_pos (Nat.not_lt.mp ‹_›), if_pos (by simp)]
  · cases h

lemma consumeBytes_headField (h : headField b = some f) (hw : f.wireType = bytesType) :
    reader.consumeBytes (b.drop f.tagLength) = if f.VarintInRange then some (f.payload, f.length) else none := by
  have hvalue := (headField_eq h).2
  rw [hw] at hvalue
  exact takeBytes_eq hvalue

lemma consumeFieldValue_headField (h : headField b = some f) (number : ℕ) :
    reader.consumeFieldValue number f.wireType (b.drop f.tagLength) =
      if f.VarintInRange then some f.length else none := by
  have hvalue := (headField_eq h).2
  have hgroup : f.wireType ≠ 3 := by
    intro hw
    rw [hw] at hvalue
    cases hvalue
  rw [reader]
  dsimp only
  rw [if_neg hgroup]
  exact takeScalar_eq hvalue

section fold

variable {σ : Type} {take : ℕ → ℕ → List UInt8 → σ → Option (σ × ℕ)} {update : σ → RawField → Option σ}

def Follows (take : ℕ → ℕ → List UInt8 → σ → Option (σ × ℕ)) (update : σ → RawField → Option σ) : Prop :=
  ∀ b f s, headField b = some f → take f.number f.wireType (b.drop f.tagLength) s =
    if f.VarintInRange then (update s f).map fun s' => (s', f.length) else none

lemma readFields_headField (hfollows : Follows take update) (h : headField b = some f) (rounds : ℕ) (s : σ) :
    reader.readFields take (rounds + 1) b s =
      if f.InRange then (update s f).bind fun t => reader.readFields take rounds (f.rest b) t else none := by
  obtain ⟨c, cs, rfl⟩ := List.exists_cons_of_ne_nil (ne_nil_of_headField h)
  rw [Reader.readFields, consumeTag_headField h]
  by_cases htag : f.TagInRange
  · rw [if_pos htag]
    simp only [Option.bind_some, hfollows _ f s h]
    by_cases hv : f.VarintInRange
    · rw [if_pos hv, if_pos ⟨htag, hv⟩]
      cases update s f <;> rfl
    · rw [if_neg hv, if_neg fun hr => hv hr.2]
      rfl
  · rw [if_neg htag, if_neg fun hr => htag hr.1]
    rfl

lemma readFields_splits (hfollows : Follows take update) (hs : Splits b fs) {rounds : ℕ} (hn : b.length ≤ rounds)
    (s : σ) :
    reader.readFields take rounds b s = if ∀ f ∈ fs, f.InRange then fs.foldlM update s else none := by
  induction hs generalizing rounds s with
  | nil => cases rounds <;> rfl
  | @cons b f fs head others ih =>
    have hlt := rest_length_lt head
    obtain ⟨rounds, rfl⟩ : ∃ k, rounds = k + 1 := ⟨rounds - 1, by omega⟩
    have hrest : (f.rest b).length ≤ rounds := by omega
    rw [readFields_headField hfollows head]
    simp only [ih hrest, List.forall_mem_cons, List.foldlM_cons]
    by_cases hf : f.InRange
    · by_cases hall : ∀ g ∈ fs, g.InRange
      · simp only [if_pos hf, if_pos hall, if_pos (And.intro hf hall)]
        rfl
      · simp only [if_pos hf, if_neg hall, if_neg fun hr => hall (And.right hr)]
        cases update s f <;> rfl
    · rw [if_neg hf, if_neg fun hr => hf hr.1]

lemma readMessage_splits (hfollows : Follows take update) (hs : Splits b fs) (s : σ) :
    reader.readMessage take b s = if ∀ f ∈ fs, f.InRange then fs.foldlM update s else none :=
  readFields_splits hfollows hs (Nat.le_refl _) s

end fold

end UrConnect.Lib.WireFormat
