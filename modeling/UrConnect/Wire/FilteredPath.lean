import UrConnect.Lib.WireScan
import UrConnect.Wire.Decode

/-! The routing parser, which reads the transfer path of an encoded frame in place, against a standard
decoder. -/

namespace UrConnect.Wire

open Lib.WireFormat

variable (b : List UInt8)

def readVarintFrom (limit i : ℕ) (v : UInt64) (shift : ℕ) : Option (UInt64 × ℕ) :=
  if limit ≤ i ∨ 63 < shift then none
  else
    let c := b.getD i 0
    let v := v ||| ((c &&& 0x7f).toUInt64 <<< UInt64.ofNat shift)
    if c < 0x80 then some (v, i + 1) else readVarintFrom limit (i + 1) v (shift + 7)
termination_by 70 - shift

def readVarint (limit i : ℕ) : Option (UInt64 × ℕ) := readVarintFrom b limit i 0 0

def skipField (wireType : UInt64) (limit i : ℕ) : Option ℕ :=
  match wireType.toNat with
  | 0 => (readVarint b limit i).map Prod.snd
  | 1 => if limit < i + 8 then none else some (i + 8)
  | 2 => (readVarint b limit i).bind fun (length, i) =>
      if limit - i < length.toNat then none else some (i + length.toNat)
  | 5 => if limit < i + 4 then none else some (i + 4)
  | _ => none

def idAt (i : ℕ) : Id :=
  if h : ((b.drop i).take 16).length = 16 then ⟨(b.drop i).take 16, h⟩ else Id.zero

def setPathId (path : TransferPath) (fieldNumber : ℕ) (id : Id) : TransferPath :=
  match fieldNumber with
  | 1 => { path with destinationId := id }
  | 2 => { path with sourceId := id }
  | 3 => { path with streamId := id }
  | _ => path

def parsePathField (limit : ℕ) (pathTag : UInt64) (i : ℕ) (path : TransferPath) : Option (ℕ × TransferPath) :=
  let pathFieldNumber := pathTag >>> 3
  let pathWireType := pathTag &&& 0x7
  if pathFieldNumber = 1 ∨ pathFieldNumber = 2 ∨ pathFieldNumber = 3 then
    if pathWireType ≠ 2 then none
    else (readVarint b limit i).bind fun (idLength, i) =>
      if limit - i < idLength.toNat then none
      else if idLength ≠ 16 then none
      else some (i + 16, setPathId path pathFieldNumber.toNat (idAt b i))
  else (skipField b pathWireType limit i).map fun i => (i, path)

lemma readVarintFrom_lt {limit i j : ℕ} {v w : UInt64} {shift : ℕ}
    (h : readVarintFrom b limit i v shift = some (w, j)) : i < j := by
  fun_induction readVarintFrom b limit i v shift with
  | case1 => cases h
  | case2 => grind
  | case3 => grind

lemma readVarint_lt {limit i j : ℕ} {v : UInt64} (h : readVarint b limit i = some (v, j)) : i < j :=
  readVarintFrom_lt b h

lemma skipField_le {wireType : UInt64} {limit i j : ℕ} (h : skipField b wireType limit i = some j) : i ≤ j := by
  rw [skipField] at h
  split at h
  · obtain ⟨⟨v, k⟩, hv, rfl⟩ := Option.map_eq_some_iff.mp h
    exact Nat.le_of_lt (readVarint_lt b hv)
  · split at h <;> cases h
    omega
  · obtain ⟨⟨v, k⟩, hv, h⟩ := Option.bind_eq_some_iff.mp h
    have := readVarint_lt b hv
    dsimp only at h
    split at h <;> cases h
    omega
  · split at h <;> cases h
    omega
  · cases h

lemma parsePathField_le {limit i j : ℕ} {pathTag : UInt64} {path path' : TransferPath}
    (h : parsePathField b limit pathTag i path = some (j, path')) : i ≤ j := by
  rw [parsePathField] at h
  dsimp only at h
  split at h
  · split at h
    · cases h
    · obtain ⟨⟨idLength, k⟩, hv, h⟩ := Option.bind_eq_some_iff.mp h
      have := readVarint_lt b hv
      dsimp only at h
      split at h
      · cases h
      · split at h <;> cases h
        omega
  · obtain ⟨k, hk, heq⟩ := Option.map_eq_some_iff.mp h
    cases heq
    exact skipField_le b hk

def parsePath (limit i : ℕ) (path : TransferPath) : Option (ℕ × TransferPath) :=
  if i < limit then
    match _ : readVarint b limit i with
    | none => none
    | some (pathTag, j) =>
      match _ : parsePathField b limit pathTag j path with
      | none => none
      | some (k, path') => parsePath limit k path'
  else some (i, path)
termination_by limit - i
decreasing_by
  have := readVarint_lt b ‹readVarint b limit i = _›
  have := parsePathField_le b ‹parsePathField b limit _ _ _ = _›
  omega

lemma parsePath_le {limit i j : ℕ} {path path' : TransferPath}
    (h : parsePath b limit i path = some (j, path')) : i ≤ j := by
  fun_induction parsePath b limit i path with
  | case1 => cases h
  | case2 => cases h
  | case3 i path _ pathTag k htag k' path'' hfield ih =>
    have := readVarint_lt b htag
    have := parsePathField_le b hfield
    have := ih h
    omega
  | case4 =>
    cases h
    exact Nat.le_refl _

def parseFrameField (tag : UInt64) (i : ℕ) (path : TransferPath) (pathExists : Bool) :
    Option (ℕ × TransferPath × Bool) :=
  let n := b.length
  let fieldNumber := tag >>> 3
  let wireType := tag &&& 0x7
  if fieldNumber ≠ 1 then (skipField b wireType n i).map fun i => (i, path, pathExists)
  else if wireType ≠ 2 then none
  else (readVarint b n i).bind fun (length, i) =>
    if n - i < length.toNat then none
    else (parsePath b (i + length.toNat) i path).map fun (i, path) => (i, path, true)

lemma parseFrameField_le {tag : UInt64} {i j : ℕ} {path path' : TransferPath} {pathExists pathExists' : Bool}
    (h : parseFrameField b tag i path pathExists = some (j, path', pathExists')) : i ≤ j := by
  rw [parseFrameField] at h
  dsimp only at h
  split at h
  · obtain ⟨k, hk, heq⟩ := Option.map_eq_some_iff.mp h
    cases heq
    exact skipField_le b hk
  · split at h
    · cases h
    · obtain ⟨⟨length, k⟩, hv, h⟩ := Option.bind_eq_some_iff.mp h
      have := readVarint_lt b hv
      dsimp only at h
      split at h
      · cases h
      · obtain ⟨⟨k', path''⟩, hpath, heq⟩ := Option.map_eq_some_iff.mp h
        cases heq
        have := parsePath_le b hpath
        omega

def parseFrame (i : ℕ) (path : TransferPath) (pathExists : Bool) : Option (TransferPath × Bool) :=
  if i < b.length then
    match _ : readVarint b b.length i with
    | none => none
    | some (tag, j) =>
      match _ : parseFrameField b tag j path pathExists with
      | none => none
      | some (k, path', pathExists') => parseFrame k path' pathExists'
  else some (path, pathExists)
termination_by b.length - i
decreasing_by
  have := readVarint_lt b ‹readVarint b b.length i = _›
  have := parseFrameField_le b ‹parseFrameField b _ _ _ _ = _›
  omega

/-- The path and whether there is one; `none` is `ok = false`. -/
def parseFilteredTransferPath : Option (TransferPath × Bool) :=
  parseFrame b 0 ⟨Id.zero, Id.zero, Id.zero⟩ false

/-! The parser reads the part of the buffer between its index and its limit. -/

def window (limit i : ℕ) : List UInt8 := (b.take limit).drop i

variable {b} {limit i : ℕ}

lemma window_length (h : limit ≤ b.length) : (window b limit i).length = limit - i := by
  rw [window, List.length_drop, List.length_take, Nat.min_eq_left h]

lemma window_drop (n : ℕ) : (window b limit i).drop n = window b limit (i + n) := by
  rw [window, window, List.drop_drop]

lemma window_of_le (h : limit ≤ i) : window b limit i = [] := by
  apply List.drop_eq_nil_of_le
  exact Nat.le_trans (List.length_take_le _ _) h

lemma window_of_lt (hl : limit ≤ b.length) (h : i < limit) :
    window b limit i = b.getD i 0 :: window b limit (i + 1) := by
  have hlen : i < (b.take limit).length := by
    rw [List.length_take, Nat.min_eq_left hl]
    exact h
  have hi : i < b.length := Nat.lt_of_lt_of_le h hl
  rw [window, List.drop_eq_getElem_cons hlen, List.getElem_take, List.getD_eq_getElem?_getD,
    List.getElem?_eq_getElem hi]
  rfl

lemma or_shiftLeft {a x shift : ℕ} (ha : a < 2 ^ shift) (hs : shift ≤ 63) (hx : x < 128) :
    UInt64.ofNat a ||| (UInt64.ofNat x <<< UInt64.ofNat shift) = UInt64.ofNat (a + 2 ^ shift * x) := by
  have hpow : 2 ^ 64 = 2 ^ shift * 2 ^ (64 - shift) := by
    rw [← Nat.pow_add]
    congr 1
    omega
  have hlt : 2 ^ shift ≤ 2 ^ 63 := Nat.pow_le_pow_right (by decide) hs
  have ha' : (UInt64.ofNat a).toNat = a := UInt64.toNat_ofNat_of_lt' (show a < 2 ^ 64 by omega)
  have hx' : (UInt64.ofNat x).toNat = x := UInt64.toNat_ofNat_of_lt' (show x < 2 ^ 64 by omega)
  have hs' : (UInt64.ofNat shift).toNat % 64 = shift := by
    rw [UInt64.toNat_ofNat_of_lt' (show shift < 2 ^ 64 by omega), Nat.mod_eq_of_lt (by omega)]
  apply UInt64.toNat_inj.mp
  rw [UInt64.toNat_or, UInt64.toNat_shiftLeft, ha', hx', hs', UInt64.toNat_ofNat', Nat.shiftLeft_eq, hpow,
    Nat.mul_comm x, Nat.mul_mod_mul_left, Nat.or_comm, ← Nat.two_pow_add_eq_or_of_lt ha, Nat.mod_mul,
    Nat.add_mul_mod_self_left, Nat.mod_eq_of_lt ha, Nat.add_mul_div_left _ _ (Nat.two_pow_pos shift),
    Nat.div_eq_of_lt ha, Nat.zero_add, Nat.add_comm]

lemma and_seven_bits (c : UInt8) : (c &&& 0x7f).toUInt64 = UInt64.ofNat (c.toNat % 128) := by
  apply UInt64.toNat_inj.mp
  rw [UInt8.toNat_toUInt64, UInt8.toNat_and, UInt64.toNat_ofNat_of_lt' (show _ < 2 ^ 64 by omega)]
  exact Nat.and_two_pow_sub_one_eq_mod c.toNat 7

lemma readVarintFrom_eq (hl : limit ≤ b.length) {groups a : ℕ} (hg : groups ≤ 10) (ha : a < 2 ^ (70 - 7 * groups)) :
    readVarintFrom b limit i (UInt64.ofNat a) (70 - 7 * groups) =
      (takeVarint groups (window b limit i)).map fun r =>
        (UInt64.ofNat (a + 2 ^ (70 - 7 * groups) * r.1), i + r.2) := by
  induction groups generalizing i a with
  | zero =>
    rw [readVarintFrom, if_pos (Or.inr (by decide))]
    cases window b limit i <;> rfl
  | succ groups ih =>
    rw [readVarintFrom]
    by_cases hi : limit ≤ i
    · rw [if_pos (Or.inl hi), window_of_le hi]
      rfl
    · rw [if_neg (by omega), window_of_lt hl (Nat.not_le.mp hi), takeVarint]
      generalize b.getD i 0 = c
      dsimp only
      rw [and_seven_bits, or_shiftLeft ha (by omega) (Nat.mod_lt _ (by decide))]
      by_cases hc : c < 0x80
      · have hc' : c.toNat < 128 := hc
        rw [if_pos hc, if_pos hc', Nat.mod_eq_of_lt hc']
        rfl
      · have hc' : ¬ c.toNat < 128 := hc
        have hlt := c.toNat_lt
        have hmod : c.toNat % 128 = c.toNat - 128 := by omega
        have hshift : 70 - 7 * (groups + 1) + 7 = 70 - 7 * groups := by omega
        have hpow : 2 ^ (70 - 7 * groups) = 2 ^ (70 - 7 * (groups + 1)) * 128 := by
          rw [← hshift, Nat.pow_add]
        have hnext : a + 2 ^ (70 - 7 * (groups + 1)) * (c.toNat % 128) < 2 ^ (70 - 7 * groups) := by
          have hle := Nat.mul_le_mul_left (2 ^ (70 - 7 * (groups + 1))) (show c.toNat % 128 ≤ 127 by omega)
          omega
        have hsum : ∀ v, a + 2 ^ (70 - 7 * (groups + 1)) * (c.toNat % 128) + 2 ^ (70 - 7 * groups) * v =
            a + 2 ^ (70 - 7 * (groups + 1)) * (c.toNat - 128 + 128 * v) := by
          intro v
          rw [hpow, hmod, Nat.mul_add (2 ^ (70 - 7 * (groups + 1))), Nat.mul_assoc, Nat.add_assoc]
        rw [if_neg hc, if_neg hc', hshift, ih (by omega) hnext, Option.map_map]
        apply congrArg (Option.map · _)
        funext taken
        obtain ⟨v, n⟩ := taken
        simp only [Function.comp, hsum]
        rw [Nat.add_assoc i, Nat.add_comm 1]

lemma readVarint_eq (hl : limit ≤ b.length) :
    readVarint b limit i =
      (takeVarint 10 (window b limit i)).map fun (v, n) => (UInt64.ofNat v, i + n) := by
  have h := readVarintFrom_eq (i := i) hl (Nat.le_refl 10) (show 0 < 2 ^ 0 by decide)
  rw [readVarint]
  refine h.trans ?_
  apply congrArg (Option.map · _)
  funext ⟨v, n⟩
  simp only [Nat.zero_add, Nat.sub_self, Nat.pow_zero, Nat.one_mul]

lemma readVarint_some {v : UInt64} {j : ℕ} (hl : limit ≤ b.length) (h : readVarint b limit i = some (v, j)) :
    ∃ t n, takeVarint 10 (window b limit i) = some (t, n) ∧ v.toNat = t % 2 ^ 64 ∧ j = i + n ∧ j ≤ limit := by
  rw [readVarint_eq hl] at h
  obtain ⟨⟨t, n⟩, ht, heq⟩ := Option.map_eq_some_iff.mp h
  cases heq
  have hlen := takeVarint_length ht
  rw [window_length hl] at hlen
  exact ⟨t, n, ht, UInt64.toNat_ofNat', rfl, by omega⟩

lemma headValue_of_readVarint {v : UInt64} {j : ℕ} (hl : limit ≤ b.length)
    (h : readVarint b limit i = some (v, j)) (hv : ¬ limit - j < v.toNat) :
    ∃ t, headValue 2 (window b limit i) =
      some (some t, (window b limit j).take v.toNat, j + v.toNat - i) := by
  obtain ⟨t, n, ht, hmod, rfl, hj⟩ := readVarint_some hl h
  refine ⟨t, ?_⟩
  simp only [headValue, ht, Option.bind_some, window_drop, window_length hl, ← hmod]
  rw [if_neg hv]
  congr 3
  omega

lemma skipField_some {wireType : UInt64} {j : ℕ} (hl : limit ≤ b.length)
    (h : skipField b wireType limit i = some j) :
    j ≤ limit ∧ ∃ varint payload, headValue wireType.toNat (window b limit i) = some (varint, payload, j - i) := by
  rw [skipField] at h
  split at h
  · rename_i hw
    obtain ⟨⟨v, k⟩, hv, rfl⟩ := Option.map_eq_some_iff.mp h
    obtain ⟨t, n, ht, -, rfl, hk⟩ := readVarint_some hl hv
    refine ⟨hk, some t, [], ?_⟩
    rw [hw, headValue, ht, Nat.add_sub_cancel_left]
    rfl
  · rename_i hw
    split at h <;> cases h
    refine ⟨by omega, none, [], ?_⟩
    simp only [hw, headValue, window_length hl]
    rw [if_neg (by omega), Nat.add_sub_cancel_left]
  · rename_i hw
    obtain ⟨⟨v, k⟩, hv, h⟩ := Option.bind_eq_some_iff.mp h
    dsimp only at h
    split at h <;> cases h
    obtain ⟨-, -, -, -, -, hk⟩ := readVarint_some hl hv
    obtain ⟨t, hvalue⟩ := headValue_of_readVarint hl hv ‹_›
    exact ⟨by omega, some t, _, hw ▸ hvalue⟩
  · rename_i hw
    split at h <;> cases h
    refine ⟨by omega, none, [], ?_⟩
    simp only [hw, headValue, window_length hl]
    rw [if_neg (by omega), Nat.add_sub_cancel_left]
  · cases h

lemma toNat_shiftRight_three {tag : UInt64} {t : ℕ} (h : tag.toNat = t % 2 ^ 64) :
    (tag >>> 3).toNat = t % 2 ^ 64 / 8 := by
  rw [UInt64.toNat_shiftRight, h, Nat.shiftRight_eq_div_pow]
  rfl

lemma toNat_and_seven {tag : UInt64} {t : ℕ} (h : tag.toNat = t % 2 ^ 64) : (tag &&& 0x7).toNat = t % 8 := by
  rw [UInt64.toNat_and, h]
  have hand := Nat.and_two_pow_sub_one_eq_mod (t % 2 ^ 64) 3
  rw [Nat.mod_mod_of_dvd _ (by decide)] at hand
  exact hand

def IsPathId (number : ℕ) : Prop := number = 1 ∨ number = 2 ∨ number = 3

instance (number : ℕ) : Decidable (IsPathId number) := inferInstanceAs (Decidable (_ ∨ _))

lemma isPathId_iff (number : UInt64) : number = 1 ∨ number = 2 ∨ number = 3 ↔ IsPathId number.toNat := by
  simp only [IsPathId, ← UInt64.toNat_inj]
  rfl

def pathUpdate (path : TransferPath) (f : RawField) : Option TransferPath :=
  if IsPathId f.number then
    if f.wireType = bytesType ∧ f.payload.length = 16 then some (setPathId path f.number (idAt f.payload 0)) else none
  else some path

lemma pathUpdate_id {path : TransferPath} {f : RawField} (hid : IsPathId f.number) (hw : f.wireType = bytesType)
    (hp : f.payload.length = 16) :
    pathUpdate path f = some (setPathId path f.number (idAt f.payload 0)) := by
  rw [pathUpdate, if_pos hid, if_pos ⟨hw, hp⟩]

lemma idAt_window {j : ℕ} (hj : j + 16 ≤ limit) :
    idAt ((window b limit j).take 16) 0 = idAt b j := by
  have hbytes : (window b limit j).take 16 = (b.drop j).take 16 := by
    rw [window, List.drop_take, List.take_take, Nat.min_eq_left (by omega)]
  simp only [idAt, List.drop_zero, List.take_take, Nat.min_self, hbytes]

lemma headField_window {t n k : ℕ} {varint : Option ℕ} {payload : List UInt8}
    (ht : takeVarint 10 (window b limit i) = some (t, n)) (hk : i + n ≤ k)
    (hvalue : headValue (t % 8) (window b limit (i + n)) = some (varint, payload, k - (i + n))) :
    headField (window b limit i) = some ⟨t, n, varint, payload, k - (i + n)⟩ ∧
      RawField.rest ⟨t, n, varint, payload, k - (i + n)⟩ (window b limit i) = window b limit k := by
  constructor
  · simp only [headField, ht, Option.bind_some, window_drop, hvalue, Option.map_some]
  · rw [RawField.rest, window_drop, window_drop, Nat.add_sub_cancel' hk]

lemma parsePathField_some {pathTag : UInt64} {j k : ℕ} {path path' : TransferPath} (hl : limit ≤ b.length)
    (htag : readVarint b limit i = some (pathTag, j))
    (h : parsePathField b limit pathTag j path = some (k, path')) :
    k ≤ limit ∧ ∃ f, headField (window b limit i) = some f ∧ f.rest (window b limit i) = window b limit k ∧
      pathUpdate path f = some path' := by
  have hjk := parsePathField_le b h
  obtain ⟨t, n, ht, hmod, rfl, hj⟩ := readVarint_some hl htag
  have hnumber := toNat_shiftRight_three hmod
  have hwire := toNat_and_seven hmod
  rw [parsePathField] at h
  simp only [isPathId_iff, hnumber] at h
  split at h
  · rename_i hid
    split at h
    · cases h
    · rename_i htype
      obtain ⟨⟨idLength, m⟩, hv, h⟩ := Option.bind_eq_some_iff.mp h
      dsimp only at h
      split at h
      · cases h
      · split at h <;> cases h
        rename_i hroom hlen
        have hlen' : idLength = 16 := not_not.mp hlen
        have htype' : t % 8 = 2 := by
          rw [← hwire, not_not.mp htype]
          rfl
        subst hlen'
        obtain ⟨t', hvalue⟩ := headValue_of_readVarint hl hv hroom
        obtain ⟨-, -, -, -, -, hm⟩ := readVarint_some hl hv
        have hm' : m + 16 ≤ limit := by
          have : ¬ limit - m < 16 := hroom
          omega
        obtain ⟨hhead, hrest⟩ := headField_window ht hjk (htype' ▸ hvalue)
        refine ⟨hm', ⟨t, n, _, _, _⟩, hhead, hrest, ?_⟩
        apply (pathUpdate_id ?_ ?_ ?_).trans ?_
        · exact hid
        · exact htype'
        · rw [show UInt64.toNat 16 = 16 from rfl, List.length_take, window_length hl]
          omega
        · rw [show UInt64.toNat 16 = 16 from rfl, idAt_window hm']
          rfl
  · rename_i hid
    obtain ⟨m, hm, heq⟩ := Option.map_eq_some_iff.mp h
    cases heq
    obtain ⟨hle, varint, payload, hvalue⟩ := skipField_some hl hm
    rw [hwire] at hvalue
    obtain ⟨hhead, hrest⟩ := headField_window ht hjk hvalue
    exact ⟨hle, _, hhead, hrest, if_neg hid⟩

lemma parsePath_some {j : ℕ} {path path' : TransferPath} (hl : limit ≤ b.length) (hi : i ≤ limit)
    (h : parsePath b limit i path = some (j, path')) :
    j = limit ∧ ∃ fs, Splits (window b limit i) fs ∧ fs.foldlM pathUpdate path = some path' := by
  fun_induction parsePath b limit i path with
  | case1 => cases h
  | case2 => cases h
  | case3 i path _ pathTag k htag k' path'' hfield ih =>
    obtain ⟨hk, f, hhead, hrest, hupdate⟩ := parsePathField_some hl htag hfield
    obtain ⟨rfl, fs, hsplits, hfold⟩ := ih hk h
    refine ⟨rfl, f :: fs, .cons hhead (hrest ▸ hsplits), ?_⟩
    rw [List.foldlM_cons, hupdate]
    exact hfold
  | case4 i path hge =>
    cases h
    have hend := Nat.not_lt.mp hge
    refine ⟨Nat.le_antisymm hi hend, [], ?_, rfl⟩
    rw [window_of_le hend]
    exact .nil

inductive Parses : List RawField → TransferPath → Bool → TransferPath → Bool → Prop
  | nil (path : TransferPath) (pathExists : Bool) : Parses [] path pathExists path pathExists
  | other {f : RawField} {fs : List RawField} {path path' : TransferPath} {pathExists pathExists' : Bool}
      (number : f.number ≠ 1) (others : Parses fs path pathExists path' pathExists') :
      Parses (f :: fs) path pathExists path' pathExists'
  | path {f : RawField} {fs gs : List RawField} {path path' path'' : TransferPath} {pathExists pathExists' : Bool}
      (number : f.number = 1) (wireType : f.wireType = bytesType) (splits : Splits f.payload gs)
      (update : gs.foldlM pathUpdate path = some path') (others : Parses fs path' true path'' pathExists') :
      Parses (f :: fs) path pathExists path'' pathExists'

lemma window_take {n : ℕ} (h : i + n ≤ limit) : (window b limit i).take n = window b (i + n) i := by
  rw [window, window, List.drop_take, List.drop_take, List.take_take]
  congr 1
  omega

lemma shiftRight_eq_one {tag : UInt64} {t : ℕ} (h : tag.toNat = t % 2 ^ 64) :
    tag >>> 3 = 1 ↔ t % 2 ^ 64 / 8 = 1 := by
  rw [← UInt64.toNat_inj, toNat_shiftRight_three h]
  rfl

lemma and_seven_eq_two {tag : UInt64} {t : ℕ} (h : tag.toNat = t % 2 ^ 64) : tag &&& 0x7 = 2 ↔ t % 8 = 2 := by
  rw [← UInt64.toNat_inj, toNat_and_seven h]
  rfl

lemma parseFrameField_some {tag : UInt64} {j k : ℕ} {path path' : TransferPath} {pathExists pathExists' : Bool}
    (htag : readVarint b b.length i = some (tag, j))
    (h : parseFrameField b tag j path pathExists = some (k, path', pathExists')) :
    k ≤ b.length ∧ ∃ f, headField (window b b.length i) = some f ∧
      f.rest (window b b.length i) = window b b.length k ∧
      ∀ {fs : List RawField} {path'' : TransferPath} {pathExists'' : Bool},
        Parses fs path' pathExists' path'' pathExists'' → Parses (f :: fs) path pathExists path'' pathExists'' := by
  have hjk := parseFrameField_le b h
  obtain ⟨t, n, ht, hmod, rfl, hj⟩ := readVarint_some (Nat.le_refl _) htag
  rw [parseFrameField] at h
  simp only [ne_eq, shiftRight_eq_one hmod, and_seven_eq_two hmod] at h
  split at h
  · rename_i hnumber
    obtain ⟨m, hm, heq⟩ := Option.map_eq_some_iff.mp h
    cases heq
    obtain ⟨hle, varint, payload, hvalue⟩ := skipField_some (Nat.le_refl _) hm
    rw [toNat_and_seven hmod] at hvalue
    obtain ⟨hhead, hrest⟩ := headField_window ht hjk hvalue
    exact ⟨hle, _, hhead, hrest, .other hnumber⟩
  · rename_i hnumber
    split at h
    · cases h
    · rename_i htype
      obtain ⟨⟨length, m⟩, hv, h⟩ := Option.bind_eq_some_iff.mp h
      dsimp only at h
      split at h
      · cases h
      · rename_i hroom
        obtain ⟨⟨m', path''⟩, hpath, heq⟩ := Option.map_eq_some_iff.mp h
        cases heq
        obtain ⟨-, -, -, -, -, hm⟩ := readVarint_some (Nat.le_refl _) hv
        obtain ⟨t', hvalue⟩ := headValue_of_readVarint (Nat.le_refl _) hv hroom
        have hend : m + length.toNat ≤ b.length := by omega
        obtain ⟨rfl, gs, hsplits, hfold⟩ := parsePath_some hend (Nat.le_add_right _ _) hpath
        rw [not_not] at hnumber htype
        rw [window_take hend] at hvalue
        obtain ⟨hhead, hrest⟩ := headField_window ht hjk (htype ▸ hvalue)
        exact ⟨hend, _, hhead, hrest, .path hnumber htype hsplits hfold⟩

lemma parseFrame_some {path path' : TransferPath} {pathExists pathExists' : Bool} (hi : i ≤ b.length)
    (h : parseFrame b i path pathExists = some (path', pathExists')) :
    ∃ fs, Splits (window b b.length i) fs ∧ Parses fs path pathExists path' pathExists' := by
  fun_induction parseFrame b i path pathExists with
  | case1 => cases h
  | case2 => cases h
  | case3 i path pathExists _ tag k htag k' path'' pathExists'' hfield ih =>
    obtain ⟨hk, f, hhead, hrest, hparses⟩ := parseFrameField_some htag hfield
    obtain ⟨fs, hsplits, hothers⟩ := ih hk h
    exact ⟨f :: fs, .cons hhead (hrest ▸ hsplits), hparses hothers⟩
  | case4 i path pathExists hge =>
    cases h
    refine ⟨[], ?_, .nil _ _⟩
    rw [window_of_le (Nat.not_lt.mp hge)]
    exact .nil

lemma parseFilteredTransferPath_some {path : TransferPath} {pathExists : Bool}
    (h : parseFilteredTransferPath b = some (path, pathExists)) :
    ∃ fs, Splits b fs ∧ Parses fs ⟨Id.zero, Id.zero, Id.zero⟩ false path pathExists := by
  obtain ⟨fs, hsplits, hparses⟩ := parseFrame_some (Nat.zero_le _) h
  rw [window, List.take_length, List.drop_zero] at hsplits
  exact ⟨fs, hsplits, hparses⟩

end UrConnect.Wire
