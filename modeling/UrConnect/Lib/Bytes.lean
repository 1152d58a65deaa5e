import Mathlib.Data.List.Basic
import Mathlib.Data.List.Induction
import Mathlib.Data.Nat.Log
import Mathlib.Tactic.Ring

/-! Byte buffers: numbers in network order, checked slices, and writes inside a buffer. -/

namespace UrConnect.Lib.Bytes

variable {α : Type}

def ofBigEndian (bytes : List UInt8) : ℕ := bytes.foldl (fun v b => v * 256 + b.toNat) 0

def bigEndian : ℕ → ℕ → List UInt8
  | 0, _ => []
  | n + 1, v => bigEndian n (v / 256) ++ [UInt8.ofNat v]

def slice? (b : List α) (start stop : ℕ) : Option (List α) :=
  if start ≤ stop ∧ stop ≤ b.length then some ((b.drop start).take (stop - start)) else none

@[simp] lemma length_bigEndian (n v : ℕ) : (bigEndian n v).length = n := by
  induction n generalizing v with
  | zero => rfl
  | succ n ih => simp [bigEndian, ih]

lemma ofBigEndian_concat (bytes : List UInt8) (b : UInt8) :
    ofBigEndian (bytes ++ [b]) = ofBigEndian bytes * 256 + b.toNat := by
  simp [ofBigEndian]

lemma ofBigEndian_bigEndian (n v : ℕ) : ofBigEndian (bigEndian n v) = v % 256 ^ n := by
  induction n generalizing v with
  | zero => simp [bigEndian, ofBigEndian, Nat.mod_one]
  | succ n ih =>
    have hbyte : (UInt8.ofNat v).toNat = v % 256 := UInt8.toNat_ofNat'
    rw [bigEndian, ofBigEndian_concat, ih, hbyte, pow_succ, mul_comm (256 ^ n), Nat.mod_mul]
    omega

lemma bigEndian_add (m n v : ℕ) : bigEndian (m + n) v = bigEndian m (v / 256 ^ n) ++ bigEndian n v := by
  induction n generalizing v with
  | zero => rw [Nat.add_zero, pow_zero, Nat.div_one, bigEndian, List.append_nil]
  | succ n ih =>
    rw [← Nat.add_assoc, bigEndian, ih, Nat.div_div_eq_div_mul, ← pow_succ', List.append_assoc]
    rfl

lemma ofBigEndian_bigEndian_of_lt {n v : ℕ} (h : v < 256 ^ n) : ofBigEndian (bigEndian n v) = v := by
  rw [ofBigEndian_bigEndian, Nat.mod_eq_of_lt h]

lemma ofBigEndian_lt (bytes : List UInt8) : ofBigEndian bytes < 256 ^ bytes.length := by
  induction bytes using List.reverseRec with
  | nil => exact Nat.one_pos
  | append_singleton bytes b ih =>
    have hb := b.toNat_lt
    rw [ofBigEndian_concat, List.length_append, List.length_singleton, pow_succ]
    omega

lemma slice?_of_le {b : List α} {start stop : ℕ} (h : start ≤ stop) (hstop : stop ≤ b.length) :
    slice? b start stop = some ((b.drop start).take (stop - start)) := if_pos ⟨h, hstop⟩

lemma slice?_append {before part after : List α} {start stop : ℕ} (hstart : before.length = start)
    (hstop : start + part.length = stop) : slice? (before ++ (part ++ after)) start stop = some part := by
  have hsize : stop ≤ (before ++ (part ++ after)).length := by
    rw [List.length_append, List.length_append]
    omega
  have hcut : stop - start = part.length := by omega
  rw [slice?_of_le (by omega) hsize, List.drop_left' hstart, hcut, List.take_left' rfl]

lemma slice?_flatten {parts : List (List α)} {part : List α} {i start stop : ℕ} (hpart : parts[i]? = some part)
    (hstart : (parts.take i).flatten.length = start) (hstop : start + part.length = stop) :
    slice? parts.flatten start stop = some part := by
  obtain ⟨hi, hpart⟩ := List.getElem?_eq_some_iff.mp hpart
  have hsplit : parts.flatten = (parts.take i).flatten ++ (part ++ (parts.drop (i + 1)).flatten) := by
    rw [← List.flatten_cons, ← hpart, ← List.drop_eq_getElem_cons hi, ← List.flatten_append,
      List.take_append_drop]
  rw [hsplit]
  exact slice?_append hstart hstop

end UrConnect.Lib.Bytes
