import Mathlib

/-! Arithmetic of signed 64-bit words by their values, where no result leaves their range. -/

namespace UrConnect.Lib.SignedWord

variable {a b : Int64}

lemma toInt_min (a b : Int64) : (min a b).toInt = min a.toInt b.toInt := by
  change (if a ≤ b then a else b).toInt = _
  split
  · next h => exact (Int.min_eq_left (Int64.le_iff_toInt_le.mp h)).symm
  · next h =>
      rw [Int64.le_iff_toInt_le, Int.not_le] at h
      exact (Int.min_eq_right h.le).symm

lemma toInt_max (a b : Int64) : (max a b).toInt = max a.toInt b.toInt := by
  change (if a ≤ b then b else a).toInt = _
  split
  · next h => exact (Int.max_eq_right (Int64.le_iff_toInt_le.mp h)).symm
  · next h =>
      rw [Int64.le_iff_toInt_le, Int.not_le] at h
      exact (Int.max_eq_left h.le).symm

lemma bmod_of_range {x : ℤ} (hlow : -2 ^ 63 ≤ x) (hhigh : x < 2 ^ 63) : x.bmod (2 ^ 64) = x := by
  apply Int.bmod_eq_of_le
  · exact hlow
  · exact hhigh

lemma toInt_add_of_range (hlow : -2 ^ 63 ≤ a.toInt + b.toInt) (hhigh : a.toInt + b.toInt < 2 ^ 63) :
    (a + b).toInt = a.toInt + b.toInt := by
  rw [Int64.toInt_add]
  exact bmod_of_range hlow hhigh

lemma toInt_sub_of_range (hlow : -2 ^ 63 ≤ a.toInt - b.toInt) (hhigh : a.toInt - b.toInt < 2 ^ 63) :
    (a - b).toInt = a.toInt - b.toInt := by
  rw [Int64.toInt_sub]
  exact bmod_of_range hlow hhigh

lemma toInt_mul_of_range (hlow : -2 ^ 63 ≤ a.toInt * b.toInt) (hhigh : a.toInt * b.toInt < 2 ^ 63) :
    (a * b).toInt = a.toInt * b.toInt := by
  rw [Int64.toInt_mul]
  exact bmod_of_range hlow hhigh

lemma toInt_div_of_nonneg (ha : 0 ≤ a.toInt) (hb : 0 < b.toInt) :
    (a / b).toInt = a.toInt / b.toInt := by
  rw [Int64.toInt_div, Int.tdiv_eq_ediv_of_nonneg ha]
  have hle : a.toInt / b.toInt ≤ a.toInt := Int.ediv_le_self _ ha
  have hnonneg : 0 ≤ a.toInt / b.toInt := Int.ediv_nonneg ha hb.le
  have hmax := a.toInt_lt
  exact bmod_of_range (by omega) (by omega)

lemma toInt_mod_of_nonneg (ha : 0 ≤ a.toInt) : (a % b).toInt = a.toInt % b.toInt := by
  rw [Int64.toInt_mod, Int.tmod_eq_emod_of_nonneg ha]

end UrConnect.Lib.SignedWord

/-! Positions of an unbounded stream as 32-bit serial numbers. -/

namespace UrConnect.Lib.SerialNumber

def serial (origin : UInt32) (position : ℕ) : UInt32 := origin + UInt32.ofNat position

variable {origin : UInt32} {p q n : ℕ}

lemma serial_zero : serial origin 0 = origin := by
  simp [serial]

lemma serial_add (origin : UInt32) (p n : ℕ) : serial origin p + UInt32.ofNat n = serial origin (p + n) := by
  rw [serial, serial, UInt32.ofNat_add, UInt32.add_assoc]

lemma serial_succ (origin : UInt32) (p : ℕ) : serial origin p + 1 = serial origin (p + 1) := serial_add origin p 1

lemma serial_sub (h : q ≤ p) : serial origin p - serial origin q = UInt32.ofNat (p - q) := by
  obtain ⟨d, rfl⟩ := Nat.exists_eq_add_of_le h
  rw [← serial_add, Nat.add_sub_cancel_left, UInt32.add_comm, UInt32.add_sub_cancel]

lemma toNat_serial_sub (origin : UInt32) (h : q ≤ p) (hnear : p < q + 2 ^ 32) :
    (serial origin p - serial origin q).toNat = p - q := by
  rw [serial_sub h]
  have hlt : p - q < UInt32.size := by
    change p - q < 2 ^ 32
    omega
  exact UInt32.toNat_ofNat_of_lt hlt

lemma eq_of_serial_eq (h : serial origin p = serial origin q) (hp : p < q + 2 ^ 32) (hq : q < p + 2 ^ 32) :
    p = q := by
  rcases Nat.le_total q p with hle | hle
  · have hdistance := toNat_serial_sub origin hle hp
    rw [h, UInt32.sub_self, UInt32.toNat_zero] at hdistance
    omega
  · have hdistance := toNat_serial_sub origin hle hq
    rw [h, UInt32.sub_self, UInt32.toNat_zero] at hdistance
    omega

lemma serial_toNat_sub (v : UInt32) (q : ℕ) : serial origin (q + (v - serial origin q).toNat) = v := by
  rw [← serial_add, UInt32.ofNat_toNat, UInt32.add_comm, UInt32.sub_add_cancel]

end UrConnect.Lib.SerialNumber
