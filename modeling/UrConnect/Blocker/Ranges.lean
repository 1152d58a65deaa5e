import UrConnect.Lib.RangeSet
import UrConnect.Lib.Bytes

/-! The address tables of the blocker, from the ranges of the feeds to the search over the packed records. -/

namespace UrConnect.Blocker

open UrConnect.Lib UrConnect.Lib.Bytes UrConnect.Lib.BinarySearch ClosedRange

abbrev Address (bits : ℕ) := Fin (2 ^ bits)

abbrev IpRange := ClosedRange (Address 32)

abbrev Ip6Range := ClosedRange (Address 128)

section Generator

def adjacent4 (hi lo : Address 32) : Bool := hi ≠ 0xffffffff && lo = hi + 1

/-- `Addr.Next`, which is the zero `Addr` after the last address. -/
def next6 (a : Address 128) : Option (Address 128) := if a = Fin.last _ then none else some (a + 1)

def prev6 (a : Address 128) : Option (Address 128) := if a = 0 then none else some (a - 1)

def adjacent6 (hi lo : Address 128) : Bool := next6 hi = some lo

/-- Two ranges that compare as equal are the same, so every sort gives one list. -/
def mergeRanges (ranges : List IpRange) : List IpRange := merge adjacent4 ranges

def mergeRanges6 (ranges : List Ip6Range) : List Ip6Range := merge adjacent6 ranges

def subtractAll (block reserved : List IpRange) : List IpRange := subtract (· - 1) (· + 1) block reserved

/-- The checks before each neighbour exclude the zero `Addr`. -/
def subtractAll6 (block reserved : List Ip6Range) : List Ip6Range :=
  subtract (fun a => (prev6 a).getD a) (fun a => (next6 a).getD a) block reserved

def packRange {bits : ℕ} (width : ℕ) (r : ClosedRange (Address bits)) : List UInt8 :=
  bigEndian width r.lo ++ bigEndian width r.hi

def pack {bits : ℕ} (width : ℕ) (ranges : List (ClosedRange (Address bits))) : List UInt8 :=
  ranges.flatMap (packRange width)

end Generator

section Search

variable (data : List UInt8)

def readAt (start width : ℕ) : Option ℕ := (slice? data start (start + width)).map ofBigEndian

def searchRecords (startsBelow endsAbove : ℕ → Option Bool) (count : ℕ) : Option Bool :=
  (search startsBelow count 0 count).bind fun lo => if lo = 0 then some false else endsAbove (lo - 1)

def searchRange4 (count : ℕ) (ip : Address 32) : Option Bool :=
  searchRecords (fun mid => (readAt data (mid * 8) 4).map fun rlo => rlo ≤ ip.val)
    (fun i => (readAt data (i * 8 + 4) 4).map fun rhi => ip.val ≤ rhi) count

def be64 (start : ℕ) : Option ℕ := readAt data start 8

def searchRange6 (count ipHi ipLo : ℕ) : Option Bool :=
  searchRecords
    (fun mid => (be64 data (mid * 32)).bind fun rloHi => (be64 data (mid * 32 + 8)).map fun rloLo =>
      decide (rloHi < ipHi) || decide (rloHi = ipHi) && decide (rloLo ≤ ipLo))
    (fun i => (be64 data (i * 32 + 16)).bind fun rhiHi => (be64 data (i * 32 + 24)).map fun rhiLo =>
      decide (ipHi < rhiHi) || decide (ipHi = rhiHi) && decide (ipLo ≤ rhiLo)) count

end Search

lemma touching4 : Touching adjacent4 := by
  intro a b h
  rw [adjacent4, Bool.and_eq_true, decide_eq_true_iff, decide_eq_true_iff] at h
  obtain ⟨hlast, rfl⟩ := h
  have hlt : a.val + 1 < 2 ^ 32 := by
    have hne : a.val ≠ 0xffffffff := fun hval => hlast (Fin.ext hval)
    have := a.isLt
    omega
  have hval : (a + 1).val = a.val + 1 := Fin.val_add_one_of_lt' hlt
  refine ⟨?_, ?_⟩
  · rw [Fin.lt_def, hval]
    omega
  · intro x
    rw [Fin.le_def, Fin.le_def, hval]
    omega

lemma val_next {bits : ℕ} {a b : Address bits} (h : a < b) : (a + 1).val = a.val + 1 := by
  apply Fin.val_add_one_of_lt'
  have hb := b.isLt
  rw [Fin.lt_def] at h
  omega

lemma val_prev {bits : ℕ} {a b : Address bits} (h : b < a) : (a - 1).val = a.val - 1 := by
  apply Fin.val_sub_one_of_ne_zero
  intro hzero
  rw [hzero] at h
  exact absurd h (Fin.not_lt_zero b)

lemma neighbours (bits : ℕ) : Neighbours (fun a : Address bits => a - 1) fun a => a + 1 where
  prev a b h x := by
    have hpos : b.val < a.val := h
    rw [Fin.le_def, Fin.lt_def, val_prev h]
    omega
  next a b h x := by
    rw [Fin.le_def, Fin.lt_def, val_next h]
    omega

lemma touching6 : Touching adjacent6 := by
  intro a b h
  rw [adjacent6, decide_eq_true_iff, next6] at h
  split at h
  · cases h
  · next hlast =>
    obtain rfl := Option.some.inj h
    have hlt : a < Fin.last _ := Fin.lt_last_iff_ne_last.mpr hlast
    have hval := val_next hlt
    refine ⟨?_, ?_⟩
    · rw [Fin.lt_def, hval]
      omega
    · intro x
      rw [Fin.le_def, Fin.le_def, hval]
      omega

lemma neighbours6 : Neighbours (fun a => (prev6 a).getD a) fun a => (next6 a).getD a where
  prev a b h x := by
    have hzero : a ≠ 0 := by
      rintro rfl
      exact absurd h (Fin.not_lt_zero b)
    rw [prev6, if_neg hzero, Option.getD_some]
    exact (neighbours 128).prev a b h x
  next a b h x := by
    have hlast : a ≠ Fin.last _ := by
      rintro rfl
      exact absurd h (not_lt.mpr (Fin.le_last b))
    rw [next6, if_neg hlast, Option.getD_some]
    exact (neighbours 128).next a b h x

section Records

variable {bits width i : ℕ} {ranges : List (ClosedRange (Address bits))} {r : ClosedRange (Address bits)}

lemma length_packRange (width : ℕ) (r : ClosedRange (Address bits)) : (packRange width r).length = 2 * width := by
  rw [packRange, List.length_append, length_bigEndian, length_bigEndian]
  omega

lemma length_pack (width : ℕ) (ranges : List (ClosedRange (Address bits))) :
    (pack width ranges).length = ranges.length * (2 * width) := by
  induction ranges with
  | nil => simp [pack]
  | cons r ranges ih =>
    rw [pack, List.flatMap_cons, List.length_append, length_packRange, ← pack, ih, List.length_cons]
    ring

lemma pack_split (hr : ranges[i]? = some r) :
    pack width ranges = pack width (ranges.take i) ++
      (bigEndian width r.lo ++ (bigEndian width r.hi ++ pack width (ranges.drop (i + 1)))) := by
  obtain ⟨hi, rfl⟩ := List.getElem?_eq_some_iff.mp hr
  have hsplit : ranges = ranges.take i ++ ranges[i] :: ranges.drop (i + 1) := by
    rw [← List.drop_eq_getElem_cons hi, List.take_append_drop]
  conv_lhs => rw [hsplit]
  rw [pack, List.flatMap_append, List.flatMap_cons, packRange, List.append_assoc]
  rfl

lemma length_pack_take (hr : ranges[i]? = some r) : (pack width (ranges.take i)).length = i * (2 * width) := by
  obtain ⟨hi, -⟩ := List.getElem?_eq_some_iff.mp hr
  rw [length_pack, List.length_take, Nat.min_eq_left hi.le]

lemma slice_lo (width : ℕ) {part after : List UInt8} {offset n : ℕ} {before : List UInt8} (hr : ranges[i]? = some r)
    (hlo : bigEndian width r.lo = before ++ (part ++ after)) (hoffset : before.length = offset)
    (hn : part.length = n) :
    readAt (pack width ranges) (i * (2 * width) + offset) n = some (ofBigEndian part) := by
  rw [readAt, pack_split hr, hlo]
  have hsplit : pack width (ranges.take i) ++ (before ++ (part ++ after) ++
      (bigEndian width r.hi ++ pack width (ranges.drop (i + 1)))) =
      (pack width (ranges.take i) ++ before) ++
        (part ++ (after ++ (bigEndian width r.hi ++ pack width (ranges.drop (i + 1))))) := by
    simp only [List.append_assoc]
  rw [hsplit, slice?_append, Option.map_some]
  · rw [List.length_append, length_pack_take hr, hoffset]
  · rw [hn]

lemma slice_hi (width : ℕ) {part after : List UInt8} {offset n : ℕ} {before : List UInt8} (hr : ranges[i]? = some r)
    (hhi : bigEndian width r.hi = before ++ (part ++ after)) (hoffset : before.length = offset)
    (hn : part.length = n) :
    readAt (pack width ranges) (i * (2 * width) + (width + offset)) n = some (ofBigEndian part) := by
  rw [readAt, pack_split hr, hhi]
  have hsplit : pack width (ranges.take i) ++ (bigEndian width r.lo ++ (before ++ (part ++ after) ++
      pack width (ranges.drop (i + 1)))) =
      (pack width (ranges.take i) ++ (bigEndian width r.lo ++ before)) ++
        (part ++ (after ++ pack width (ranges.drop (i + 1)))) := by
    simp only [List.append_assoc]
  rw [hsplit, slice?_append, Option.map_some]
  · rw [List.length_append, List.length_append, length_pack_take hr, length_bigEndian, hoffset]
  · rw [hn]

lemma searchRecords_spec {startsBelow endsAbove : ℕ → Option Bool} {x : Address bits} (hapart : Apart ranges)
    (hproper : Proper ranges)
    (hstarts : ∀ i r, ranges[i]? = some r → startsBelow i = some (decide (r.lo ≤ x)))
    (hends : ∀ i r, ranges[i]? = some r → endsAbove i = some (decide (x ≤ r.hi))) :
    ∃ found, searchRecords startsBelow endsAbove ranges.length = some found ∧ (found = true ↔ Covers ranges x) := by
  have htest : ∀ i < ranges.length, startsBelow i = some (decide (∀ r ∈ ranges[i]?, r.lo ≤ x)) := by
    intro i hi
    rw [hstarts i _ (List.getElem?_eq_getElem hi)]
    simp [List.getElem?_eq_getElem hi]
  obtain ⟨k, hk, hsearch, hbelow, habove⟩ := search_whole htest (by
    intro i j hij hj hlo r hr
    obtain rfl | hlt := hij.eq_or_lt
    · exact hlo r hr
    · obtain ⟨hi, rfl⟩ := List.getElem?_eq_some_iff.mp hr
      have hgap := List.pairwise_iff_getElem.mp hapart i j hi hj hlt
      have hnext := hlo _ (List.getElem?_eq_getElem hj)
      exact (hproper _ (List.getElem_mem hi)).trans (hgap.le.trans hnext))
  have hcovers := covers_iff_getElem hk hapart (x := x) (fun i r hi hr => hbelow i hi r hr) (by
    intro i r hi hr hlo
    obtain ⟨hlt, rfl⟩ := List.getElem?_eq_some_iff.mp hr
    apply habove i hi hlt
    intro s hs
    rw [List.getElem?_eq_getElem hlt, Option.mem_some_iff] at hs
    rw [← hs]
    exact hlo)
  rw [searchRecords, hsearch, Option.bind_some, hcovers]
  split
  · next hzero =>
    refine ⟨false, rfl, ?_⟩
    simp [hzero]
  · next hpos =>
    have hlast : k - 1 < ranges.length := by omega
    have hget := List.getElem?_eq_getElem hlast
    refine ⟨_, hends _ _ hget, ?_⟩
    rw [decide_eq_true_iff, hget]
    constructor
    · exact fun hhi => ⟨_, by omega, rfl, hhi⟩
    · rintro ⟨r, -, hr, hhi⟩
      rw [Option.some.inj hr]
      exact hhi

end Records

lemma ofBigEndian_address {bits width : ℕ} (hbits : 2 ^ bits = 256 ^ width) (a : Address bits) :
    ofBigEndian (bigEndian width a.val) = a.val := by
  apply ofBigEndian_bigEndian_of_lt
  rw [← hbits]
  exact a.isLt

lemma searchRange4_spec {ranges : List IpRange} (hapart : Apart ranges) (hproper : Proper ranges) (ip : Address 32) :
    ∃ found, searchRange4 (pack 4 ranges) ranges.length ip = some found ∧ (found = true ↔ Covers ranges ip) := by
  have hwhole : ∀ v, bigEndian 4 v = [] ++ (bigEndian 4 v ++ []) := fun v => (List.append_nil _).symm
  have hbits : 2 ^ 32 = 256 ^ 4 := by decide
  apply searchRecords_spec hapart hproper
  · intro i r hr
    have hlo := slice_lo 4 hr (hwhole r.lo) List.length_nil (length_bigEndian _ _)
    rw [ofBigEndian_address hbits] at hlo
    change (readAt (pack 4 ranges) (i * 8) 4).map _ = _
    rw [show i * 8 = i * (2 * 4) + 0 by omega, hlo]
    rfl
  · intro i r hr
    have hhi := slice_hi 4 hr (hwhole r.hi) List.length_nil (length_bigEndian _ _)
    rw [ofBigEndian_address hbits] at hhi
    change (readAt (pack 4 ranges) (i * 8 + 4) 4).map _ = _
    rw [show i * 8 + 4 = i * (2 * 4) + (4 + 0) by omega, hhi]
    rfl

lemma words_le (a b : ℕ) :
    (decide (a / 2 ^ 64 < b / 2 ^ 64) || decide (a / 2 ^ 64 = b / 2 ^ 64) && decide (a % 2 ^ 64 ≤ b % 2 ^ 64)) =
      decide (a ≤ b) := by
  rw [Bool.eq_iff_iff, Bool.or_eq_true, Bool.and_eq_true, decide_eq_true_iff, decide_eq_true_iff, decide_eq_true_iff,
    decide_eq_true_iff]
  omega

lemma searchRange6_spec {ranges : List Ip6Range} (hapart : Apart ranges) (hproper : Proper ranges)
    (ip : Address 128) :
    ∃ found, searchRange6 (pack 16 ranges) ranges.length (ip.val / 2 ^ 64) (ip.val % 2 ^ 64) = some found ∧
      (found = true ↔ Covers ranges ip) := by
  have hpow : 256 ^ 8 = 2 ^ 64 := by decide
  have hhigh : ∀ v, bigEndian 16 v = [] ++ (bigEndian 8 (v / 2 ^ 64) ++ bigEndian 8 v) := fun v => by
    rw [List.nil_append, ← hpow]
    exact bigEndian_add 8 8 v
  have hlow : ∀ v, bigEndian 16 v = bigEndian 8 (v / 2 ^ 64) ++ (bigEndian 8 v ++ []) := fun v => by
    rw [List.append_nil, ← hpow]
    exact bigEndian_add 8 8 v
  have hword : ∀ a : Address 128, ofBigEndian (bigEndian 8 (a.val / 2 ^ 64)) = a.val / 2 ^ 64 := by
    intro a
    have ha := a.isLt
    apply ofBigEndian_bigEndian_of_lt
    rw [hpow]
    omega
  have hrest : ∀ a : Address 128, ofBigEndian (bigEndian 8 a.val) = a.val % 2 ^ 64 := by
    intro a
    rw [ofBigEndian_bigEndian, hpow]
  apply searchRecords_spec hapart hproper
  · intro i r hr
    have hhi := slice_lo 16 hr (hhigh r.lo) List.length_nil (length_bigEndian _ _)
    have hlo := slice_lo 16 hr (hlow r.lo) (length_bigEndian _ _) (length_bigEndian _ _)
    rw [hword, show i * (2 * 16) + 0 = i * 32 by omega] at hhi
    rw [hrest, show i * (2 * 16) + 8 = i * 32 + 8 by omega] at hlo
    rw [be64, hhi, Option.bind_some, be64, hlo, Option.map_some, words_le]
    rfl
  · intro i r hr
    have hhi := slice_hi 16 hr (hhigh r.hi) List.length_nil (length_bigEndian _ _)
    have hlo := slice_hi 16 hr (hlow r.hi) (length_bigEndian _ _) (length_bigEndian _ _)
    rw [hword, show i * (2 * 16) + (16 + 0) = i * 32 + 16 by omega] at hhi
    rw [hrest, show i * (2 * 16) + (16 + 8) = i * 32 + 24 by omega] at hlo
    rw [be64, hhi, Option.bind_some, be64, hlo, Option.map_some, words_le]
    rfl

/-- What the generator puts into the tables is what the feeds block and do not reserve, and the search finds exactly
that. -/
theorem tables_mean_feeds (block reserved : List IpRange) (block6 reserved6 : List Ip6Range) (hblock : Proper block)
    (hreserved : Proper reserved) (hblock6 : Proper block6) (hreserved6 : Proper reserved6) :
    let table := subtractAll (mergeRanges block) (mergeRanges reserved)
    let table6 := subtractAll6 (mergeRanges6 block6) (mergeRanges6 reserved6)
    (Apart table ∧ Proper table ∧ ∀ ip, ∃ found, searchRange4 (pack 4 table) table.length ip = some found ∧
      (found = true ↔ Covers block ip ∧ ¬ Covers reserved ip)) ∧
    Apart table6 ∧ Proper table6 ∧ ∀ ip : Address 128, ∃ found,
      searchRange6 (pack 16 table6) table6.length (ip.val / 2 ^ 64) (ip.val % 2 ^ 64) = some found ∧
        (found = true ↔ Covers block6 ip ∧ ¬ Covers reserved6 ip) := by
  intro table table6
  obtain ⟨hb, hbApart, hbProper⟩ := merge_spec touching4 hblock
  obtain ⟨hr, -, hrProper⟩ := merge_spec touching4 hreserved
  obtain ⟨hcovers, hapart, hproper⟩ := subtract_spec (neighbours 32) hbApart hbProper hrProper
  obtain ⟨hb6, hb6Apart, hb6Proper⟩ := merge_spec touching6 hblock6
  obtain ⟨hr6, -, hr6Proper⟩ := merge_spec touching6 hreserved6
  obtain ⟨hcovers6, hapart6, hproper6⟩ := subtract_spec neighbours6 hb6Apart hb6Proper hr6Proper
  refine ⟨⟨hapart, hproper, ?_⟩, hapart6, hproper6, ?_⟩
  · intro ip
    obtain ⟨found, hsearch, hfound⟩ := searchRange4_spec hapart hproper ip
    refine ⟨found, hsearch, ?_⟩
    rw [hfound, hcovers, hb, hr]
  · intro ip
    obtain ⟨found, hsearch, hfound⟩ := searchRange6_spec hapart6 hproper6 ip
    refine ⟨found, hsearch, ?_⟩
    rw [hfound, hcovers6, hb6, hr6]

theorem tables_mean_feeds_at_the_ends :
    ∃ found, searchRange4 (pack 4 (subtractAll (mergeRanges [⟨0xfffffff0, 0xffffffff⟩, ⟨0, 9⟩]) (mergeRanges [⟨3, 5⟩])))
      (subtractAll (mergeRanges [⟨0xfffffff0, 0xffffffff⟩, ⟨0, 9⟩]) (mergeRanges [⟨3, 5⟩])).length 4 = some found ∧
        found = false := by
  have hreserved : Proper ([⟨3, 5⟩] : List IpRange) := by
    intro r hr
    rw [List.mem_singleton.mp hr]
    decide
  have hblock : Proper ([⟨0xfffffff0, 0xffffffff⟩, ⟨0, 9⟩] : List IpRange) := by
    intro r hr
    obtain rfl | hr := List.mem_cons.mp hr
    · decide
    · rw [List.mem_singleton.mp hr]
      decide
  obtain ⟨⟨-, -, hsearch⟩, -⟩ := tables_mean_feeds [⟨0xfffffff0, 0xffffffff⟩, ⟨0, 9⟩] [⟨3, 5⟩] [] [] hblock hreserved
    (List.forall_mem_nil _) (List.forall_mem_nil _)
  obtain ⟨found, hfound, hiff⟩ := hsearch 4
  refine ⟨found, hfound, ?_⟩
  rw [← Bool.not_eq_true, hiff]
  rintro ⟨-, hfree⟩
  exact hfree ⟨⟨3, 5⟩, List.mem_singleton.mpr rfl, by decide, by decide⟩

end UrConnect.Blocker
