import UrConnect.Blocker.Ranges

/-! The hostname table of the blocker: the names that the generator accepts, suffix compression, and the search over
the packed hashes. -/

namespace UrConnect.Blocker

open UrConnect.Lib UrConnect.Lib.Bytes UrConnect.Lib.BinarySearch

abbrev Name := List UInt8

def dot : UInt8 := 0x2e

def maxHostLen : ℕ := 253

def hostRecordLen : ℕ := 6

structure HostText where
  trimSpace : Name → Name
  toLower : Name → Name
  punycode : Name → Option Name

structure Digest where
  sum : List UInt8 → List UInt8
  length_sum : ∀ bytes, (sum bytes).length = 32

def trimDot (name : Name) : Name := if name.getLast? = some dot then name.dropLast else name

section Generator

def isDigit (c : UInt8) : Bool := 0x30 ≤ c && c ≤ 0x39

/-- The loop over the bytes, with the length of the current label and whether only digits and dots came so far. -/
def checkLabels : ℕ → Bool → Name → Option Bool
  | _, digitsDotsOnly, [] => some digitsDotsOnly
  | labelLen, digitsDotsOnly, c :: name =>
    if c = dot then if labelLen = 0 then none else checkLabels 0 digitsDotsOnly name
    else if 63 < labelLen + 1 then none
    else if 0x61 ≤ c ∧ c ≤ 0x7a then checkLabels (labelLen + 1) false name
    else if isDigit c then checkLabels (labelLen + 1) digitsDotsOnly name
    else if c = 0x2d ∨ c = 0x5f then checkLabels (labelLen + 1) false name
    else none

def HostText.asciiForm (T : HostText) (name : Name) : Option Name :=
  (T.punycode name).filter fun ascii => ascii ≠ [] && ascii.length ≤ maxHostLen

def normalizeHost (T : HostText) (raw : Name) : Option Name :=
  let name := trimDot (T.toLower (T.trimSpace raw))
  if name = [] ∨ maxHostLen < name.length then none
  else
    (if name.all (· < 0x80) then some name else T.asciiForm name).bind fun name =>
      if name.head? = some dot ∨ name.getLast? = some dot then none
      else (checkLabels 0 true name).bind fun digitsDotsOnly => if digitsDotsOnly then none else some name

def hasParent (set : Finset Name) : Name → Bool
  | [] => false
  | c :: parent =>
    if c ≠ dot then hasParent set parent
    else if dot ∉ parent then false
    else if parent ∈ set then true
    else hasParent set parent

def compressOne (state : Finset Name × ℕ) (name : Name) : Finset Name × ℕ :=
  if hasParent state.1 name then (state.1.erase name, state.2 + 1) else state

def compressSuffixes (order : List Name) (set : Finset Name) : Finset Name × ℕ := order.foldl compressOne (set, 0)

def hashHost (D : Digest) (pepper name : Name) : ℕ := ofBigEndian ((D.sum (pepper ++ name)).take hostRecordLen)

def hashHosts (D : Digest) (pepper : Name) (set : Finset Name) : List ℕ :=
  (set.image (hashHost D pepper)).sort (· ≤ ·)

def packKeys (keys : List ℕ) : List UInt8 := keys.flatMap (bigEndian hostRecordLen)

end Generator

def beN (data : List UInt8) (start width : ℕ) : Option ℕ := readAt data start width

def searchHash (data : List UInt8) (count width key : ℕ) : Option Bool :=
  (search (fun mid => (beN data (mid * width) width).map fun v => v < key) count 0 count).bind fun lo =>
    if lo < count then (beN data (lo * width) width).map fun v => v = key else some false

def Under (name ancestor : Name) : Prop := name = ancestor ∨ (dot :: ancestor) <:+ name

lemma Under.trans {a b c : Name} (hab : Under a b) (hbc : Under b c) : Under a c := by
  rcases hab with rfl | hab
  · exact hbc
  · rcases hbc with rfl | hbc
    · exact .inr hab
    · exact .inr ((hbc.trans (List.suffix_cons dot b)).trans hab)

lemma hasParent_iff {set : Finset Name} {name : Name} :
    hasParent set name = true ↔ ∃ parent ∈ set, dot ∈ parent ∧ (dot :: parent) <:+ name := by
  induction name with
  | nil => simp [hasParent]
  | cons c rest ih =>
    simp only [hasParent, List.suffix_cons_iff]
    by_cases hc : c = dot
    · subst hc
      rw [if_neg (by simp)]
      by_cases hdot : dot ∈ rest
      · rw [if_neg (not_not.mpr hdot)]
        by_cases hset : rest ∈ set
        · rw [if_pos hset]
          exact ⟨fun _ => ⟨rest, hset, hdot, .inl rfl⟩, fun _ => rfl⟩
        · rw [if_neg hset, ih]
          constructor
          · rintro ⟨parent, hp, hd, hs⟩
            exact ⟨parent, hp, hd, .inr hs⟩
          · rintro ⟨parent, hp, hd, he | hs⟩
            · obtain rfl : parent = rest := (List.cons.inj he).2
              exact absurd hp hset
            · exact ⟨parent, hp, hd, hs⟩
      · rw [if_pos hdot]
        simp only [Bool.false_eq_true, false_iff]
        rintro ⟨parent, -, hd, he | hs⟩
        · obtain rfl : parent = rest := (List.cons.inj he).2
          exact hdot hd
        · exact hdot (hs.subset (List.mem_cons_of_mem _ hd))
    · rw [if_pos hc, ih]
      constructor
      · rintro ⟨parent, hp, hd, hs⟩
        exact ⟨parent, hp, hd, .inr hs⟩
      · rintro ⟨parent, hp, hd, he | hs⟩
        · exact absurd (List.cons.inj he).1.symm hc
        · exact ⟨parent, hp, hd, hs⟩

structure Cover (set kept : Finset Name) : Prop where
  subset : kept ⊆ set
  covers : ∀ name ∈ set, ∃ ancestor ∈ kept, Under name ancestor

lemma Cover.compressOne {set : Finset Name} {state : Finset Name × ℕ} (h : Cover set state.1) (name : Name) :
    Cover set (compressOne state name).1 := by
  rw [Blocker.compressOne]
  split
  · next hparent =>
    obtain ⟨parent, hp, -, hs⟩ := hasParent_iff.mp hparent
    -- what the dropped name stood for is under its parent, and the parent stays
    have hne : parent ≠ name := by
      rintro rfl
      have := hs.length_le
      simp at this
    refine ⟨(Finset.erase_subset _ _).trans h.subset, ?_⟩
    intro other ho
    obtain ⟨ancestor, ha, hunder⟩ := h.covers other ho
    by_cases he : ancestor = name
    · subst he
      exact ⟨parent, Finset.mem_erase.mpr ⟨hne, hp⟩, hunder.trans (.inr hs)⟩
    · exact ⟨ancestor, Finset.mem_erase.mpr ⟨he, ha⟩, hunder⟩
  · exact h

lemma compressSuffixes_cover (order : List Name) (set : Finset Name) : Cover set (compressSuffixes order set).1 := by
  have hstart : Cover set (set, 0).1 := ⟨Finset.Subset.refl _, fun name hname => ⟨name, hname, .inl rfl⟩⟩
  rw [compressSuffixes]
  generalize ((set, 0) : Finset Name × ℕ) = state at hstart ⊢
  induction order generalizing state with
  | nil => exact hstart
  | cons name order ih => exact ih _ (hstart.compressOne name)

lemma hashHost_lt (D : Digest) (pepper name : Name) : hashHost D pepper name < 256 ^ hostRecordLen := by
  have h := ofBigEndian_lt ((D.sum (pepper ++ name)).take hostRecordLen)
  rwa [List.length_take, D.length_sum] at h

lemma mem_hashHosts {D : Digest} {pepper : Name} {set : Finset Name} {key : ℕ} :
    key ∈ hashHosts D pepper set ↔ ∃ name ∈ set, hashHost D pepper name = key := by
  rw [hashHosts, Finset.mem_sort, Finset.mem_image]

section SearchHash

variable {keys : List ℕ}

lemma length_packKeys (keys : List ℕ) : (packKeys keys).length = keys.length * hostRecordLen := by
  simp [packKeys, List.length_flatMap]

lemma beN_packKeys (hsize : ∀ key ∈ keys, key < 256 ^ hostRecordLen) {i : ℕ} (hi : i < keys.length) :
    beN (packKeys keys) (i * hostRecordLen) hostRecordLen = some keys[i] := by
  have hpart : (keys.map (bigEndian hostRecordLen))[i]? = some (bigEndian hostRecordLen keys[i]) := by
    rw [List.getElem?_map, List.getElem?_eq_getElem hi, Option.map_some]
  have hstart : ((keys.map (bigEndian hostRecordLen)).take i).flatten.length = i * hostRecordLen := by
    rw [← List.map_take, ← List.flatMap_def, ← packKeys, length_packKeys, List.length_take, min_eq_left hi.le]
  rw [beN, readAt, packKeys, List.flatMap_def, slice?_flatten hpart hstart (by rw [length_bigEndian]), Option.map_some,
    ofBigEndian_bigEndian_of_lt (hsize _ (List.getElem_mem hi))]

lemma searchHash_spec (hsize : ∀ key ∈ keys, key < 256 ^ hostRecordLen) (hsorted : keys.Pairwise (· ≤ ·)) (key : ℕ) :
    searchHash (packKeys keys) keys.length hostRecordLen key = some (decide (key ∈ keys)) := by
  have hmono : ∀ i j (hij : i ≤ j) (hj : j < keys.length), keys[i] ≤ keys[j] := by
    intro i j hij hj
    rcases hij.eq_or_lt with rfl | hlt
    · exact le_rfl
    · exact List.pairwise_iff_getElem.mp hsorted i j (by omega) hj hlt
  have htest : ∀ i < keys.length, (beN (packKeys keys) (i * hostRecordLen) hostRecordLen).map (fun v => decide (v < key)) =
      some (decide (∀ v ∈ keys[i]?, v < key)) := by
    intro i hi
    rw [beN_packKeys hsize hi, Option.map_some]
    simp [List.getElem?_eq_getElem hi]
  obtain ⟨k, hk, hsearch, hbelow, habove⟩ := search_whole htest (by
    intro i j hij hj hlt v hv
    obtain ⟨hi, rfl⟩ := List.getElem?_eq_some_iff.mp hv
    exact lt_of_le_of_lt (hmono i j hij hj) (hlt _ (List.getElem?_eq_getElem hj)))
  rw [searchHash, hsearch, Option.bind_some]
  split
  · next hlt =>
    rw [beN_packKeys hsize hlt, Option.map_some, Option.some.injEq, decide_eq_decide]
    refine ⟨fun he => he ▸ List.getElem_mem hlt, fun hmem => ?_⟩
    obtain ⟨i, hi, rfl⟩ := List.mem_iff_getElem.mp hmem
    have hki : k ≤ i := by
      by_contra hik
      exact lt_irrefl _ (hbelow i (by omega) _ (List.getElem?_eq_getElem hi))
    apply le_antisymm (hmono k i hki hi)
    by_contra hlow
    apply habove k le_rfl hlt
    intro v hv
    rw [List.getElem?_eq_getElem hlt, Option.mem_some_iff] at hv
    omega
  · next hend =>
    rw [Option.some.injEq, eq_comm, decide_eq_false_iff_not]
    intro hmem
    obtain ⟨i, hi, rfl⟩ := List.mem_iff_getElem.mp hmem
    exact lt_irrefl _ (hbelow i (by omega) _ (List.getElem?_eq_getElem hi))

end SearchHash

end UrConnect.Blocker
