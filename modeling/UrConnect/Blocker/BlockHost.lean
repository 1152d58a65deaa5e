import UrConnect.Blocker.HostTable

/-! The lookup of a hostname over the packed table, and what it means for the names that the table was built from. -/

namespace UrConnect.Blocker

open UrConnect.Lib UrConnect.Lib.Bytes

def blockerPepperLen : ℕ := 32

/-- The hostname part of the blocker. The constructor refuses data of other sizes. -/
structure DataBlocker where
  enabled : Bool
  pepper : Name
  hostData : List UInt8
  hostCount : ℕ
  length_pepper : pepper.length = blockerPepperLen
  length_hostData : hostData.length = hostCount * hostRecordLen

def lowerAscii (c : UInt8) : UInt8 := if 0x41 ≤ c ∧ c ≤ 0x5a then c + 0x20 else c

structure Scanned where
  name : Name
  ascii : Bool
  digitsDotsOnly : Bool

def neverInHost (c : UInt8) : Bool := c < 0x21 || c == 0x7f || c == 0x3a

def Scanned.push (c : UInt8) (s : Scanned) : Scanned where
  name := c :: s.name
  ascii := decide (c < 0x80) && s.ascii
  digitsDotsOnly := (c == dot || isDigit c) && s.digitsDotsOnly

def scanHost : Option UInt8 → Name → Option Scanned
  | _, [] => some ⟨[], true, true⟩
  | before, c :: host =>
    if neverInHost (lowerAscii c) then none
    else if lowerAscii c = dot ∧ (before = none ∨ before = some dot) then none
    else (scanHost (some c) host).map (Scanned.push (lowerAscii c))

def dotPositions (name : Name) : List ℕ := (List.range name.length).filter fun i => name[i]? == some dot

/-- The array on the stack has room for so many positions, and more would panic. -/
def dots (name : Name) : Option (List ℕ) :=
  if (dotPositions name).length ≤ maxHostLen / 2 + 1 then some (dotPositions name) else none

namespace DataBlocker

variable (D : Digest) (T : HostText) (b : DataBlocker)

def blockHash (name : Name) : Option Bool :=
  searchHash b.hostData b.hostCount hostRecordLen (hashHost D b.pepper name)

def blockAny : List Name → Option Bool
  | [] => some false
  | name :: names => (b.blockHash D name).bind fun found => if found then some true else blockAny names

def lookup (name : Name) : Option Bool :=
  (b.blockHash D name).bind fun found =>
    if found then some true
    else (dots name).bind fun positions =>
      b.blockAny D (positions.dropLast.reverse.map fun i => name.drop (i + 1))

def blockHost (host : Name) : Option Bool :=
  if !b.enabled then some false
  else if b.hostCount = 0 then some false
  else if trimDot host = [] ∨ maxHostLen < (trimDot host).length ∨ (trimDot host).getLast? = some dot then some false
  else
    (scanHost none (trimDot host)).elim (some false) fun s =>
      if s.digitsDotsOnly then some false
      else
        (if s.ascii then some s.name else T.asciiForm s.name).elim (some false) (b.lookup D)

def ofNames (pepper : Name) (hp : pepper.length = blockerPepperLen) (set : Finset Name) : DataBlocker where
  enabled := true
  pepper := pepper
  hostData := packKeys (hashHosts D pepper set)
  hostCount := (hashHosts D pepper set).length
  length_pepper := hp
  length_hostData := length_packKeys _

end DataBlocker

section Labels

def Labelled (name : Name) : Prop := ∀ label ∈ name.splitOn dot, label ≠ []

def LaterLabelled (name : Name) : Prop := ∀ label ∈ (name.splitOn dot).tail, label ≠ []

lemma splitOn_cons_dot (name : Name) : (dot :: name).splitOn dot = [] :: name.splitOn dot := by
  simp [List.splitOn, List.splitOnP_cons_eq_if_modifyHead]

lemma splitOn_cons_of_ne {c : UInt8} (hc : c ≠ dot) (name : Name) :
    ∃ label labels, name.splitOn dot = label :: labels ∧ (c :: name).splitOn dot = (c :: label) :: labels := by
  obtain ⟨label, labels, he⟩ := List.exists_cons_of_ne_nil (List.splitOnP_ne_nil (· == dot) name)
  refine ⟨label, labels, he, ?_⟩
  rw [List.splitOn, List.splitOnP_cons_eq_if_modifyHead, he]
  simp [hc]

lemma not_labelled_nil : ¬ Labelled [] := by
  simp [Labelled]

lemma laterLabelled_nil : LaterLabelled [] := by
  simp [LaterLabelled]

lemma not_labelled_cons_dot (name : Name) : ¬ Labelled (dot :: name) := by
  simp [Labelled, splitOn_cons_dot]

lemma laterLabelled_cons_dot (name : Name) : LaterLabelled (dot :: name) ↔ Labelled name := by
  rw [LaterLabelled, splitOn_cons_dot, List.tail_cons, Labelled]

lemma labelled_cons_of_ne {c : UInt8} (hc : c ≠ dot) (name : Name) : Labelled (c :: name) ↔ LaterLabelled name := by
  obtain ⟨label, labels, he, hcons⟩ := splitOn_cons_of_ne hc name
  simp [Labelled, LaterLabelled, he, hcons]

lemma laterLabelled_cons_of_ne {c : UInt8} (hc : c ≠ dot) (name : Name) :
    LaterLabelled (c :: name) ↔ LaterLabelled name := by
  obtain ⟨label, labels, he, hcons⟩ := splitOn_cons_of_ne hc name
  simp [LaterLabelled, he, hcons]

lemma not_labelled_concat_dot (name : Name) : ¬ LaterLabelled (name ++ [dot]) ∧ ¬ Labelled (name ++ [dot]) := by
  induction name with
  | nil => exact ⟨fun h => not_labelled_nil ((laterLabelled_cons_dot []).mp h), not_labelled_cons_dot []⟩
  | cons c name ih =>
    rw [List.cons_append]
    by_cases hc : c = dot
    · subst hc
      exact ⟨fun h => ih.2 ((laterLabelled_cons_dot _).mp h), not_labelled_cons_dot _⟩
    · rw [laterLabelled_cons_of_ne hc, labelled_cons_of_ne hc]
      exact ⟨ih.1, ih.1⟩

lemma count_dot_le (name : Name) :
    (LaterLabelled name → 2 * name.count dot ≤ name.length) ∧ (Labelled name → 2 * name.count dot + 1 ≤ name.length) := by
  induction name with
  | nil => exact ⟨fun _ => by simp, fun h => absurd h not_labelled_nil⟩
  | cons c name ih =>
    by_cases hc : c = dot
    · subst hc
      refine ⟨fun h => ?_, fun h => absurd h (not_labelled_cons_dot name)⟩
      have := ih.2 ((laterLabelled_cons_dot name).mp h)
      simp only [List.count_cons_self, List.length_cons]
      omega
    · rw [laterLabelled_cons_of_ne hc, labelled_cons_of_ne hc, List.count_cons_of_ne hc, List.length_cons]
      exact ⟨fun h => (ih.1 h).trans (Nat.le_succ _), fun h => by have := ih.1 h; omega⟩

lemma lowerAscii_eq_dot {c : UInt8} : lowerAscii c = dot ↔ c = dot := by
  rw [lowerAscii, dot]
  split
  · next h =>
    have h1 := UInt8.le_iff_toNat_le.mp h.1
    have h2 := UInt8.le_iff_toNat_le.mp h.2
    rw [← UInt8.toNat_inj, ← UInt8.toNat_inj, UInt8.toNat_add]
    simp at h1 h2 ⊢
    omega
  · exact Iff.rfl

def scanned (name : Name) : Scanned :=
  ⟨name, name.all fun c => c < 0x80, name.all fun c => c == dot || isDigit c⟩

def Passes (before : Option UInt8) (name : Name) : Prop :=
  (∀ c ∈ name, neverInHost c = false) ∧
    if before = none ∨ before = some dot then Labelled name else LaterLabelled name

lemma passes_cons (before : Option UInt8) (c : UInt8) (name : Name) :
    Passes before (c :: name) ↔
      neverInHost c = false ∧ ¬(c = dot ∧ (before = none ∨ before = some dot)) ∧ Passes (some c) name := by
  rw [Passes, Passes, List.forall_mem_cons]
  by_cases hc : c = dot
  · subst hc
    by_cases hb : before = none ∨ before = some dot
    · simp [hb, not_labelled_cons_dot]
    · simp only [laterLabelled_cons_dot, hb, and_false, not_false_eq_true, true_and, or_true, if_true]
      tauto
  · by_cases hb : before = none ∨ before = some dot
    · simp only [if_pos hb, labelled_cons_of_ne hc, hc, false_and, not_false_eq_true, true_and, reduceCtorEq,
        Option.some.injEq, or_self, if_false]
      tauto
    · simp only [if_neg hb, laterLabelled_cons_of_ne hc, hc, false_and, not_false_eq_true, true_and, reduceCtorEq,
        Option.some.injEq, or_self, if_false]
      tauto

lemma scanHost_spec (host : Name) (before : Option UInt8) (hlast : host.getLast? ≠ some dot)
    (hne : host = [] → ¬(before = none ∨ before = some dot)) :
    (scanHost before host = some (scanned (host.map lowerAscii)) ∧ Passes before (host.map lowerAscii)) ∨
      (scanHost before host = none ∧ ¬Passes before (host.map lowerAscii)) := by
  induction host generalizing before with
  | nil =>
    refine .inl ⟨rfl, by simp, ?_⟩
    rw [List.map_nil, if_neg (hne rfl)]
    exact laterLabelled_nil
  | cons c host ih =>
    rw [List.map_cons, passes_cons, scanHost]
    by_cases hnever : neverInHost (lowerAscii c) = true
    · exact .inr ⟨by rw [if_pos hnever], by simp [hnever]⟩
    rw [if_neg hnever]
    by_cases hdot : lowerAscii c = dot ∧ (before = none ∨ before = some dot)
    · exact .inr ⟨by rw [if_pos hdot], fun h => h.2.1 hdot⟩
    rw [if_neg hdot]
    -- the byte before is the one of the host, and its case plays no role for a dot
    have hbefore : Passes (some (lowerAscii c)) = Passes (some c) := by
      funext name
      simp only [Passes, reduceCtorEq, false_or, Option.some.injEq, lowerAscii_eq_dot]
    have hlast' : host.getLast? ≠ some dot := by
      cases host with
      | nil => simp
      | cons d host => rwa [List.getLast?_cons_cons] at hlast
    have hne' : host = [] → ¬(some c = none ∨ some c = some dot) := by
      rintro rfl (hnone | hc)
      · cases hnone
      · exact hlast (by simpa using hc)
    rw [hbefore]
    rcases ih (some c) hlast' hne' with ⟨he, hp⟩ | ⟨he, hp⟩
    · exact .inl ⟨by rw [he]; rfl, by simpa using hnever, hdot, hp⟩
    · exact .inr ⟨by rw [he]; rfl, fun h => hp h.2.2⟩

end Labels

section Candidates

def Compared (name candidate : Name) : Prop := candidate = name ∨ dot ∈ candidate ∧ (dot :: candidate) <:+ name

lemma mem_dropLast_of_lt {positions : List ℕ} (hs : positions.Pairwise (· < ·)) {i : ℕ} :
    i ∈ positions.dropLast ↔ i ∈ positions ∧ ∃ j ∈ positions, i < j := by
  induction positions with
  | nil => simp
  | cons a positions ih =>
    obtain ⟨ha, hrest⟩ := List.pairwise_cons.mp hs
    cases positions with
    | nil => simp +contextual
    | cons b positions =>
      rw [List.dropLast_cons_cons, List.mem_cons, ih hrest]
      constructor
      · rintro (rfl | ⟨hi, j, hj, hlt⟩)
        · exact ⟨List.mem_cons_self, b, by simp, ha b List.mem_cons_self⟩
        · exact ⟨List.mem_cons_of_mem _ hi, j, List.mem_cons_of_mem _ hj, hlt⟩
      · rintro ⟨hi, j, hj, hlt⟩
        rcases List.mem_cons.mp hi with rfl | hi
        · exact .inl rfl
        · rcases List.mem_cons.mp hj with he | hj
          · exact absurd (ha i hi) (by omega)
          · exact .inr ⟨hi, j, hj, hlt⟩

lemma mem_dotPositions {name : Name} {i : ℕ} : i ∈ dotPositions name ↔ name[i]? = some dot := by
  rw [dotPositions, List.mem_filter, List.mem_range, beq_iff_eq]
  exact ⟨fun h => h.2, fun h => ⟨(List.getElem?_eq_some_iff.mp h).1, h⟩⟩

lemma length_dotPositions (name : Name) : (dotPositions name).length = name.count dot := by
  induction name with
  | nil => rfl
  | cons c name ih =>
    rw [dotPositions, List.length_cons, List.range_succ_eq_map, List.filter_cons, List.filter_map, List.count_cons, ← ih,
      dotPositions]
    have hrest : ((fun i => (c :: name)[i]? == some dot) ∘ Nat.succ) = fun i => name[i]? == some dot := by
      funext i
      simp
    rw [hrest]
    by_cases hc : c = dot <;> simp [hc]

lemma mem_suffixes {name candidate : Name} :
    candidate ∈ (dotPositions name).dropLast.reverse.map (fun i => name.drop (i + 1)) ↔
      dot ∈ candidate ∧ (dot :: candidate) <:+ name := by
  have hsorted : (dotPositions name).Pairwise (· < ·) := List.pairwise_lt_range.filter _
  have hdrop : ∀ {i : ℕ}, name[i]? = some dot → name.drop i = dot :: name.drop (i + 1) := by
    intro i hi
    obtain ⟨hlt, he⟩ := List.getElem?_eq_some_iff.mp hi
    rw [List.drop_eq_getElem_cons hlt, he]
  simp only [List.mem_map, List.mem_reverse, mem_dropLast_of_lt hsorted, mem_dotPositions]
  constructor
  · rintro ⟨i, ⟨hi, j, hj, hlt⟩, rfl⟩
    refine ⟨List.mem_iff_getElem?.mpr ⟨j - (i + 1), ?_⟩, hdrop hi ▸ List.drop_suffix i name⟩
    rw [List.getElem?_drop, show i + 1 + (j - (i + 1)) = j by omega]
    exact hj
  · rintro ⟨hdot, before, rfl⟩
    obtain ⟨j, hj⟩ := List.mem_iff_getElem?.mp hdot
    refine ⟨before.length, ⟨by simp, before.length + 1 + j, ?_, by omega⟩, by simp⟩
    rw [List.getElem?_append_right (by omega), show before.length + 1 + j - before.length = j + 1 by omega]
    exact hj

lemma dots_of_labelled {name : Name} (h : Labelled name) (hlen : name.length ≤ maxHostLen) :
    dots name = some (dotPositions name) := by
  have hcount := (count_dot_le name).2 h
  have hroom : (dotPositions name).length ≤ maxHostLen / 2 + 1 := by
    rw [length_dotPositions]
    omega
  exact if_pos hroom

end Candidates

namespace DataBlocker

variable (D : Digest) {pepper : Name} (hp : pepper.length = blockerPepperLen) (set : Finset Name)

lemma blockHash_ofNames (name : Name) :
    (ofNames D pepper hp set).blockHash D name =
      some (decide (∃ entry ∈ set, hashHost D pepper entry = hashHost D pepper name)) := by
  have hsize : ∀ key ∈ hashHosts D pepper set, key < 256 ^ hostRecordLen := by
    intro key hkey
    obtain ⟨entry, -, rfl⟩ := mem_hashHosts.mp hkey
    exact hashHost_lt D pepper entry
  have hsorted : (hashHosts D pepper set).Pairwise (· ≤ ·) := Finset.pairwise_sort _ _
  rw [blockHash, ofNames, searchHash_spec hsize hsorted]
  simp only [mem_hashHosts]

lemma blockAny_ofNames (names : List Name) :
    (ofNames D pepper hp set).blockAny D names =
      some (decide (∃ name ∈ names, ∃ entry ∈ set, hashHost D pepper entry = hashHost D pepper name)) := by
  induction names with
  | nil => simp [blockAny]
  | cons name names ih =>
    rw [blockAny, blockHash_ofNames, Option.bind_some]
    by_cases h : ∃ entry ∈ set, hashHost D pepper entry = hashHost D pepper name
    · simp [h]
    · rw [if_neg (by simpa using h), ih]
      simp only [List.exists_mem_cons_iff, h, false_or]

lemma lookup_ofNames {name : Name} (hl : Labelled name) (hlen : name.length ≤ maxHostLen) :
    ∃ found, (ofNames D pepper hp set).lookup D name = some found ∧
      (found = true ↔ ∃ candidate, Compared name candidate ∧
        ∃ entry ∈ set, hashHost D pepper entry = hashHost D pepper candidate) := by
  rw [lookup, blockHash_ofNames, Option.bind_some]
  by_cases h : ∃ entry ∈ set, hashHost D pepper entry = hashHost D pepper name
  · exact ⟨true, by rw [if_pos (decide_eq_true h)], fun _ => ⟨name, .inl rfl, h⟩, fun _ => rfl⟩
  · rw [if_neg (by simpa using h), dots_of_labelled hl hlen, Option.bind_some, blockAny_ofNames]
    refine ⟨_, rfl, ?_⟩
    rw [decide_eq_true_iff]
    simp only [mem_suffixes, Compared]
    constructor
    · rintro ⟨candidate, hc, hentry⟩
      exact ⟨candidate, .inr hc, hentry⟩
    · rintro ⟨candidate, rfl | hc, hentry⟩
      · exact absurd hentry h
      · exact ⟨candidate, hc, hentry⟩

end DataBlocker

structure WellFormed (name : Name) : Prop where
  length_le : name.length ≤ maxHostLen
  bytes : ∀ c ∈ name, neverInHost c = false
  labelled : Labelled name

def IpLike (name : Name) : Prop := ∀ c ∈ name, c = dot ∨ isDigit c = true

def normalized (host : Name) : Name := (trimDot host).map lowerAscii

lemma lowerAscii_lt {c : UInt8} (h : c < 0x80) : lowerAscii c < 0x80 := by
  rw [lowerAscii]
  split
  · next hc =>
    have h2 := UInt8.le_iff_toNat_le.mp hc.2
    rw [UInt8.lt_iff_toNat_lt, UInt8.toNat_add]
    simp at h2 ⊢
    omega
  · exact h

lemma normalized_ends_in_dot {host : Name} (h : (trimDot host).getLast? = some dot) : ¬ Labelled (normalized host) := by
  obtain ⟨before, hb⟩ := List.getLast?_eq_some_iff.mp h
  rw [normalized, hb, List.map_append, List.map_singleton, lowerAscii_eq_dot.mpr rfl]
  exact (not_labelled_concat_dot _).2

lemma ipLike_iff {name : Name} : (scanned name).digitsDotsOnly = true ↔ IpLike name := by
  simp [scanned, IpLike]

lemma scanned_ascii {host : Name} (h : ∀ c ∈ host, c < 0x80) : (scanned (normalized host)).ascii = true := by
  have htrim : trimDot host ⊆ host := by
    rw [trimDot]
    split
    · exact (List.dropLast_sublist host).subset
    · exact List.Subset.refl host
  simp only [scanned, normalized, List.all_eq_true, List.mem_map, decide_eq_true_iff]
  rintro c ⟨d, hd, rfl⟩
  exact lowerAscii_lt (h d (htrim hd))

lemma blockHost_ofNames (D : Digest) (T : HostText) {pepper : Name} (hp : pepper.length = blockerPepperLen)
    (set : Finset Name) {host : Name} (hascii : ∀ c ∈ host, c < 0x80) :
    ∃ found, (DataBlocker.ofNames D pepper hp set).blockHost D T host = some found ∧
      (found = true ↔ WellFormed (normalized host) ∧ ¬ IpLike (normalized host) ∧
        ∃ candidate, Compared (normalized host) candidate ∧
          ∃ entry ∈ set, hashHost D pepper entry = hashHost D pepper candidate) := by
  rw [DataBlocker.blockHost, if_neg (show ¬ (!(DataBlocker.ofNames D pepper hp set).enabled) = true by
    simp [DataBlocker.ofNames])]
  by_cases hcount : (DataBlocker.ofNames D pepper hp set).hostCount = 0
  · refine ⟨false, by rw [if_pos hcount], by simp, ?_⟩
    rintro ⟨-, -, candidate, -, entry, he, -⟩
    have hmem : hashHost D pepper entry ∈ hashHosts D pepper set := mem_hashHosts.mpr ⟨entry, he, rfl⟩
    rw [List.length_eq_zero_iff.mp hcount] at hmem
    cases hmem
  rw [if_neg hcount]
  have hlength : (normalized host).length = (trimDot host).length := List.length_map _
  by_cases hbad : trimDot host = [] ∨ maxHostLen < (trimDot host).length ∨ (trimDot host).getLast? = some dot
  · refine ⟨false, by rw [if_pos hbad], by simp, ?_⟩
    rintro ⟨hw, -⟩
    rcases hbad with hempty | hlong | hlast
    · have hl := hw.labelled
      rw [normalized, hempty] at hl
      exact absurd hl not_labelled_nil
    · have := hw.length_le
      omega
    · exact absurd hw.labelled (normalized_ends_in_dot hlast)
  rw [if_neg hbad]
  push Not at hbad
  obtain ⟨hne, hlen, hlast⟩ := hbad
  have hw : WellFormed (normalized host) ↔ Passes none (normalized host) := by
    simp only [Passes, true_or, if_true]
    exact ⟨fun h => ⟨h.bytes, h.labelled⟩, fun h => ⟨by omega, h.1, h.2⟩⟩
  have hspec := scanHost_spec (trimDot host) none hlast fun h => absurd h hne
  rw [← normalized] at hspec
  rcases hspec with ⟨hscan, hpass⟩ | ⟨hscan, hpass⟩
  · rw [hscan, Option.elim_some]
    by_cases hip : (scanned (normalized host)).digitsDotsOnly = true
    · exact ⟨false, if_pos hip, by simp, fun h => absurd (ipLike_iff.mp hip) h.2.1⟩
    · obtain ⟨found, hfound, hiff⟩ := DataBlocker.lookup_ofNames D hp set (hw.mpr hpass).labelled (hw.mpr hpass).length_le
      refine ⟨found, ?_, ?_⟩
      · rw [if_neg hip, if_pos (scanned_ascii hascii), Option.elim_some]
        exact hfound
      · rw [hiff]
        exact ⟨fun h => ⟨hw.mpr hpass, fun h' => hip (ipLike_iff.mpr h'), h⟩, fun h => h.2.2⟩
  · exact ⟨false, by rw [hscan, Option.elim_none], by simp, fun h => absurd (hw.mp h.1) hpass⟩

def Accepted (T : HostText) (name : Name) : Prop := (∃ raw, normalizeHost T raw = some name) ∧ dot ∈ name

/-- From the names of the feeds to the answer: a host is blocked when it is a well-formed name, no address, and is one
of the names or under one. -/
theorem block_host_means_names (D : Digest) (T : HostText) (pepper : Name) (hp : pepper.length = blockerPepperLen)
    (names : Finset Name) (hnames : ∀ name ∈ names, Accepted T name) (order : List Name) (host : Name)
    (hascii : ∀ c ∈ host, c < 0x80)
    (hinj : Set.InjOn (hashHost D pepper) {name | name ∈ names ∨ Compared (normalized host) name}) :
    ∃ blocked, (DataBlocker.ofNames D pepper hp (compressSuffixes order names).1).blockHost D T host = some blocked ∧
      (blocked = true ↔ WellFormed (normalized host) ∧ ¬ IpLike (normalized host) ∧
        ∃ name ∈ names, Under (normalized host) name) := by
  have hcover := compressSuffixes_cover order names
  obtain ⟨blocked, hblocked, hiff⟩ := blockHost_ofNames D T hp (compressSuffixes order names).1 hascii
  refine ⟨blocked, hblocked, hiff.trans (and_congr_right fun _ => and_congr_right fun _ => ?_)⟩
  constructor
  · rintro ⟨candidate, hc, entry, he, hhash⟩
    obtain rfl := hinj (.inl (hcover.subset he)) (.inr hc) hhash
    refine ⟨entry, hcover.subset he, ?_⟩
    exact hc.imp Eq.symm And.right
  · rintro ⟨name, hname, hunder⟩
    obtain ⟨ancestor, ha, habove⟩ := hcover.covers name hname
    have hdot := (hnames ancestor (hcover.subset ha)).2
    exact ⟨ancestor, (hunder.trans habove).imp Eq.symm fun hs => ⟨hdot, hs⟩, ancestor, ha, rfl⟩

section Sample

def Digest.sample : Digest where
  sum bytes := (bytes.drop blockerPepperLen ++ List.replicate 32 0).take 32
  length_sum bytes := by simp

def HostText.sample : HostText where
  trimSpace := id
  toLower := id
  punycode _ := none

def samplePepper : Name := List.replicate blockerPepperLen 0

def sampleName : Name := [0x61, 0x2e, 0x62]

def sampleHost : Name := [0x58, 0x2e, 0x41, 0x2e, 0x42, 0x2e]

lemma sample_compared {name : Name} (h : name ∈ ({sampleName} : Finset Name) ∨ Compared (normalized sampleHost) name) :
    name = sampleName ∨ name = [0x78, 0x2e, 0x61, 0x2e, 0x62] := by
  rcases h with h | rfl | h
  · exact .inl (Finset.mem_singleton.mp h)
  · exact .inr rfl
  · have hmem := mem_suffixes.mpr h
    exact .inl (List.mem_singleton.mp hmem)

theorem block_host_means_names_of_sample :
    ∃ blocked, (DataBlocker.ofNames .sample samplePepper rfl
        (compressSuffixes [sampleName] {sampleName}).1).blockHost .sample .sample sampleHost = some blocked ∧
      (blocked = true ↔ WellFormed (normalized sampleHost) ∧ ¬ IpLike (normalized sampleHost) ∧
        ∃ name ∈ ({sampleName} : Finset Name), Under (normalized sampleHost) name) := by
  have hascii : ∀ c ∈ sampleHost, c < 0x80 := by decide +kernel
  apply block_host_means_names .sample .sample samplePepper rfl {sampleName} _ [sampleName] sampleHost hascii
  · intro a ha b hb hab
    rcases sample_compared ha with rfl | rfl <;> rcases sample_compared hb with rfl | rfl
    · rfl
    · exact absurd hab (by decide)
    · exact absurd hab (by decide)
    · rfl
  · intro name hname
    rw [Finset.mem_singleton.mp hname]
    exact ⟨⟨sampleName, by decide⟩, by decide⟩

end Sample

end UrConnect.Blocker
