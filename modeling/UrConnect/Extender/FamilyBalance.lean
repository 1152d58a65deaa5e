import UrConnect.Extender.RootKeys

/-! The order of a sample by address family: records are drawn in turn from the ones reachable over IPv6 and over IPv4,
and every prefix serves both families as well as the records allow. -/

namespace UrConnect.Extender

variable {ρ : Type}

def Addr.is4 : Addr → Bool
  | .v4 _ => true
  | _ => false

structure IpFamilies where
  hasIpv4 : Bool
  hasIpv6 : Bool
deriving DecidableEq

def IpFamilies.withAddress (P : Primitives) (families : IpFamilies) (recordAddress : RecordAddress) : IpFamilies :=
  match P.parseAddr recordAddress.ip with
  | none => families
  | some ip => if ip.unmap.is4 then { families with hasIpv4 := true } else { families with hasIpv6 := true }

def recordIpFamilies (P : Primitives) : Option RecordBody → IpFamilies
  | none => ⟨false, false⟩
  | some body => body.addresses.foldl (IpFamilies.withAddress P) ⟨false, false⟩

/-- The first of the pool that has not been taken goes to the end. The records taken are the balanced ones, and the
rest of the pool stands for the index the next turn starts from. -/
def takeNext [DecidableEq ρ] (balanced : List ρ) : List ρ → List ρ × List ρ
  | [] => (balanced, [])
  | record :: pool => if balanced.contains record then takeNext balanced pool else (balanced ++ [record], pool)

def interleave [DecidableEq ρ] (total : ℕ) : ℕ → List ρ → List ρ → List ρ → List ρ
  | 0, balanced, _, _ => balanced
  | turns + 1, balanced, ipv4Capable, ipv6Capable =>
    if total ≤ balanced.length then balanced
    else
      let six := takeNext balanced ipv6Capable
      let four := takeNext six.1 ipv4Capable
      if four.1.length = balanced.length then balanced else interleave total turns four.1 four.2 six.2

/-- Records ordered so that a prefix of any length serves both families as evenly as the directory can. A turn that
goes on takes a record, so as many turns as there are records are enough. -/
def balanceRecordsByIpFamily [DecidableEq ρ] (P : Primitives) (recordBodies : ρ → Option RecordBody) (records : List ρ) :
    List ρ :=
  if records.length ≤ 1 then records
  else
    let ipv4Capable := records.filter fun record => (recordIpFamilies P (recordBodies record)).hasIpv4
    let ipv6Capable := records.filter fun record => (recordIpFamilies P (recordBodies record)).hasIpv6
    let unreachable := records.filter fun record =>
      !(recordIpFamilies P (recordBodies record)).hasIpv4 && !(recordIpFamilies P (recordBodies record)).hasIpv6
    interleave records.length records.length [] ipv4Capable ipv6Capable ++ unreachable

namespace FamilyBalance

lemma takeNext_cases [DecidableEq ρ] (balanced pool : List ρ) :
    (takeNext balanced pool = (balanced, []) ∧ ∀ record ∈ pool, record ∈ balanced) ∨
      ∃ record ∈ pool, record ∉ balanced ∧ (takeNext balanced pool).1 = balanced ++ [record] ∧
        (takeNext balanced pool).2 ⊆ pool ∧
        ∀ other ∈ pool, other ∈ balanced ++ [record] ∨ other ∈ (takeNext balanced pool).2 := by
  induction pool with
  | nil => exact .inl ⟨rfl, by simp⟩
  | cons record pool ih =>
    by_cases hm : record ∈ balanced
    · rw [takeNext, if_pos (by simpa using hm)]
      rcases ih with ⟨he, hall⟩ | ⟨drawn, hd, hn, h1, h2, hrest⟩
      · exact .inl ⟨he, by simpa [hm] using hall⟩
      · refine .inr ⟨drawn, List.mem_cons_of_mem _ hd, hn, h1, fun other ho => List.mem_cons_of_mem _ (h2 ho), ?_⟩
        intro other ho
        rcases List.mem_cons.mp ho with rfl | ho
        · exact .inl (List.mem_append_left _ hm)
        · exact hrest other ho
    · rw [takeNext, if_neg (by simpa using hm)]
      refine .inr ⟨record, List.mem_cons_self, hm, rfl, fun other ho => List.mem_cons_of_mem _ ho, ?_⟩
      intro other ho
      rcases List.mem_cons.mp ho with rfl | ho
      · exact .inl (by simp)
      · exact .inr ho

def Fair (test : ρ → Bool) (records balanced : List ρ) (slack : ℕ) : Prop :=
  (∀ record ∈ records, test record = true → record ∈ balanced) ∨
    balanced.length + slack ≤ 2 * balanced.countP test + 1

def Serves (test : ρ → Bool) (records balanced : List ρ) (spare : ℕ) : Prop :=
  ∀ k ≤ balanced.length, min ((k + spare) / 2) (records.countP test) ≤ (balanced.take k).countP test

variable {test : ρ → Bool} {records balanced pool : List ρ}

lemma Serves.snoc {spare : ℕ} {record : ρ} (h : Serves test records balanced spare)
    (hlast : min ((balanced.length + 1 + spare) / 2) (records.countP test) ≤ (balanced ++ [record]).countP test) :
    Serves test records (balanced ++ [record]) spare := by
  intro k hk
  rcases Nat.lt_or_ge balanced.length k with hlt | hle
  · have he : k = balanced.length + 1 := by simp at hk; omega
    subst he
    rw [List.take_of_length_le (by simp)]
    exact hlast
  · rw [List.take_append_of_le_length hle]
    exact h k hle

lemma countP_le_of_drawn (hn : records.Nodup)
    (h : ∀ record ∈ records, test record = true → record ∈ balanced) : records.countP test ≤ balanced.countP test := by
  rw [List.countP_eq_length_filter, List.countP_eq_length_filter]
  apply List.Subperm.length_le
  apply List.subperm_of_subset (hn.filter _)
  intro record hr
  obtain ⟨hm, ht⟩ := List.mem_filter.mp hr
  exact List.mem_filter.mpr ⟨h record hm ht, ht⟩

lemma Fair.snoc_own {slack : ℕ} {record : ρ} (h : Fair test records balanced slack) (ht : test record = true) :
    Fair test records (balanced ++ [record]) (slack + 1) := by
  rcases h with h | h
  · exact .inl fun other ho hother => List.mem_append_left _ (h other ho hother)
  · refine .inr ?_
    simp only [List.length_append, List.length_singleton, List.countP_append, List.countP_singleton, ht, if_true]
    omega

lemma Fair.snoc_other {slack : ℕ} (record : ρ) (h : Fair test records balanced (slack + 1)) :
    Fair test records (balanced ++ [record]) slack := by
  rcases h with h | h
  · exact .inl fun other ho hother => List.mem_append_left _ (h other ho hother)
  · refine .inr ?_
    simp only [List.length_append, List.length_singleton, List.countP_append]
    omega

lemma Fair.serves {slack spare : ℕ} (hn : records.Nodup) (h : Fair test records balanced slack)
    (hs : spare ≤ slack) : min ((balanced.length + spare) / 2) (records.countP test) ≤ balanced.countP test := by
  rcases h with h | h
  · exact (min_le_right _ _).trans (countP_le_of_drawn hn h)
  · apply (min_le_left _ _).trans
    omega

structure Supply (test : ρ → Bool) (records balanced pool : List ρ) (slack spare : ℕ) : Prop where
  rest : ∀ record ∈ records, test record = true → record ∈ balanced ∨ record ∈ pool
  own : ∀ record ∈ pool, record ∈ records ∧ test record = true
  fair : Fair test records balanced slack
  serves : Serves test records balanced spare

namespace Supply

variable {slack spare : ℕ} {record : ρ} {left : List ρ}

lemma start (test : ρ → Bool) (records : List ρ) (hs : spare ≤ 1) : Supply test records [] (records.filter test) 1 spare where
  rest record hr ht := .inr (List.mem_filter.mpr ⟨hr, ht⟩)
  own record hr := List.mem_filter.mp hr
  fair := .inr (by simp)
  serves k hk := by
    obtain rfl : k = 0 := by simpa using hk
    apply (min_le_left _ _).trans
    simp only [List.take_zero, List.countP_nil]
    omega

lemma draw (h : Supply test records balanced pool slack spare) (hn : records.Nodup) (hs : spare ≤ slack + 1)
    (hr : record ∈ pool) (hleft : left ⊆ pool)
    (hrest : ∀ other ∈ pool, other ∈ balanced ++ [record] ∨ other ∈ left) :
    Supply test records (balanced ++ [record]) left (slack + 1) spare where
  rest other ho ht := by
    rcases h.rest other ho ht with hb | hp
    · exact .inl (List.mem_append_left _ hb)
    · exact hrest other hp
  own other ho := h.own other (hleft ho)
  fair := h.fair.snoc_own (h.own record hr).2
  serves := by
    apply h.serves.snoc
    have hf := (h.fair.snoc_own (h.own record hr).2).serves hn hs
    rwa [List.length_append, List.length_singleton] at hf

lemma pass (record : ρ) (h : Supply test records balanced pool (slack + 1) spare) (hn : records.Nodup)
    (hs : spare ≤ slack) : Supply test records (balanced ++ [record]) pool slack spare where
  rest other ho ht := (h.rest other ho ht).imp_left (List.mem_append_left _)
  own := h.own
  fair := h.fair.snoc_other record
  serves := by
    apply h.serves.snoc
    have hf := (h.fair.snoc_other record).serves hn hs
    rwa [List.length_append, List.length_singleton] at hf

lemma drained (h : Supply test records balanced pool slack spare) (hp : ∀ record ∈ pool, record ∈ balanced) :
    ∀ record ∈ records, test record = true → record ∈ balanced :=
  fun record hr ht => (h.rest record hr ht).elim id (hp record)

lemma exhaust (h : Supply test records balanced pool slack spare) (hp : ∀ record ∈ pool, record ∈ balanced)
    (slack' : ℕ) : Supply test records balanced [] slack' spare where
  rest record hr ht := .inl (h.drained hp record hr ht)
  own := by simp
  fair := .inl (h.drained hp)
  serves := h.serves

lemma weaken (h : Supply test records balanced pool (slack + 1) spare) : Supply test records balanced pool slack spare where
  rest := h.rest
  own := h.own
  fair := h.fair.imp_right fun hle => by omega
  serves := h.serves

end Supply

structure Balanced (families : ρ → IpFamilies) (records balanced ipv6 ipv4 : List ρ) : Prop where
  nodup : balanced.Nodup
  drawn : ∀ record ∈ balanced, record ∈ records ∧ ((families record).hasIpv6 = true ∨ (families record).hasIpv4 = true)
  over6 : Supply (fun record => (families record).hasIpv6) records balanced ipv6 1 1
  over4 : Supply (fun record => (families record).hasIpv4) records balanced ipv4 1 0

namespace Balanced

variable {families : ρ → IpFamilies} {ipv6 ipv4 : List ρ}

lemma snoc_drawn {record : ρ}
    (h : ∀ other ∈ balanced, other ∈ records ∧ ((families other).hasIpv6 = true ∨ (families other).hasIpv4 = true))
    (hr : record ∈ records ∧ ((families record).hasIpv6 = true ∨ (families record).hasIpv4 = true)) :
    ∀ other ∈ balanced ++ [record],
      other ∈ records ∧ ((families other).hasIpv6 = true ∨ (families other).hasIpv4 = true) := by
  intro other ho
  rcases List.mem_append.mp ho with ho | ho
  · exact h other ho
  · rwa [List.mem_singleton.mp ho]

lemma round [DecidableEq ρ] (hn : records.Nodup) (h : Balanced families records balanced ipv6 ipv4) :
    Balanced families records (takeNext (takeNext balanced ipv6).1 ipv4).1 (takeNext balanced ipv6).2
        (takeNext (takeNext balanced ipv6).1 ipv4).2 ∧
      (balanced.length < (takeNext (takeNext balanced ipv6).1 ipv4).1.length ∨
        (takeNext (takeNext balanced ipv6).1 ipv4).1 = balanced ∧
          (∀ record ∈ ipv6, record ∈ balanced) ∧ ∀ record ∈ ipv4, record ∈ balanced) := by
  rcases takeNext_cases balanced ipv6 with ⟨he6, hall6⟩ | ⟨record6, hr6, hnew6, he6, hleft6, hrest6⟩
  · rw [he6]
    rcases takeNext_cases balanced ipv4 with ⟨he4, hall4⟩ | ⟨record4, hr4, hnew4, he4, hleft4, hrest4⟩
    · rw [he4]
      exact ⟨⟨h.nodup, h.drawn, h.over6.exhaust hall6 1, h.over4.exhaust hall4 1⟩, .inr ⟨rfl, hall6, hall4⟩⟩
    · rw [he4]
      have hd := h.over4.own record4 hr4
      refine ⟨⟨by simpa using h.nodup.concat hnew4, snoc_drawn h.drawn ⟨hd.1, .inr hd.2⟩, ?_, ?_⟩, .inl (by simp)⟩
      · exact (h.over6.exhaust hall6 2).pass record4 hn le_rfl
      · exact (h.over4.draw hn (Nat.zero_le _) hr4 hleft4 hrest4).weaken
  · have hd6 := h.over6.own record6 hr6
    have hnodup : (balanced ++ [record6]).Nodup := by simpa using h.nodup.concat hnew6
    have hdrawn := snoc_drawn h.drawn ⟨hd6.1, .inl hd6.2⟩
    have hover6 := h.over6.draw hn (by omega) hr6 hleft6 hrest6
    have hover4 := h.over4.pass record6 hn le_rfl
    rw [he6]
    rcases takeNext_cases (balanced ++ [record6]) ipv4 with ⟨he4, hall4⟩ | ⟨record4, hr4, hnew4, he4, hleft4, hrest4⟩
    · rw [he4]
      exact ⟨⟨hnodup, hdrawn, hover6.weaken, hover4.exhaust hall4 1⟩, .inl (by simp)⟩
    · rw [he4]
      have hd4 := h.over4.own record4 hr4
      refine ⟨⟨by simpa using hnodup.concat hnew4, snoc_drawn hdrawn ⟨hd4.1, .inr hd4.2⟩, ?_, ?_⟩, .inl (by simp)⟩
      · exact hover6.pass record4 hn le_rfl
      · exact hover4.draw hn (Nat.zero_le _) hr4 hleft4 hrest4

lemma all_of_length (h : Balanced families records balanced ipv6 ipv4) (hle : records.length ≤ balanced.length) :
    ∀ record ∈ records, record ∈ balanced := by
  have hsub : balanced.Subperm records := List.subperm_of_subset h.nodup fun record hr => (h.drawn record hr).1
  have hperm := hsub.perm_of_length_le hle
  exact fun record hr => hperm.symm.subset hr

lemma interleave_spec [DecidableEq ρ] (hn : records.Nodup) (turns : ℕ) (hf : records.length ≤ turns + balanced.length)
    (h : Balanced families records balanced ipv6 ipv4) :
    ∃ left6 left4, Balanced families records (interleave records.length turns balanced ipv4 ipv6) left6 left4 ∧
      ∀ record ∈ records, (families record).hasIpv6 = true ∨ (families record).hasIpv4 = true →
        record ∈ interleave records.length turns balanced ipv4 ipv6 := by
  induction turns generalizing balanced ipv6 ipv4 with
  | zero => exact ⟨ipv6, ipv4, h, fun record hr _ => h.all_of_length (by omega) record hr⟩
  | succ turns ih =>
    by_cases hle : records.length ≤ balanced.length
    · rw [interleave, if_pos hle]
      exact ⟨ipv6, ipv4, h, fun record hr _ => h.all_of_length hle record hr⟩
    · obtain ⟨hnext, hmore | ⟨hsame, hall6, hall4⟩⟩ := h.round hn
      · rw [interleave, if_neg hle, if_neg (by omega)]
        exact ih (by omega) hnext
      · rw [interleave, if_neg hle, if_pos (by rw [hsame])]
        refine ⟨ipv6, ipv4, h, ?_⟩
        rintro record hr (h6 | h4)
        · exact h.over6.drained hall6 record hr h6
        · exact h.over4.drained hall4 record hr h4

end Balanced

structure BalancedOrder (parseable over6 over4 : ρ → Bool) (records result front : List ρ) : Prop where
  split : result = front ++ records.filter fun record => !parseable record
  reachable : ∀ record ∈ front, parseable record = true
  perm : result.Perm records
  serves6 : ∀ k ≤ front.length, min ((k + 1) / 2) (records.countP over6) ≤ (front.take k).countP over6
  serves4 : ∀ k ≤ front.length, min (k / 2) (records.countP over4) ≤ (front.take k).countP over4

def parsedAddresses (P : Primitives) (body : Option RecordBody) : List Addr :=
  (body.elim [] RecordBody.addresses).filterMap fun recordAddress => P.parseAddr recordAddress.ip

def parseable (P : Primitives) (body : Option RecordBody) : Bool := !(parsedAddresses P body).isEmpty

def listsIpv4 (P : Primitives) (body : Option RecordBody) : Bool := (parsedAddresses P body).any fun ip => ip.unmap.is4

def listsIpv6 (P : Primitives) (body : Option RecordBody) : Bool := (parsedAddresses P body).any fun ip => !ip.unmap.is4

lemma foldl_families (P : Primitives) (addresses : List RecordAddress) (families : IpFamilies) :
    addresses.foldl (IpFamilies.withAddress P) families =
      ⟨families.hasIpv4 ||
          (addresses.filterMap fun recordAddress => P.parseAddr recordAddress.ip).any fun ip => ip.unmap.is4,
        families.hasIpv6 ||
          (addresses.filterMap fun recordAddress => P.parseAddr recordAddress.ip).any fun ip => !ip.unmap.is4⟩ := by
  induction addresses generalizing families with
  | nil => simp
  | cons recordAddress addresses ih =>
    rw [List.foldl_cons, ih]
    cases hp : P.parseAddr recordAddress.ip with
    | none => simp [IpFamilies.withAddress, hp]
    | some ip => cases h4 : ip.unmap.is4 <;> simp [IpFamilies.withAddress, hp, h4]

lemma recordIpFamilies_eq (P : Primitives) (body : Option RecordBody) :
    recordIpFamilies P body = ⟨listsIpv4 P body, listsIpv6 P body⟩ := by
  cases body with
  | none => rfl
  | some body =>
    rw [recordIpFamilies, foldl_families]
    simp [listsIpv4, listsIpv6, parsedAddresses]

lemma parseable_eq (P : Primitives) (body : Option RecordBody) :
    parseable P body = (listsIpv6 P body || listsIpv4 P body) := by
  rw [parseable, listsIpv6, listsIpv4]
  cases parsedAddresses P body with
  | nil => rfl
  | cons ip ips => cases h4 : ip.unmap.is4 <;> simp [h4]

section Result

variable (P : Primitives) (bodies : ρ → Option RecordBody)

lemma filter_unreachable (records : List ρ) :
    (records.filter fun record =>
        !(recordIpFamilies P (bodies record)).hasIpv4 && !(recordIpFamilies P (bodies record)).hasIpv6) =
      records.filter fun record => !parseable P (bodies record) := by
  apply List.filter_congr
  intro record _
  rw [recordIpFamilies_eq, parseable_eq, Bool.not_or, Bool.and_comm]

lemma single_balanced (record : ρ) :
    ∃ front, BalancedOrder (fun record => parseable P (bodies record)) (fun record => listsIpv6 P (bodies record))
      (fun record => listsIpv4 P (bodies record)) [record] [record] front := by
  cases hp : parseable P (bodies record) with
  | false =>
    refine ⟨[], by simp [hp], by simp, .rfl, ?_, ?_⟩
    all_goals
      intro k hk
      obtain rfl : k = 0 := by simpa using hk
      simp
  | true =>
    refine ⟨[record], by simp [hp], by simpa using hp, .rfl, ?_, ?_⟩
    all_goals
      intro k hk
      have hk1 : k = 0 ∨ k = 1 := by simp at hk; omega
      rcases hk1 with rfl | rfl <;> simp

lemma balanced_start (families : ρ → IpFamilies) (records : List ρ) :
    Balanced families records [] (records.filter fun record => (families record).hasIpv6)
      (records.filter fun record => (families record).hasIpv4) where
  nodup := List.nodup_nil
  drawn := by simp
  over6 := Supply.start _ records le_rfl
  over4 := Supply.start _ records (Nat.zero_le _)

lemma perm_of_drawn {records front : List ρ} {test : ρ → Bool} (hn : records.Nodup) (hf : front.Nodup)
    (hdrawn : ∀ record ∈ front, record ∈ records ∧ test record = true)
    (hall : ∀ record ∈ records, test record = true → record ∈ front) :
    (front ++ records.filter fun record => !test record).Perm records := by
  have hfront : front.Perm (records.filter test) := by
    apply (List.perm_ext_iff_of_nodup hf (hn.filter _)).mpr
    intro record
    rw [List.mem_filter]
    exact ⟨hdrawn record, fun h => hall record h.1 h.2⟩
  exact (hfront.append_right _).trans (List.filter_append_perm test records)

/-- A sample is a permutation of the records with the ones nobody can dial last, and each of its prefixes has its half
of either family as long as records of the family are left. -/
theorem samples_balance_families [DecidableEq ρ] (records : List ρ) (hn : records.Nodup) :
    ∃ front, BalancedOrder (fun record => parseable P (bodies record)) (fun record => listsIpv6 P (bodies record))
      (fun record => listsIpv4 P (bodies record)) records (balanceRecordsByIpFamily P bodies records) front := by
  by_cases hle : records.length ≤ 1
  · rw [balanceRecordsByIpFamily, if_pos hle]
    rcases records with _ | ⟨record, _ | ⟨other, rest⟩⟩
    · exact ⟨[], by simp, by simp, .rfl, by simp, by simp⟩
    · exact single_balanced P bodies record
    · simp at hle
  · rw [balanceRecordsByIpFamily, if_neg hle]
    dsimp only
    rw [filter_unreachable]
    have hstart := balanced_start (fun record => recordIpFamilies P (bodies record)) records
    obtain ⟨left6, left4, h, hall⟩ := hstart.interleave_spec hn records.length (by simp)
    simp only [recordIpFamilies_eq] at h hall ⊢
    have htest : ∀ record, parseable P (bodies record) = true ↔
        listsIpv6 P (bodies record) = true ∨ listsIpv4 P (bodies record) = true := by
      intro record
      rw [parseable_eq, Bool.or_eq_true]
    simp only [← htest] at hall
    refine ⟨_, rfl, fun record hr => ?_, ?_, h.over6.serves, h.over4.serves⟩
    · exact (htest record).mpr (h.drawn record hr).2
    · apply perm_of_drawn hn h.nodup _ hall
      exact fun record hr => ⟨(h.drawn record hr).1, (htest record).mpr (h.drawn record hr).2⟩

end Result

def sampleBodies : ℕ → Option RecordBody
  | 0 => sampleRecordBody [1, 2, 9, 97]
  | _ => none

theorem samples_balance_families_of_two : [0, 1].Nodup ∧
    ∃ front, BalancedOrder (fun record => parseable .sample (sampleBodies record))
      (fun record => listsIpv6 .sample (sampleBodies record)) (fun record => listsIpv4 .sample (sampleBodies record))
      [0, 1] (balanceRecordsByIpFamily .sample sampleBodies [0, 1]) front :=
  ⟨by decide, samples_balance_families .sample sampleBodies [0, 1] (by decide)⟩

end FamilyBalance

end UrConnect.Extender
