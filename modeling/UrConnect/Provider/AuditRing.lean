import Mathlib
import UrConnect.Lib.RecentRing

/-! The ring of audited commands, and the pages that a reader of its history gets. -/

namespace UrConnect.Provider

open UrConnect.Lib

structure CommandAudit where
  timestamp : ℤ
  cmd : String
  key : String
  value : String
  source : String
  ok : Bool
  error : String
deriving DecidableEq

structure TimeLayout where
  format : ℤ → String
  parse : String → Option ℤ

def TimeLayout.Keeps (layout : TimeLayout) (t : ℤ) : Prop := layout.format t ≠ "" ∧ layout.parse (layout.format t) = some t

instance (layout : TimeLayout) (t : ℤ) : Decidable (layout.Keeps t) := inferInstanceAs (Decidable (_ ∧ _))

def auditCapacity : ℕ := 1000

structure AuditRing where
  entries : List CommandAudit
  head : ℕ
  size : ℕ

namespace AuditRing

def zeroAudit : CommandAudit := ⟨0, "", "", "", "", false, ""⟩

def new : AuditRing := ⟨List.replicate auditCapacity zeroAudit, 0, 0⟩

variable (r : AuditRing)

def append (entry : CommandAudit) : AuditRing where
  entries := r.entries.set r.head entry
  head := (r.head + 1) % r.entries.length
  size := if r.size < r.entries.length then r.size + 1 else r.size

def ordered : List CommandAudit :=
  if r.size < r.entries.length then r.entries.take r.size else r.entries.drop r.head ++ r.entries.take r.head

def afterCursor (layout : TimeLayout) (cursor : String) (ordered : List CommandAudit) : List CommandAudit :=
  if cursor = "" then ordered
  else
    match layout.parse cursor with
    | none => ordered
    | some cursorTime => ordered.dropWhile fun e => e.timestamp ≤ cursorTime

def page (layout : TimeLayout) (limit : ℤ) (ordered : List CommandAudit) : List CommandAudit × String :=
  let limit := if (ordered.length : ℤ) < limit then ordered.length else limit.toNat
  let result := ordered.reverse.take limit
  (result, if limit < ordered.length then (result[limit - 1]?).elim "" fun e => layout.format e.timestamp else "")

def entriesFrom (layout : TimeLayout) (limit : ℤ) (cursor : String) : List CommandAudit × String :=
  let limit := if limit ≤ 0 then 50 else limit
  if r.size = 0 then ([], "") else page layout limit (afterCursor layout cursor r.ordered)

def pages (layout : TimeLayout) (limit : ℤ) : ℕ → String → Option (List CommandAudit)
  | 0, _ => none
  | fuel + 1, cursor =>
    let answer := r.entriesFrom layout limit cursor
    if answer.2 = "" then some answer.1 else (pages layout limit fuel answer.2).map (answer.1 ++ ·)

def retained (history : List CommandAudit) : List CommandAudit := history.reverse.take auditCapacity

def ofHistory (history : List CommandAudit) : AuditRing := history.foldl append new

structure Holds (r : AuditRing) (history : List CommandAudit) : Prop where
  length : r.entries.length = auditCapacity
  head : r.head = history.length % auditCapacity
  size : r.size = min history.length auditCapacity
  layout : r.entries.rotate r.head = (List.replicate auditCapacity zeroAudit ++ history).drop history.length

variable {r} {history : List CommandAudit} {layout : TimeLayout} {limit : ℤ}

lemma holds_new : Holds new [] := by
  refine ⟨List.length_replicate, rfl, rfl, ?_⟩
  rw [new, List.rotate_zero, List.append_nil, List.length_nil, List.drop_zero]

lemma Holds.append (h : r.Holds history) (entry : CommandAudit) : (r.append entry).Holds (history ++ [entry]) := by
  have hpos : 0 < auditCapacity := by decide
  have hhead : r.head < r.entries.length := by
    rw [h.head, h.length]
    exact Nat.mod_lt _ hpos
  have hlength : (history ++ [entry]).length = history.length + 1 := List.length_append
  refine ⟨?_, ?_, ?_, ?_⟩
  · exact List.length_set.trans h.length
  · change (r.head + 1) % r.entries.length = _
    rw [h.length, h.head, hlength, Nat.mod_add_mod]
  · change (if r.size < r.entries.length then r.size + 1 else r.size) = _
    rw [h.length, h.size, hlength]
    split <;> omega
  · -- one more rotation of the ring with the new entry drops its oldest cell
    change (r.entries.set r.head entry).rotate ((r.head + 1) % r.entries.length) = _
    have hset : (r.entries.set r.head entry).length = r.entries.length := List.length_set
    have hlast : (List.replicate auditCapacity zeroAudit ++ history ++ [entry]).drop (history.length + 1) =
        (List.replicate auditCapacity zeroAudit ++ history).drop (history.length + 1) ++ [entry] := by
      apply List.drop_append_of_le_length
      rw [List.length_append, List.length_replicate]
      omega
    rw [← hset, List.rotate_mod, RecentRing.set_rotate_succ hhead, h.layout, hlength, ← List.append_assoc, hlast,
      List.tail_drop]

lemma holds_ofHistory (history : List CommandAudit) : (ofHistory history).Holds history := by
  induction history using List.reverseRecOn with
  | nil => exact holds_new
  | append_singleton history entry ih =>
    rw [ofHistory, List.foldl_append]
    exact ih.append entry

lemma Holds.ordered (h : r.Holds history) : r.ordered = (retained history).reverse := by
  have hhead : r.head ≤ r.entries.length := by
    rw [h.head, h.length]
    exact (Nat.mod_lt _ (by decide)).le
  have hlayout := h.layout
  rw [List.rotate_eq_drop_append_take hhead] at hlayout
  rw [AuditRing.ordered, retained, List.reverse_take, List.reverse_reverse, List.length_reverse]
  split
  · next hroom =>
    rw [h.length] at hroom
    have hsize := h.size
    have hshort : r.size = history.length := by omega
    have hfirst : r.head = history.length := by
      rw [h.head]
      exact Nat.mod_eq_of_lt (by omega)
    rw [hfirst, List.drop_append_of_le_length (by rw [List.length_replicate]; omega)] at hlayout
    rw [hshort, show history.length - auditCapacity = 0 by omega, List.drop_zero]
    apply (List.append_inj hlayout _).2
    rw [List.length_drop, List.length_drop, List.length_replicate, h.length]
  · next hfull =>
    rw [h.length] at hfull
    have hsize := h.size
    rw [hlayout, List.drop_append, List.drop_eq_nil_of_le (by rw [List.length_replicate]; omega),
      List.nil_append, List.length_replicate]

lemma Holds.size_eq_zero (h : r.Holds history) : r.size = 0 ↔ history = [] := by
  rw [h.size, ← List.length_eq_zero_iff]
  have hpos : 0 < auditCapacity := by decide
  omega

lemma Holds.entriesFrom (h : r.Holds history) (hlimit : 1 ≤ limit) (cursor : String) :
    r.entriesFrom layout limit cursor = page layout limit (afterCursor layout cursor (retained history).reverse) := by
  rw [AuditRing.entriesFrom, if_neg (show ¬ limit ≤ 0 by omega), h.ordered]
  split
  · next hzero =>
    rw [h.size_eq_zero.mp hzero]
    have hnone : afterCursor layout cursor [] = [] := by
      rw [afterCursor]
      split
      · rfl
      · split <;> rfl
    change _ = page layout limit (afterCursor layout cursor [])
    rw [hnone, page]
    simp
  · rfl

lemma page_whole {all : List CommandAudit} (hall : (all.length : ℤ) ≤ limit) :
    page layout limit all.reverse = (all, "") := by
  rw [page]
  simp only [List.length_reverse, List.reverse_reverse]
  have hcount : (if (all.length : ℤ) < limit then all.length else limit.toNat) = all.length := by
    split <;> omega
  rw [hcount, List.take_length, if_neg (Nat.lt_irrefl _)]

lemma page_cut (layout : TimeLayout) {all : List CommandAudit} (hlimit : 1 ≤ limit) (hmore : limit < all.length) :
    ∃ oldest, all[limit.toNat - 1]? = some oldest ∧
      page layout limit all.reverse = (all.take limit.toNat, layout.format oldest.timestamp) := by
  have hlast : limit.toNat - 1 < all.length := by omega
  refine ⟨all[limit.toNat - 1], List.getElem?_eq_getElem hlast, ?_⟩
  rw [page]
  simp only [List.length_reverse, List.reverse_reverse]
  rw [if_neg (by omega), if_pos (by omega), List.getElem?_take, if_pos (by omega), List.getElem?_eq_getElem hlast]
  rfl

lemma afterCursor_oldest {all : List CommandAudit} {n : ℕ} {oldest : CommandAudit}
    (hsorted : all.Pairwise fun a b => b.timestamp < a.timestamp) (holdest : all[n]? = some oldest)
    (hkeeps : layout.Keeps oldest.timestamp) :
    afterCursor layout (layout.format oldest.timestamp) all.reverse = (all.take n).reverse := by
  obtain ⟨hn, rfl⟩ := List.getElem?_eq_some_iff.mp holdest
  obtain ⟨hnewer, hrest, hacross⟩ := List.pairwise_append.mp ((List.take_append_drop n all).symm ▸ hsorted)
  rw [List.drop_eq_getElem_cons hn] at hrest hacross
  rw [afterCursor, if_neg hkeeps.1, hkeeps.2]
  dsimp only
  have hsplit : all.reverse = (all.drop n).reverse ++ (all.take n).reverse := by
    rw [← List.reverse_append, List.take_append_drop]
  rw [hsplit, List.dropWhile_append_of_pos]
  · apply List.dropWhile_eq_self_iff.mpr
    intro hpos
    rw [decide_eq_true_iff, not_le]
    exact hacross _ (List.mem_reverse.mp (List.getElem_mem hpos)) _ List.mem_cons_self
  · intro e he
    rw [List.mem_reverse, List.drop_eq_getElem_cons hn] at he
    rw [decide_eq_true_iff]
    obtain rfl | he := List.mem_cons.mp he
    · exact le_rfl
    · exact ((List.pairwise_cons.mp hrest).1 e he).le

lemma retained_sorted (hincreasing : history.Pairwise fun a b => a.timestamp < b.timestamp) :
    (retained history).Pairwise fun a b => b.timestamp < a.timestamp :=
  (List.pairwise_reverse.mpr hincreasing).sublist (List.take_sublist _ _)

lemma Holds.pages (h : r.Holds history) (hlimit : 1 ≤ limit)
    (hincreasing : history.Pairwise fun a b => a.timestamp < b.timestamp)
    (hkeeps : ∀ e ∈ history, layout.Keeps e.timestamp) (fuel : ℕ) :
    r.pages layout limit (fuel + 2) "" = some (if ((retained history).length : ℤ) ≤ limit then retained history
      else (retained history).take limit.toNat ++ (retained history).take (limit.toNat - 1)) := by
  rw [AuditRing.pages, h.entriesFrom hlimit, afterCursor, if_pos rfl]
  by_cases hwhole : ((retained history).length : ℤ) ≤ limit
  · rw [page_whole hwhole, if_pos hwhole, if_pos rfl]
  · obtain ⟨oldest, holdest, hpage⟩ := page_cut layout hlimit (Int.not_le.mp hwhole)
    have hmem : oldest ∈ history :=
      List.mem_reverse.mp (List.mem_of_mem_take (List.mem_of_getElem? holdest))
    have hcursor := afterCursor_oldest (retained_sorted hincreasing) holdest (hkeeps oldest hmem)
    have hfew : (((retained history).take (limit.toNat - 1)).length : ℤ) ≤ limit := by
      rw [List.length_take]
      omega
    rw [hpage, if_neg hwhole, if_neg (hkeeps oldest hmem).1, AuditRing.pages, h.entriesFrom hlimit, hcursor,
      page_whole hfew, if_pos rfl, Option.map_some]

/-- Reading on with the cursors ends, and it has shown each retained entry once, the newest first, exactly when all
of them fit on one page. -/
theorem paging_visits_once (layout : TimeLayout) (history : List CommandAudit) (limit : ℤ) (hlimit : 1 ≤ limit)
    (hincreasing : history.Pairwise fun a b => a.timestamp < b.timestamp)
    (hkeeps : ∀ e ∈ history, layout.Keeps e.timestamp) :
    ∃ visited, (∀ fuel, 2 ≤ fuel → (ofHistory history).pages layout limit fuel "" = some visited) ∧
      (visited = retained history ↔ ((retained history).length : ℤ) ≤ limit) := by
  have hpages := (holds_ofHistory history).pages hlimit hincreasing hkeeps
  refine ⟨if ((retained history).length : ℤ) ≤ limit then retained history
    else (retained history).take limit.toNat ++ (retained history).take (limit.toNat - 1), ?_, ?_⟩
  · intro fuel hfuel
    obtain ⟨more, rfl⟩ := Nat.exists_eq_add_of_le' hfuel
    exact hpages more
  · split_ifs with hwhole
    · exact iff_of_true rfl hwhole
    · apply iff_of_false _ hwhole
      intro hsame
      -- the entries past the limit are missing from the first page, which the second repeats
      have hlength := congrArg List.length hsame
      rw [List.length_append, List.length_take, List.length_take] at hlength
      have hnodup : (retained history).Nodup := (retained_sorted hincreasing).imp fun hlt heq => by
        rw [heq] at hlt
        exact lt_irrefl _ hlt
      rw [← hsame] at hnodup
      have hdisjoint := (List.nodup_append.mp hnodup).2.2
      cases hall : retained history with
      | nil =>
        rw [hall, List.length_nil] at hwhole
        omega
      | cons newest rest =>
        rw [hall, List.length_cons] at hlength hwhole
        have hfirst : newest ∈ (retained history).take limit.toNat := by
          rw [hall, show limit.toNat = (limit.toNat - 1) + 1 by omega, List.take_succ_cons]
          exact List.mem_cons_self
        have hsecond : newest ∈ (retained history).take (limit.toNat - 1) := by
          rw [hall, show limit.toNat - 1 = (limit.toNat - 2) + 1 by omega, List.take_succ_cons]
          exact List.mem_cons_self
        exact hdisjoint newest hfirst newest hsecond rfl

def sampleLayout : TimeLayout where
  format t := if t = 1000000000 then "1" else if t = 2000000000 then "2" else "3"
  parse text := if text = "1" then some 1000000000 else if text = "2" then some 2000000000 else some 3000000000

def sampleAudit (seconds : ℤ) : CommandAudit := ⟨seconds * 1000000000, "set", "k", "v", "cli", true, ""⟩

theorem paging_visits_once_of_two_entries :
    ∃ visited, (∀ fuel, 2 ≤ fuel →
      (ofHistory [sampleAudit 1, sampleAudit 2]).pages sampleLayout 2 fuel "" = some visited) ∧
        visited = [sampleAudit 2, sampleAudit 1] := by
  obtain ⟨visited, hpages, hvisited⟩ := paging_visits_once sampleLayout [sampleAudit 1, sampleAudit 2] 2 (by decide)
    (by decide) (by decide +kernel)
  exact ⟨visited, hpages, hvisited.mpr (by decide)⟩

theorem paging_misses_older_entries :
    (ofHistory [sampleAudit 1, sampleAudit 2, sampleAudit 3]).pages sampleLayout 1 2 "" = some [sampleAudit 3] := by
  decide +kernel

end AuditRing

end UrConnect.Provider
