import Mathlib
import UrConnect.Lib.Runs

/-! The cell buffer of the terminal interface: views, drawing, and wide runes that stay whole. -/

namespace UrConnect.Tui

open Lib.Runs

inductive ColorKind
  | default
  | color16
  | color256
  | rgb
  deriving DecidableEq, Inhabited

structure Color where
  kind : ColorKind
  value : ℕ
  deriving DecidableEq, Inhabited

structure Style where
  fg : Color
  bg : Color
  attrs : ℕ
  deriving DecidableEq, Inhabited

structure Cell where
  rune : ℤ
  comb : List ℤ
  style : Style
  deriving DecidableEq

def zeroWidth : List (ℤ × ℤ) :=
  [(0x0300, 0x036F), (0x0483, 0x0489), (0x0591, 0x05BD), (0x05BF, 0x05BF),
    (0x05C1, 0x05C2), (0x05C4, 0x05C5), (0x05C7, 0x05C7), (0x0610, 0x061A),
    (0x064B, 0x065F), (0x0670, 0x0670), (0x06D6, 0x06DC), (0x06DF, 0x06E4),
    (0x0E31, 0x0E31), (0x0E34, 0x0E3A), (0x0E47, 0x0E4E), (0x1AB0, 0x1AFF),
    (0x1DC0, 0x1DFF), (0x200B, 0x200F), (0x2028, 0x202E), (0x2060, 0x2064),
    (0x20D0, 0x20FF), (0xFE00, 0xFE0F), (0xFE20, 0xFE2F), (0xFEFF, 0xFEFF),
    (0xE0100, 0xE01EF)]

def wide : List (ℤ × ℤ) :=
  [(0x1100, 0x115F), (0x231A, 0x231B), (0x2329, 0x232A), (0x23E9, 0x23EC),
    (0x23F0, 0x23F0), (0x23F3, 0x23F3), (0x25FD, 0x25FE), (0x2614, 0x2615),
    (0x2648, 0x2653), (0x267F, 0x267F), (0x2693, 0x2693), (0x26A1, 0x26A1),
    (0x26AA, 0x26AB), (0x26BD, 0x26BE), (0x26C4, 0x26C5), (0x26CE, 0x26CE),
    (0x26D4, 0x26D4), (0x26EA, 0x26EA), (0x26F2, 0x26F3), (0x26F5, 0x26F5),
    (0x26FA, 0x26FA), (0x26FD, 0x26FD), (0x2705, 0x2705), (0x270A, 0x270B),
    (0x2728, 0x2728), (0x274C, 0x274C), (0x274E, 0x274E), (0x2753, 0x2755),
    (0x2757, 0x2757), (0x2795, 0x2797), (0x27B0, 0x27B0), (0x27BF, 0x27BF),
    (0x2B1B, 0x2B1C), (0x2B50, 0x2B50), (0x2B55, 0x2B55), (0x2E80, 0x303E),
    (0x3041, 0x33FF), (0x3400, 0x4DBF), (0x4E00, 0x9FFF), (0xA000, 0xA4CF),
    (0xA960, 0xA97F), (0xAC00, 0xD7A3), (0xF900, 0xFAFF), (0xFE10, 0xFE19),
    (0xFE30, 0xFE6F), (0xFF00, 0xFF60), (0xFFE0, 0xFFE6), (0x1F300, 0x1F64F),
    (0x1F680, 0x1F6FF), (0x1F900, 0x1F9FF), (0x1FA70, 0x1FAFF),
    (0x20000, 0x2FFFD), (0x30000, 0x3FFFD)]

def inRanges (r : ℤ) : List (ℤ × ℤ) → Bool
  | [] => false
  | x :: ranges => if r < x.1 then false else if r ≤ x.2 then true else inRanges r ranges

def isControl (r : ℤ) : Bool := decide (r < 0x20 ∨ (0x7F ≤ r ∧ r < 0xA0))

def runeWidth (r : ℤ) : ℕ :=
  if r < 0x7F ∧ 0x20 ≤ r then 1
  else if isControl r then 0
  else if inRanges r zeroWidth then 0
  else if inRanges r wide then 2
  else 1

namespace Cell

def Continuation (c : Cell) : Prop := c.rune = 0

def Wide (c : Cell) : Prop := runeWidth c.rune = 2

instance (c : Cell) : Decidable c.Continuation := inferInstanceAs (Decidable (c.rune = 0))

instance (c : Cell) : Decidable c.Wide := inferInstanceAs (Decidable (runeWidth c.rune = 2))

lemma Continuation.not_wide {c : Cell} (h : c.Continuation) : ¬ c.Wide := by
  rw [Wide, show c.rune = 0 from h]
  decide

end Cell

def blankCell (st : Style) : Cell := ⟨0x20, [], st⟩

@[simp] lemma blankCell_not_continuation (st : Style) : ¬ (blankCell st).Continuation := by
  simp [Cell.Continuation, blankCell]

@[simp] lemma blankCell_not_wide (st : Style) : ¬ (blankCell st).Wide := by
  have h : runeWidth 0x20 = 1 := by decide
  simp [Cell.Wide, blankCell, h]

section Blanked

variable {p : Prop} [Decidable p] {st : Style} {c : Cell}

lemma wide_ite_blank : (if p then blankCell st else c).Wide ↔ ¬ p ∧ c.Wide := by
  split <;> simp_all

lemma continuation_ite_blank : (if p then blankCell st else c).Continuation ↔ ¬ p ∧ c.Continuation := by
  split <;> simp_all

lemma wide_ite : (if p then c else blankCell st).Wide ↔ p ∧ c.Wide := by
  split <;> simp_all

lemma continuation_ite : (if p then c else blankCell st).Continuation ↔ p ∧ c.Continuation := by
  split <;> simp_all

end Blanked

section Grid

structure Grid (n m : ℕ) where
  cells : List Cell
  length_cells : cells.length = n * m

variable {n m : ℕ}

def Grid.cell (g : Grid n m) (x y : ℕ) : Cell := g.cells.getD (y * n + x) (blankCell default)

def Grid.store (g : Grid n m) (x y : ℕ) (c : Cell) : Grid n m :=
  ⟨g.cells.set (y * n + x) c, by rw [List.length_set, g.length_cells]⟩

def Grid.tabulate (n m : ℕ) (f : ℕ → ℕ → Cell) : Grid n m :=
  ⟨List.ofFn fun i : Fin (n * m) => f (i % n) (i / n), List.length_ofFn⟩

lemma index_lt {x y : ℕ} (hx : x < n) (hy : y < m) : y * n + x < n * m :=
  calc
    y * n + x < (y + 1) * n := by rw [Nat.add_mul]; omega
    _ ≤ m * n := Nat.mul_le_mul_right n hy
    _ = n * m := Nat.mul_comm m n

lemma index_mod {x : ℕ} (hx : x < n) (y : ℕ) : (y * n + x) % n = x := by
  rw [Nat.add_comm, Nat.add_mul_mod_self_right, Nat.mod_eq_of_lt hx]

lemma index_div {x : ℕ} (hx : x < n) (y : ℕ) : (y * n + x) / n = y := by
  rw [Nat.add_comm, Nat.add_mul_div_right _ _ (by omega), Nat.div_eq_of_lt hx, Nat.zero_add]

lemma index_inj {x y x' y' : ℕ} (hx : x < n) (hx' : x' < n) :
    y * n + x = y' * n + x' ↔ x = x' ∧ y = y' := by
  constructor
  · intro h
    have hmod := congrArg (· % n) h
    have hdiv := congrArg (· / n) h
    simp only [index_mod hx, index_mod hx', index_div hx, index_div hx'] at hmod hdiv
    exact ⟨hmod, hdiv⟩
  · rintro ⟨rfl, rfl⟩
    rfl

lemma Grid.cell_store (g : Grid n m) {x y x' y' : ℕ} (c : Cell) (hx : x < n) (hy : y < m) (hx' : x' < n) :
    (g.store x y c).cell x' y' = if x' = x ∧ y' = y then c else g.cell x' y' := by
  have hlen : y * n + x < g.cells.length := by
    rw [g.length_cells]
    exact index_lt hx hy
  rw [Grid.cell, Grid.store, Grid.cell, List.getD_eq_getElem?_getD, List.getElem?_set]
  by_cases h : x' = x ∧ y' = y
  · obtain ⟨rfl, rfl⟩ := h
    simp [hlen]
  · have hne : y * n + x ≠ y' * n + x' := fun he => h (by
      obtain ⟨hxx, hyy⟩ := (index_inj hx hx').mp he
      exact ⟨hxx.symm, hyy.symm⟩)
    rw [if_neg hne, if_neg h, List.getD_eq_getElem?_getD]

lemma Grid.cell_tabulate (f : ℕ → ℕ → Cell) {x y : ℕ} (hx : x < n) (hy : y < m) :
    (Grid.tabulate n m f).cell x y = f x y := by
  rw [Grid.cell, Grid.tabulate, List.getD_eq_getElem?_getD, List.getElem?_ofFn, dif_pos (index_lt hx hy)]
  simp only [Option.getD_some, index_mod hx, index_div hx]

def Grid.Whole (g : Grid n m) : Prop :=
  ∀ y < m, ∀ x < n,
    ((g.cell x y).Continuation → 0 < x ∧ (g.cell (x - 1) y).Wide) ∧
    ((g.cell x y).Wide → x + 1 < n ∧ (g.cell (x + 1) y).Continuation)

lemma Grid.whole_iff (g : Grid n m) : g.Whole ↔ ∀ y < m,
    (∀ x, x + 1 < n → ((g.cell x y).Wide ↔ (g.cell (x + 1) y).Continuation)) ∧
    (0 < n → ¬ (g.cell 0 y).Continuation) ∧ ∀ x, x + 1 = n → ¬ (g.cell x y).Wide := by
  refine forall₂_congr fun y _ => ⟨fun h => ⟨fun x hx => ⟨?_, ?_⟩, ?_, ?_⟩, ?_⟩
  · exact fun hw => ((h x (by omega)).2 hw).2
  · exact fun hc => ((h (x + 1) hx).1 hc).2
  · exact fun hn hc => Nat.lt_irrefl 0 ((h 0 hn).1 hc).1
  · exact fun x hx hw => Nat.ne_of_lt ((h x (by omega)).2 hw).1 hx
  · rintro ⟨hseam, hfirst, hlast⟩ x hx
    refine ⟨fun hc => ?_, fun hw => ?_⟩
    · obtain _ | x := x
      · exact absurd hc (hfirst hx)
      · exact ⟨Nat.succ_pos x, (hseam x hx).mpr hc⟩
    · have hne : x + 1 ≠ n := fun h => hlast x h hw
      have hlt : x + 1 < n := by omega
      exact ⟨hlt, (hseam x hlt).mp hw⟩

lemma Grid.whole_of_blank (g : Grid n m) (h : ∀ x < n, ∀ y < m, ∃ st, g.cell x y = blankCell st) : g.Whole := by
  intro y hy x hx
  obtain ⟨st, hst⟩ := h x hx y hy
  simp [hst]

def Grid.blank (g : Grid n m) (x y : ℕ) : Grid n m := g.store x y (blankCell (g.cell x y).style)

lemma Grid.cell_blank (g : Grid n m) {x y x' y' : ℕ} (hx : x < n) (hy : y < m) (hx' : x' < n) :
    (g.blank x y).cell x' y' = if x' = x ∧ y' = y then blankCell (g.cell x' y').style else g.cell x' y' := by
  rw [Grid.blank, Grid.cell_store _ _ hx hy hx']
  refine if_ctx_congr Iff.rfl ?_ fun _ => rfl
  rintro ⟨rfl, rfl⟩
  rfl

def Grid.releaseWide (g : Grid n m) (ax ay : ℕ) : Grid n m :=
  let c := g.cell ax ay
  let g := if c.Continuation ∧ 0 < ax then g.blank (ax - 1) ay else g
  if ax + 1 < n ∧ (g.cell (ax + 1) ay).Continuation ∧ c.Wide then g.blank (ax + 1) ay else g

def Grid.Released (g : Grid n m) (ax x y : ℕ) : Prop :=
  (x + 1 = ax ∧ (g.cell ax y).Continuation) ∨ (x = ax + 1 ∧ (g.cell x y).Continuation ∧ (g.cell ax y).Wide)

instance (g : Grid n m) (ax x y : ℕ) : Decidable (g.Released ax x y) :=
  inferInstanceAs (Decidable (_ ∨ _))

lemma Grid.cell_releaseWide (g : Grid n m) {ax ay x y : ℕ} (hax : ax < n) (hay : ay < m) (hx : x < n) :
    (g.releaseWide ax ay).cell x y =
      if y = ay ∧ g.Released ax x y then blankCell (g.cell x y).style else g.cell x y := by
  have hcw : (g.cell ax ay).Continuation → ¬ (g.cell ax ay).Wide := fun h => h.not_wide
  unfold Grid.releaseWide Grid.Released
  dsimp only
  by_cases hc : (g.cell ax ay).Continuation
  · -- A continuation is not a wide rune, so only the cell before it is blanked.
    rw [if_neg (by tauto)]
    split_ifs with h₁ h₂ h₂
    all_goals grind [Grid.cell_blank]
  · rw [if_neg (by tauto : ¬ ((g.cell ax ay).Continuation ∧ 0 < ax))]
    split_ifs with h₁ h₂ h₂
    all_goals grind [Grid.cell_blank]

end Grid

section View

structure Rect where
  x : ℤ
  y : ℤ
  w : ℤ
  h : ℤ
  deriving DecidableEq, Inhabited

def int64 (z : ℤ) : ℤ := z.bmod (2 ^ 64)

/-- The sums may overflow; the differences of a non-empty overlap with a view cannot. -/
def Rect.intersect (r o : Rect) : Rect :=
  let x0 := max r.x o.x
  let y0 := max r.y o.y
  let x1 := min (int64 (r.x + r.w)) (int64 (o.x + o.w))
  let y1 := min (int64 (r.y + r.h)) (int64 (o.y + o.h))
  if x1 ≤ x0 ∨ y1 ≤ y0 then ⟨0, 0, 0, 0⟩ else ⟨x0, y0, x1 - x0, y1 - y0⟩

structure View (n m : ℕ) where
  ox : ℕ
  oy : ℕ
  w : ℕ
  h : ℕ
  ox_add_le : ox + w ≤ n
  oy_add_le : oy + h ≤ m

variable {n m : ℕ}

namespace View

def full (n m : ℕ) : View n m := ⟨0, 0, n, m, by omega, by omega⟩

def rect (v : View n m) : Rect := ⟨0, 0, v.w, v.h⟩

def inView (v : View n m) (x y : ℤ) : Prop := 0 ≤ x ∧ 0 ≤ y ∧ x < v.w ∧ y < v.h

instance (v : View n m) (x y : ℤ) : Decidable (v.inView x y) := inferInstanceAs (Decidable (_ ∧ _))

def col (v : View n m) (x : ℤ) : ℕ := v.ox + x.toNat

def row (v : View n m) (y : ℤ) : ℕ := v.oy + y.toNat

def Covers (v : View n m) (x y : ℕ) : Prop := v.ox ≤ x ∧ x < v.ox + v.w ∧ v.oy ≤ y ∧ y < v.oy + v.h

lemma int64_natCast_le (k : ℕ) : int64 k ≤ k := by
  rw [int64, Int.bmod_def]
  split <;> omega

lemma intersect_rect (v : View n m) (r : Rect) :
    0 ≤ (r.intersect v.rect).x ∧ 0 ≤ (r.intersect v.rect).y ∧
      (r.intersect v.rect).x + (r.intersect v.rect).w ≤ v.w ∧
      (r.intersect v.rect).y + (r.intersect v.rect).h ≤ v.h ∧
      0 ≤ (r.intersect v.rect).w ∧ 0 ≤ (r.intersect v.rect).h := by
  have hw := int64_natCast_le v.w
  have hh := int64_natCast_le v.h
  unfold Rect.intersect rect
  dsimp only
  rw [zero_add, zero_add]
  split_ifs with h
  · simp
  · push Not at h
    refine ⟨le_max_right _ _, le_max_right _ _, ?_, ?_, ?_, ?_⟩
    · rw [add_sub_cancel]
      exact (min_le_right _ _).trans hw
    · rw [add_sub_cancel]
      exact (min_le_right _ _).trans hh
    · exact (sub_pos.mpr h.1).le
    · exact (sub_pos.mpr h.2).le

def sub (v : View n m) (r : Rect) : View n m where
  ox := v.ox + (r.intersect v.rect).x.toNat
  oy := v.oy + (r.intersect v.rect).y.toNat
  w := (r.intersect v.rect).w.toNat
  h := (r.intersect v.rect).h.toNat
  ox_add_le := by
    have h := intersect_rect v r
    have hv := v.ox_add_le
    omega
  oy_add_le := by
    have h := intersect_rect v r
    have hv := v.oy_add_le
    omega

variable {v : View n m} {x y : ℤ}

lemma inView.covers (h : v.inView x y) : v.Covers (v.col x) (v.row y) := by
  unfold inView at h
  unfold Covers col row
  omega

lemma Covers.lt {x y : ℕ} (h : v.Covers x y) : x < n ∧ y < m := by
  have hx := v.ox_add_le
  have hy := v.oy_add_le
  unfold Covers at h
  omega

lemma inView.col_add_one (h : v.inView x y) : v.col (x + 1) = v.col x + 1 := by
  unfold inView at h
  unfold col
  omega

end View

namespace Grid

def set (g : Grid n m) (v : View n m) (x y : ℤ) (c : Cell) : Grid n m :=
  if v.inView x y then
    match runeWidth c.rune with
    | 0 => g
    | 2 =>
      if v.inView (x + 1) y then
        let g := (g.releaseWide (v.col x) (v.row y)).releaseWide (v.col (x + 1)) (v.row y)
        (g.store (v.col x) (v.row y) c).store (v.col (x + 1)) (v.row y) ⟨0, [], c.style⟩
      else (g.releaseWide (v.col x) (v.row y)).store (v.col x) (v.row y) (blankCell c.style)
    | _ => (g.releaseWide (v.col x) (v.row y)).store (v.col x) (v.row y) c
  else g

def attach (g : Grid n m) (v : View n m) (x y : ℤ) (r : ℤ) : Grid n m :=
  let c := g.cell (v.col x) (v.row y)
  g.store (v.col x) (v.row y) { c with comb := c.comb ++ [r] }

end Grid

structure Pen (n m : ℕ) where
  grid : Grid n m
  cx : ℤ
  last : ℤ

def Pen.draw (v : View n m) (y : ℤ) (st : Style) (p : Pen n m) (r : ℤ) : Pen n m :=
  if isControl r then p
  else
    match runeWidth r with
    | 0 => if 0 ≤ p.last then { p with grid := p.grid.attach v p.last y r } else p
    | 1 =>
      if v.inView p.cx y then ⟨p.grid.set v p.cx y ⟨r, [], st⟩, p.cx + 1, p.cx⟩
      else ⟨p.grid, p.cx + 1, -1⟩
    | _ =>
      if ¬ v.inView p.cx y ∧ ¬ v.inView (p.cx + 1) y then ⟨p.grid, p.cx + 2, -1⟩
      else if v.inView p.cx y ∧ v.inView (p.cx + 1) y then ⟨p.grid.set v p.cx y ⟨r, [], st⟩, p.cx + 2, p.cx⟩
      else ⟨p.grid.set v (max p.cx 0) y (blankCell st), p.cx + 2, -1⟩

namespace Grid

def put (g : Grid n m) (v : View n m) (text : List ℤ) (x y : ℤ) (st : Style) : Grid n m × ℤ :=
  let p := text.foldl (Pen.draw v y st) ⟨g, x, -1⟩
  (p.grid, p.cx)

def fill (g : Grid n m) (v : View n m) (r : Rect) (ch : ℤ) (st : Style) : Grid n m :=
  let ch := if runeWidth ch = 1 then ch else 0x20
  let r := r.intersect v.rect
  (List.range r.h.toNat).foldl (fun g j =>
    (List.range r.w.toNat).foldl (fun g i => g.set v (r.x + i) (r.y + j) ⟨ch, [], st⟩) g) g

end Grid

end View

section Drawing

variable {n m : ℕ} {v : View n m} {g g' : Grid n m}

inductive Draw (v : View n m) (g : Grid n m) : Grid n m → Prop
  | narrow {x y : ℕ} {c : Cell} (hv : v.Covers x y) (hc : ¬ c.Continuation) (hw : ¬ c.Wide) :
      Draw v g ((g.releaseWide x y).store x y c)
  | pair {x y : ℕ} {c d : Cell} (hv : v.Covers x y) (hv' : v.Covers (x + 1) y) (hw : c.Wide)
      (hd : d.Continuation) :
      Draw v g ((((g.releaseWide x y).releaseWide (x + 1) y).store x y c).store (x + 1) y d)
  | mark {x y : ℕ} {c : Cell} (hv : v.Covers x y) (hr : c.rune = (g.cell x y).rune) : Draw v g (g.store x y c)

def Frames (v : View n m) (g g' : Grid n m) : Prop :=
  ∀ x < n, ∀ y < m, ¬ v.Covers x y →
    g'.cell x y = g.cell x y ∨
      g'.cell x y = blankCell (g.cell x y).style ∧
        ((0 < x ∧ v.Covers (x - 1) y ∧ (g.cell x y).Continuation) ∨ (v.Covers (x + 1) y ∧ (g.cell x y).Wide))

lemma Grid.cell_narrow (g : Grid n m) {x y x' y' : ℕ} {c : Cell} (hx : x < n) (hy : y < m) (hx' : x' < n) :
    ((g.releaseWide x y).store x y c).cell x' y' =
      if x' = x ∧ y' = y then c
      else if y' = y ∧ g.Released x x' y' then blankCell (g.cell x' y').style
      else g.cell x' y' := by
  rw [Grid.cell_store _ _ hx hy hx', Grid.cell_releaseWide _ hx hy hx']

lemma Grid.cell_pair (g : Grid n m) {x y x' y' : ℕ} {c d : Cell} (hx : x + 1 < n) (hy : y < m) (hx' : x' < n) :
    ((((g.releaseWide x y).releaseWide (x + 1) y).store x y c).store (x + 1) y d).cell x' y' =
      if x' = x + 1 ∧ y' = y then d
      else if x' = x ∧ y' = y then c
      else if y' = y ∧ (x' + 1 = x ∧ (g.cell x y).Continuation ∨
        x' = x + 2 ∧ (g.cell x' y').Continuation ∧ (g.cell (x + 1) y).Wide) then blankCell (g.cell x' y').style
      else g.cell x' y' := by
  have hxn : x < n := by omega
  rw [Grid.cell_store _ _ hx hy hx', Grid.cell_store _ _ hxn hy hx', Grid.cell_releaseWide _ hx hy hx',
    Grid.cell_releaseWide _ hxn hy hx']
  have hsame := g.cell_releaseWide hxn hy hx' (y := y')
  have hnext := g.cell_releaseWide hxn hy hx (y := y')
  simp only [Grid.Released] at hsame hnext ⊢
  grind [blankCell_not_continuation, blankCell_not_wide, Cell.Continuation.not_wide]

lemma Draw.whole (h : Draw v g g') (hg : g.Whole) : g'.Whole := by
  rw [Grid.whole_iff] at hg ⊢
  intro y' hy'
  obtain ⟨hseam, hfirst, hlast⟩ := hg y' hy'
  cases h with
  | @narrow x y c hv hc hw =>
    obtain ⟨hx, hy⟩ := hv.lt
    refine ⟨fun x' hx' => ?_, fun hn => ?_, fun x' hx' => ?_⟩
    · have hs := hseam x' hx'
      have h₁ := hseam x
      rw [Grid.cell_narrow g hx hy (by omega), Grid.cell_narrow g hx hy hx']
      simp only [Grid.Released]
      grind [blankCell_not_continuation, blankCell_not_wide, Cell.Continuation.not_wide]
    · rw [Grid.cell_narrow g hx hy hn]
      grind [blankCell_not_continuation]
    · have hl := hlast x' hx'
      rw [Grid.cell_narrow g hx hy (by omega)]
      grind [blankCell_not_wide]
  | @pair x y c d hv hv' hw hd =>
    obtain ⟨hx, hy⟩ := hv'.lt
    refine ⟨fun x' hx' => ?_, fun hn => ?_, fun x' hx' => ?_⟩
    · have hs := hseam x' hx'
      have h₁ := hseam x hx
      have h₂ := hseam (x + 1)
      rw [Grid.cell_pair g hx hy (by omega), Grid.cell_pair g hx hy hx']
      grind [blankCell_not_continuation, blankCell_not_wide, Cell.Continuation.not_wide]
    · rw [Grid.cell_pair g hx hy hn]
      grind [blankCell_not_continuation, Cell.Continuation.not_wide]
    · have hl := hlast x' hx'
      rw [Grid.cell_pair g hx hy (by omega)]
      grind [blankCell_not_wide, Cell.Continuation.not_wide]
  | @mark x y c hv hr =>
    obtain ⟨hx, hy⟩ := hv.lt
    have hrune : ∀ x' < n, ((g.store x y c).cell x' y').rune = (g.cell x' y').rune := by
      intro x' hx'
      rw [Grid.cell_store _ _ hx hy hx']
      grind
    simp only [Cell.Wide, Cell.Continuation] at *
    refine ⟨fun x' hx' => ?_, fun hn => ?_, fun x' hx' => ?_⟩
    · rw [hrune x' (by omega), hrune _ hx']
      exact hseam x' hx'
    · rw [hrune 0 hn]
      exact hfirst hn
    · rw [hrune x' (by omega)]
      exact hlast x' hx'

lemma Frames.refl (v : View n m) (g : Grid n m) : Frames v g g := fun _ _ _ _ _ => Or.inl rfl

lemma Frames.trans {g'' : Grid n m} (h : Frames v g g') (h' : Frames v g' g'') : Frames v g g'' := by
  intro x hx y hy hv
  rcases h x hx y hy hv with he | ⟨he, hhalf⟩
  · rw [← he]
    exact h' x hx y hy hv
  · -- A cell that the first step blanked is no half any more.
    refine Or.inr ⟨?_, hhalf⟩
    rcases h' x hx y hy hv with he' | ⟨-, hhalf'⟩
    · rw [he', he]
    · rw [he] at hhalf'
      simp at hhalf'

lemma Draw.frames (h : Draw v g g') (hg : g.Whole) : Frames v g g' := by
  rw [Grid.whole_iff] at hg
  intro x' hx' y' hy' hout
  obtain ⟨hseam, -, -⟩ := hg y' hy'
  cases h with
  | @narrow x y c hv hc hw =>
    obtain ⟨hx, hy⟩ := hv.lt
    rw [Grid.cell_narrow g hx hy hx']
    split_ifs with h h'
    · obtain ⟨rfl, rfl⟩ := h
      exact absurd hv hout
    · obtain ⟨rfl, ⟨rfl, hcont⟩ | ⟨rfl, hcont, -⟩⟩ := h'
      · exact Or.inr ⟨rfl, Or.inr ⟨hv, (hseam x' hx).mpr hcont⟩⟩
      · exact Or.inr ⟨rfl, Or.inl ⟨Nat.succ_pos x, hv, hcont⟩⟩
    · exact Or.inl rfl
  | @pair x y c d hv hv' hw hd =>
    obtain ⟨hx, hy⟩ := hv'.lt
    rw [Grid.cell_pair g hx hy hx']
    split_ifs with h h' h''
    · obtain ⟨rfl, rfl⟩ := h
      exact absurd hv' hout
    · obtain ⟨rfl, rfl⟩ := h'
      exact absurd hv hout
    · obtain ⟨rfl, ⟨rfl, hcont⟩ | ⟨rfl, hcont, -⟩⟩ := h''
      · exact Or.inr ⟨rfl, Or.inr ⟨hv, (hseam x' (by omega)).mpr hcont⟩⟩
      · exact Or.inr ⟨rfl, Or.inl ⟨Nat.succ_pos _, hv', hcont⟩⟩
    · exact Or.inl rfl
  | @mark x y c hv hr =>
    obtain ⟨hx, hy⟩ := hv.lt
    rw [Grid.cell_store _ _ hx hy hx']
    split_ifs with h
    · obtain ⟨rfl, rfl⟩ := h
      exact absurd hv hout
    · exact Or.inl rfl

abbrev Draws (v : View n m) : Grid n m → Grid n m → Prop := Relation.ReflTransGen (Draw v)

lemma Draws.keeps (h : Draws v g g') (hg : g.Whole) : g'.Whole ∧ Frames v g g' := by
  induction h with
  | refl => exact ⟨hg, Frames.refl v g⟩
  | tail _ hlast ih => exact ⟨hlast.whole ih.1, ih.2.trans (hlast.frames ih.1)⟩

lemma draws_set (v : View n m) (g : Grid n m) (x y : ℤ) (c : Cell) : Draws v g (g.set v x y c) := by
  unfold Grid.set
  by_cases hv : v.inView x y
  · rw [if_pos hv]
    split
    · exact .refl
    · next hw =>
      by_cases hv' : v.inView (x + 1) y
      · have hc := hv'.covers
        rw [if_pos hv']
        rw [hv.col_add_one] at hc ⊢
        exact .single (.pair hv.covers hc hw rfl)
      · rw [if_neg hv']
        exact .single (.narrow hv.covers (blankCell_not_continuation _) (blankCell_not_wide _))
    · next h₀ h₂ =>
      refine .single (.narrow hv.covers (fun hc => h₀ ?_) h₂)
      rw [show c.rune = 0 from hc]
      decide
  · rw [if_neg hv]

lemma draws_attach (g : Grid n m) {x y : ℤ} (hv : v.inView x y) (r : ℤ) : Draws v g (g.attach v x y r) :=
  .single (.mark hv.covers rfl)

lemma Pen.draws (v : View n m) (y : ℤ) (st : Style) (text : List ℤ) (p : Pen n m)
    (hlast : 0 ≤ p.last → v.inView p.last y) : Draws v p.grid (text.foldl (Pen.draw v y st) p).grid := by
  induction text generalizing p with
  | nil => exact .refl
  | cons r text ih =>
    have hstep : Draws v p.grid (p.draw v y st r).grid ∧
        (0 ≤ (p.draw v y st r).last → v.inView (p.draw v y st r).last y) := by
      unfold Pen.draw
      by_cases hr : isControl r
      · rw [if_pos hr]
        exact ⟨.refl, hlast⟩
      · rw [if_neg hr]
        split
        · split
          · next h => exact ⟨draws_attach p.grid (hlast h) r, hlast⟩
          · exact ⟨.refl, hlast⟩
        · split
          · next h => exact ⟨draws_set .., fun _ => h⟩
          · exact ⟨.refl, fun h => absurd h (show ¬ (0 : ℤ) ≤ -1 by decide)⟩
        · split
          · exact ⟨.refl, fun h => absurd h (show ¬ (0 : ℤ) ≤ -1 by decide)⟩
          · split
            · next h => exact ⟨draws_set .., fun _ => h.1⟩
            · exact ⟨draws_set v p.grid (max p.cx 0) y (blankCell st), fun h => absurd h (show ¬ (0 : ℤ) ≤ -1 by decide)⟩
    exact hstep.1.trans (ih _ hstep.2)

lemma draws_put (v : View n m) (g : Grid n m) (text : List ℤ) (x y : ℤ) (st : Style) :
    Draws v g (g.put v text x y st).1 :=
  Pen.draws v y st text ⟨g, x, -1⟩ fun h => absurd h (show ¬ (0 : ℤ) ≤ -1 by decide)

lemma draws_foldl {α : Type} {f : Grid n m → α → Grid n m} (hf : ∀ g a, Draws v g (f g a)) (as : List α)
    (g : Grid n m) : Draws v g (as.foldl f g) := by
  induction as generalizing g with
  | nil => exact .refl
  | cons a as ih => exact (hf g a).trans (ih _)

lemma draws_fill (v : View n m) (g : Grid n m) (r : Rect) (ch : ℤ) (st : Style) : Draws v g (g.fill v r ch st) :=
  draws_foldl (fun g _ => draws_foldl (fun g _ => draws_set v g _ _ _) _ g) _ g

end Drawing

section Copies

variable {n m : ℕ}

def Grid.new (w h : ℕ) : Grid w h := .tabulate w h fun _ _ => blankCell default

def Grid.resize (g : Grid n m) (w h : ℕ) : Grid w h :=
  .tabulate w h fun x y =>
    let c := if x < min w n ∧ y < min h m then g.cell x y else blankCell default
    if y < min h m ∧ x + 1 = w ∧ w < n ∧ (g.cell w y).Continuation then blankCell c.style else c

def Grid.clone (g : Grid n m) (v : View n m) : Grid v.w v.h :=
  .tabulate v.w v.h fun x y =>
    let c := g.cell (v.ox + x) (v.oy + y)
    let c := if x = 0 ∧ c.Continuation then blankCell c.style else c
    if x + 1 = v.w ∧ v.ox + v.w < n ∧ (g.cell (v.ox + v.w) (v.oy + y)).Continuation then blankCell c.style else c

lemma Grid.whole_new (w h : ℕ) : (Grid.new w h).Whole :=
  Grid.whole_of_blank _ fun _ hx _ hy => ⟨default, Grid.cell_tabulate _ hx hy⟩

lemma Grid.Whole.resize {g : Grid n m} (hg : g.Whole) (w h : ℕ) : (g.resize w h).Whole := by
  rw [Grid.whole_iff] at hg ⊢
  intro y hy
  unfold Grid.resize
  refine ⟨fun x hx => ?_, fun hn => ?_, fun x hx => ?_⟩
  · rw [Grid.cell_tabulate _ (by omega) hy, Grid.cell_tabulate _ hx hy, wide_ite_blank, continuation_ite_blank,
      wide_ite, continuation_ite]
    have hrow := hg y
    have hnot : (g.cell (x + 1) y).Continuation → ¬ (g.cell (x + 1) y).Wide := fun h => h.not_wide
    grind
  · rw [Grid.cell_tabulate _ hn hy, continuation_ite_blank, continuation_ite]
    have hrow := hg y
    grind
  · rw [Grid.cell_tabulate _ (by omega) hy, wide_ite_blank, wide_ite]
    have hrow := hg y
    grind

lemma Grid.Whole.clone {g : Grid n m} (hg : g.Whole) (v : View n m) : (g.clone v).Whole := by
  have hox := v.ox_add_le
  have hoy := v.oy_add_le
  rw [Grid.whole_iff] at hg ⊢
  intro y hy
  obtain ⟨hseam, hfirst, hlast⟩ := hg (v.oy + y) (by omega)
  unfold Grid.clone
  refine ⟨fun x hx => ?_, fun hn => ?_, fun x hx => ?_⟩
  · rw [Grid.cell_tabulate _ (by omega) hy, Grid.cell_tabulate _ hx hy]
    simp only [wide_ite_blank, continuation_ite_blank]
    have hnext := hseam (v.ox + x) (by omega)
    have hcut : x + 1 + 1 = v.w → v.ox + v.w < n → (g.cell (v.ox + v.w) (v.oy + y)).Continuation →
        ¬ (g.cell (v.ox + (x + 1)) (v.oy + y)).Continuation := by
      intro hw hn hc hb
      rw [← hw] at hn hc
      exact hb.not_wide ((hseam (v.ox + (x + 1)) hn).mpr hc)
    constructor
    · rintro ⟨-, -, hwide⟩
      have hcont := hnext.mp hwide
      exact ⟨fun h => hcut h.1 h.2.1 h.2.2 hcont, fun h => by omega, hcont⟩
    · rintro ⟨-, -, hcont⟩
      have hwide := hnext.mpr hcont
      exact ⟨fun h => by omega, fun h => h.2.not_wide hwide, hwide⟩
  · rw [Grid.cell_tabulate _ hn hy]
    simp only [continuation_ite_blank]
    grind
  · rw [Grid.cell_tabulate _ (by omega) hy]
    simp only [wide_ite_blank]
    rintro ⟨hcut, -, hwide⟩
    by_cases hn : v.ox + x + 1 = n
    · exact hlast _ hn hwide
    · refine hcut ⟨hx, by omega, ?_⟩
      rw [← hx]
      exact (hseam (v.ox + x) (by omega)).mp hwide

end Copies

section World

structure Root where
  width : ℕ
  height : ℕ
  grid : Grid width height

inductive Write
  | set (x y : ℤ) (c : Cell)
  | put (text : List ℤ) (x y : ℤ) (st : Style)
  | fill (r : Rect) (ch : ℤ) (st : Style)

inductive Op
  | write (w : Write)
  | resize (w h : ℤ)
  | clone

structure Event where
  buffer : ℕ
  subs : List Rect
  op : Op

namespace Root

def new (w h : ℤ) : Root := ⟨w.toNat, h.toNat, Grid.new _ _⟩

def view (b : Root) (subs : List Rect) : View b.width b.height := subs.foldl View.sub (View.full _ _)

def write (b : Root) (v : View b.width b.height) (w : Write) : Root :=
  { b with
    grid := match w with
      | .set x y c => b.grid.set v x y c
      | .put text x y st => (b.grid.put v text x y st).1
      | .fill r ch st => b.grid.fill v r ch st }

def resize (b : Root) (w h : ℤ) : Root :=
  if w.toNat = b.width ∧ h.toNat = b.height then b else ⟨_, _, b.grid.resize w.toNat h.toNat⟩

def clone (b : Root) (v : View b.width b.height) : Root := ⟨_, _, b.grid.clone v⟩

lemma draws_write (b : Root) (v : View b.width b.height) (w : Write) : Draws v b.grid (b.write v w).grid := by
  cases w with
  | set x y c => exact draws_set v b.grid x y c
  | put text x y st => exact draws_put v b.grid text x y st
  | fill r ch st => exact draws_fill v b.grid r ch st

lemma whole_resize (b : Root) (hb : b.grid.Whole) (w h : ℤ) : (b.resize w h).grid.Whole := by
  have hcases : b.resize w h = b ∨ b.resize w h = ⟨_, _, b.grid.resize w.toNat h.toNat⟩ := ite_eq_or_eq _ _ _
  rcases hcases with he | he
  · rw [he]
    exact hb
  · rw [he]
    exact hb.resize _ _

end Root

def step (world : List Root) (e : Event) : List Root :=
  match world[e.buffer]? with
  | none => world
  | some b =>
    match e.op with
    | .write w => world.set e.buffer (b.write (b.view e.subs) w)
    | .resize w h => if e.subs = [] then world.set e.buffer (b.resize w h) else world
    | .clone => world ++ [b.clone (b.view e.subs)]

def worldAfter (w h : ℤ) (events : List Event) : List Root := run step [Root.new w h] events

def Sound (world : List Root) : Prop := ∀ b ∈ world, b.grid.Whole

lemma Sound.set {world : List Root} (hs : Sound world) {b : Root} (hb : b.grid.Whole) (i : ℕ) :
    Sound (world.set i b) := by
  intro d hd
  rcases List.mem_or_eq_of_mem_set hd with hd | rfl
  · exact hs d hd
  · exact hb

lemma Sound.step {world : List Root} (hs : Sound world) (e : Event) : Sound (step world e) := by
  unfold Tui.step
  split
  · exact hs
  · next b hb =>
    have hwhole := hs b (List.mem_of_getElem? hb)
    split
    · exact hs.set ((b.draws_write _ _).keeps hwhole).1 _
    · split
      · exact hs.set (b.whole_resize hwhole _ _) _
      · exact hs
    · intro d hd
      rcases List.mem_append.mp hd with hd | hd
      · exact hs d hd
      · rw [List.mem_singleton.mp hd]
        exact hwhole.clone _

lemma sound_worldAfter (w h : ℤ) (events : List Event) : Sound (worldAfter w h events) := by
  refine run_invariant (I := Sound) (fun _ e hs => hs.step e) ?_ events
  intro b hb
  rw [List.mem_singleton.mp hb]
  exact Grid.whole_new _ _

def Repairs {n m : ℕ} (v : View n m) (g g' : Grid n m) : Prop :=
  ∀ x < n, ∀ y < m, ¬ v.Covers x y → g'.cell x y ≠ g.cell x y →
    g'.cell x y = blankCell (g.cell x y).style ∧
      ((0 < x ∧ v.Covers (x - 1) y ∧ (g.cell x y).Continuation ∧ (g.cell (x - 1) y).Wide ∧
          ¬ (g'.cell (x - 1) y).Wide) ∨
        (v.Covers (x + 1) y ∧ (g.cell x y).Wide ∧ (g.cell (x + 1) y).Continuation ∧
          ¬ (g'.cell (x + 1) y).Continuation))

lemma Frames.repairs {n m : ℕ} {v : View n m} {g g' : Grid n m} (h : Frames v g g') (hg : g.Whole)
    (hg' : g'.Whole) : Repairs v g g' := by
  intro x hx y hy hv hne
  obtain ⟨hblank, hhalf⟩ := (h x hx y hy hv).resolve_left hne
  refine ⟨hblank, hhalf.imp ?_ ?_⟩
  · rintro ⟨hpos, hin, hc⟩
    refine ⟨hpos, hin, hc, ((hg y hy x hx).1 hc).2, fun hw => ?_⟩
    have hcont := ((hg' y hy (x - 1) (by omega)).2 hw).2
    rw [Nat.sub_add_cancel hpos, hblank] at hcont
    exact blankCell_not_continuation _ hcont
  · rintro ⟨hin, hw⟩
    refine ⟨hin, hw, ((hg y hy x hx).2 hw).2, fun hc => ?_⟩
    have hwide := ((hg' y hy (x + 1) hin.lt.1).1 hc).2
    rw [Nat.add_sub_cancel, hblank] at hwide
    exact blankCell_not_wide _ hwide

/-- Whatever is drawn, resized and cloned, every root buffer holds wide runes whole, and a write
through a view touches other buffers not at all and its own outside the view only to repair it. -/
theorem wide_runes_stay_whole (w h : ℤ) (events : List Event) :
    (∀ b ∈ worldAfter w h events, b.grid.Whole) ∧
      ∀ (i : ℕ) (subs : List Rect) (write : Write) (b : Root), (worldAfter w h events)[i]? = some b →
        step (worldAfter w h events) ⟨i, subs, .write write⟩ =
            (worldAfter w h events).set i (b.write (b.view subs) write) ∧
          Repairs (b.view subs) b.grid (b.write (b.view subs) write).grid := by
  have hsound := sound_worldAfter w h events
  refine ⟨hsound, fun i subs write b hb => ⟨?_, ?_⟩⟩
  · simp only [step, hb]
  · have hwhole := hsound b (List.mem_of_getElem? hb)
    obtain ⟨hwhole', hframes⟩ := (b.draws_write (b.view subs) write).keeps hwhole
    exact hframes.repairs hwhole hwhole'

end World

end UrConnect.Tui
