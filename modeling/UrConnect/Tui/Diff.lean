import UrConnect.Tui.Buffer

/-! The runs of cells that differ between two frames. -/

namespace UrConnect.Tui

section Scan

structure Run where
  x : ℕ
  y : ℕ
  cells : List Cell
  deriving DecidableEq

variable {n m : ℕ}

def Grid.slice (g : Grid n m) (y start len : ℕ) : List Cell := (List.range' start len).map fun x => g.cell x y

def pull (cur : Grid n m) (y : ℕ) (changed : ℕ → Bool) (x : ℕ) : ℕ → Bool :=
  if changed x then
    let changed := if (cur.cell x y).Continuation ∧ 0 < x then Function.update changed (x - 1) true else changed
    if x + 1 < n ∧ (cur.cell (x + 1) y).Continuation then Function.update changed (x + 1) true else changed
  else changed

def widen (cur : Grid n m) (y : ℕ) (changed : ℕ → Bool) : ℕ → Bool := (List.range n).foldl (pull cur y) changed

def stop (n : ℕ) (changed : ℕ → Bool) (x : ℕ) : ℕ :=
  if x < n ∧ changed x then stop n changed (x + 1) else x
termination_by n - x

lemma le_stop (n : ℕ) (changed : ℕ → Bool) (x : ℕ) : x ≤ stop n changed x := by
  fun_induction stop n changed x with
  | case1 x h ih => exact (Nat.le_succ x).trans ih
  | case2 x h => exact le_rfl

lemma lt_stop {changed : ℕ → Bool} {x : ℕ} (hx : x < n) (h : changed x) : x < stop n changed x := by
  rw [stop, if_pos ⟨hx, h⟩]
  exact le_stop n changed (x + 1)

lemma stop_le {changed : ℕ → Bool} {x : ℕ} (hx : x ≤ n) : stop n changed x ≤ n := by
  fun_induction stop n changed x with
  | case1 x h ih => exact ih h.1
  | case2 x h => exact hx

lemma changed_of_lt_stop {changed : ℕ → Bool} {x i : ℕ} (hx : x ≤ i) (hi : i < stop n changed x) : changed i := by
  fun_induction stop n changed x with
  | case1 x h ih =>
    rcases Nat.eq_or_lt_of_le hx with rfl | hlt
    · exact h.2
    · exact ih hlt hi
  | case2 x h => omega

lemma not_changed_stop {changed : ℕ → Bool} {x : ℕ} (h : stop n changed x < n) :
    changed (stop n changed x) = false := by
  fun_induction stop n changed x with
  | case1 x _ ih => exact ih h
  | case2 x hx => simpa [h] using hx

def scan (cur : Grid n m) (y : ℕ) (changed : ℕ → Bool) (x : ℕ) : List Run :=
  if hx : x < n then
    if hc : changed x then
      ⟨x, y, cur.slice y x (stop n changed x - x)⟩ :: scan cur y changed (stop n changed x)
    else scan cur y changed (x + 1)
  else []
termination_by n - x
decreasing_by
  · have := lt_stop hx hc
    omega
  · omega

structure Maximal (cur : Grid n m) (y : ℕ) (changed : ℕ → Bool) (x : ℕ) (r : Run) : Prop where
  row : r.y = y
  from_le : x ≤ r.x
  nonempty : 0 < r.cells.length
  fits : r.x + r.cells.length ≤ n
  cells : r.cells = cur.slice y r.x r.cells.length
  marked : ∀ i, r.x ≤ i → i < r.x + r.cells.length → changed i
  before : r.x = x ∨ changed (r.x - 1) = false
  behind : r.x + r.cells.length < n → changed (r.x + r.cells.length) = false

lemma length_slice (g : Grid n m) (y start len : ℕ) : (g.slice y start len).length = len := by
  rw [Grid.slice, List.length_map, List.length_range']

lemma scan_maximal (cur : Grid n m) (y : ℕ) (changed : ℕ → Bool) (x : ℕ) :
    ∀ r ∈ scan cur y changed x, Maximal cur y changed x r := by
  fun_induction scan cur y changed x with
  | case1 x hx hc ih =>
    have hlt := lt_stop hx hc
    have hlen : x + (stop n changed x - x) = stop n changed x := by omega
    rw [List.forall_mem_cons]
    refine ⟨⟨rfl, le_rfl, ?_, ?_, ?_, ?_, Or.inl rfl, ?_⟩, fun r hr => ?_⟩
    · rw [length_slice]
      omega
    · rw [length_slice, hlen]
      exact stop_le hx.le
    · rw [length_slice]
    · intro i hi hi'
      rw [length_slice, hlen] at hi'
      exact changed_of_lt_stop hi hi'
    · rw [length_slice, hlen]
      exact not_changed_stop
    · have h := ih r hr
      refine { h with from_le := hlt.le.trans h.from_le, before := Or.inr ?_ }
      -- The scan went on behind the stop, where the mask is clear.
      refine h.before.resolve_left fun he => ?_
      have hmarked := h.marked r.x le_rfl (by have := h.nonempty; omega)
      have hn : stop n changed x < n := by
        have := h.fits
        have := h.nonempty
        omega
      rw [he, not_changed_stop hn] at hmarked
      exact absurd hmarked Bool.false_ne_true
  | case2 x hx hc ih =>
    intro r hr
    have h := ih r hr
    refine { h with from_le := (Nat.le_succ x).trans h.from_le, before := Or.inr ?_ }
    rcases h.before with he | he
    · rw [he, Nat.add_sub_cancel]
      simpa using hc
    · exact he
  | case3 x hx =>
    intro r hr
    exact absurd hr List.not_mem_nil

lemma scan_pairwise (cur : Grid n m) (y : ℕ) (changed : ℕ → Bool) (x : ℕ) :
    (scan cur y changed x).Pairwise fun a b => a.x + a.cells.length < b.x := by
  fun_induction scan cur y changed x with
  | case1 x hx hc ih =>
    refine List.Pairwise.cons (fun b hb => ?_) ih
    have hlt := lt_stop hx hc
    have h := scan_maximal cur y changed _ b hb
    have hmarked := h.marked b.x le_rfl (by have := h.nonempty; omega)
    have hn : stop n changed x < n := by
      have := h.from_le
      have := h.fits
      have := h.nonempty
      omega
    have hne : stop n changed x ≠ b.x := by
      intro he
      rw [← he, not_changed_stop hn] at hmarked
      exact absurd hmarked Bool.false_ne_true
    have := h.from_le
    simp only [length_slice]
    omega
  | case2 x hx hc ih => exact ih
  | case3 x hx => exact List.Pairwise.nil

lemma scan_covers (cur : Grid n m) (y : ℕ) (changed : ℕ → Bool) (x : ℕ) {i : ℕ} (hx : x ≤ i) (hi : i < n)
    (h : changed i) : ∃ r ∈ scan cur y changed x, r.x ≤ i ∧ i < r.x + r.cells.length := by
  fun_induction scan cur y changed x with
  | case1 x hxn hc ih =>
    by_cases his : i < stop n changed x
    · refine ⟨_, List.mem_cons_self, hx, ?_⟩
      simp only [length_slice]
      omega
    · obtain ⟨r, hr, hcov⟩ := ih (Nat.le_of_not_lt his)
      exact ⟨r, List.mem_cons_of_mem _ hr, hcov⟩
  | case2 x hxn hc ih =>
    refine ih (Nat.lt_of_le_of_ne hx ?_)
    rintro rfl
    exact hc h
  | case3 x hxn => omega

end Scan

section Widen

variable {n m : ℕ} {cur : Grid n m} {y : ℕ}

lemma pull_iff (changed : ℕ → Bool) (k x : ℕ) : pull cur y changed k x ↔
    changed x ∨ changed k ∧ ((cur.cell k y).Continuation ∧ x + 1 = k ∨
      x = k + 1 ∧ x < n ∧ (cur.cell x y).Continuation) := by
  unfold pull
  by_cases hk : changed k
  · rw [if_pos hk]
    simp only [hk, true_and]
    split_ifs <;> grind [Function.update_apply]
  · rw [if_neg hk]
    simp [hk]

def Pulled (cur : Grid n m) (y : ℕ) (changed : ℕ → Bool) (k x : ℕ) : Prop :=
  changed x ∨ (0 < x ∧ x ≤ k ∧ x < n ∧ changed (x - 1) ∧ (cur.cell x y).Continuation) ∨
    (x + 1 < k ∧ changed (x + 1) ∧ (cur.cell (x + 1) y).Continuation)

lemma pulled_succ (hcur : cur.Whole) (hy : y < m) (changed : ℕ → Bool) {k : ℕ} (hk : k < n) (x : ℕ) :
    Pulled cur y changed (k + 1) x ↔ Pulled cur y changed k x ∨ Pulled cur y changed k k ∧
      ((cur.cell k y).Continuation ∧ x + 1 = k ∨ x = k + 1 ∧ x < n ∧ (cur.cell x y).Continuation) := by
  constructor
  · rintro (h | ⟨hpos, hle, hn, hch, hc⟩ | ⟨hlt, hch, hc⟩)
    · exact Or.inl (Or.inl h)
    · by_cases hx : x ≤ k
      · exact Or.inl (Or.inr (Or.inl ⟨hpos, hx, hn, hch, hc⟩))
      · obtain rfl : x = k + 1 := by omega
        exact Or.inr ⟨Or.inl hch, Or.inr ⟨rfl, hn, hc⟩⟩
    · by_cases hx : x + 1 < k
      · exact Or.inl (Or.inr (Or.inr ⟨hx, hch, hc⟩))
      · obtain rfl : x + 1 = k := by omega
        exact Or.inr ⟨Or.inl hch, Or.inl ⟨hc, rfl⟩⟩
  · rintro (h | ⟨h, ⟨hc, rfl⟩ | ⟨rfl, hn, hc⟩⟩)
    · exact h.imp_right (Or.imp (fun h => ⟨h.1, by omega, h.2.2⟩) fun h => ⟨by omega, h.2⟩)
    · rcases h with h | ⟨-, -, -, hch, -⟩ | ⟨hlt, -⟩
      · exact Or.inr (Or.inr ⟨by omega, h, hc⟩)
      · exact Or.inl hch
      · omega
    · -- A cell before a continuation is wide, so it was not pulled in by the cell before it.
      rcases h with h | ⟨-, -, -, -, hc'⟩ | ⟨hlt, -⟩
      · exact Or.inr (Or.inl ⟨by omega, le_rfl, hn, h, hc⟩)
      · exact absurd ((hcur y hy (k + 1) hn).1 hc).2 hc'.not_wide
      · omega

lemma widen_iff (hcur : cur.Whole) (hy : y < m) (changed : ℕ → Bool) (x : ℕ) :
    widen cur y changed x ↔ Pulled cur y changed n x := by
  suffices h : ∀ k ≤ n, ∀ x, (List.range k).foldl (pull cur y) changed x ↔ Pulled cur y changed k x from h n le_rfl x
  intro k
  induction k with
  | zero =>
    intro _ x
    have : ¬ (0 < x ∧ x ≤ 0) := by omega
    simp [Pulled]
    omega
  | succ k ih =>
    intro hk x
    rw [List.range_succ, List.foldl_append, List.foldl_cons, List.foldl_nil, pull_iff,
      ih (by omega), ih (by omega), pulled_succ hcur hy changed hk]

end Widen

section Diff

def changedAt (prev : Option Root) (cur : Root) (y x : ℕ) : Bool :=
  match prev with
  | none => true
  | some prev =>
    decide (prev.width ≠ cur.width ∨ prev.height ≠ cur.height) || decide (prev.grid.cell x y ≠ cur.grid.cell x y)

def diffRow (prev : Option Root) (cur : Root) (y : ℕ) : List Run :=
  if (List.range cur.width).any (changedAt prev cur y) then
    scan cur.grid y (widen cur.grid y (changedAt prev cur y)) 0
  else []

def diff (prev cur : Option Root) : List Run :=
  match cur with
  | none => []
  | some cur =>
    if cur.width = 0 ∨ cur.height = 0 then [] else (List.range cur.height).flatMap (diffRow prev cur)

def Grid.storeAll {n m : ℕ} (g : Grid n m) (x y : ℕ) : List Cell → Grid n m
  | [] => g
  | c :: cs => (g.store x y c).storeAll (x + 1) y cs

def Root.writeRuns (b : Root) (runs : List Run) : Root :=
  { b with grid := runs.foldl (fun g r => g.storeAll r.x r.y r.cells) b.grid }

def Root.rows (b : Root) : List Run :=
  if b.width = 0 then [] else (List.range b.height).map fun y => ⟨0, y, b.grid.slice y 0 b.width⟩

def Differs (prev cur : Root) (x y : ℕ) : Prop := prev.grid.cell x y ≠ cur.grid.cell x y

def Before (prev cur : Root) (a b : Run) : Prop :=
  a.y < b.y ∨ a.y = b.y ∧ ∃ x, a.x + a.cells.length ≤ x ∧ x < b.x ∧ ¬ Differs prev cur x a.y

structure Exact (prev cur : Root) (r : Run) : Prop where
  nonempty : 0 < r.cells.length
  row_lt : r.y < cur.height
  fits : r.x + r.cells.length ≤ cur.width
  cells : r.cells = cur.grid.slice r.y r.x r.cells.length
  changed : ∀ x, r.x ≤ x → x < r.x + r.cells.length → Differs prev cur x r.y ∨
    (0 < x ∧ (cur.grid.cell (x - 1) r.y).Wide ∧ (cur.grid.cell x r.y).Continuation ∧ Differs prev cur (x - 1) r.y) ∨
    ((cur.grid.cell x r.y).Wide ∧ (cur.grid.cell (x + 1) r.y).Continuation ∧ Differs prev cur (x + 1) r.y)
  start : ¬ (cur.grid.cell r.x r.y).Continuation
  end_whole : ¬ (cur.grid.cell (r.x + r.cells.length - 1) r.y).Wide

variable {prev cur : Root}

lemma changedAt_iff (hw : prev.width = cur.width) (hh : prev.height = cur.height) (x y : ℕ) :
    changedAt (some prev) cur y x ↔ Differs prev cur x y := by
  simp [changedAt, Differs, hw, hh]

lemma mem_diffRow {p : Option Root} {r : Run} {y : ℕ} (h : r ∈ diffRow p cur y) :
    r ∈ scan cur.grid y (widen cur.grid y (changedAt p cur y)) 0 := by
  unfold diffRow at h
  split at h
  · exact h
  · exact absurd h List.not_mem_nil

section SameSize

variable (hw : prev.width = cur.width) (hh : prev.height = cur.height) (hcur : cur.grid.Whole)

include hw hh hcur

lemma marked_iff {y : ℕ} (hy : y < cur.height) {x : ℕ} (hx : x < cur.width) :
    widen cur.grid y (changedAt (some prev) cur y) x ↔ Differs prev cur x y ∨
      (0 < x ∧ (cur.grid.cell (x - 1) y).Wide ∧ (cur.grid.cell x y).Continuation ∧ Differs prev cur (x - 1) y) ∨
      ((cur.grid.cell x y).Wide ∧ (cur.grid.cell (x + 1) y).Continuation ∧ Differs prev cur (x + 1) y) := by
  rw [widen_iff hcur hy, Pulled, changedAt_iff hw hh, changedAt_iff hw hh, changedAt_iff hw hh]
  refine or_congr_right (or_congr ⟨?_, ?_⟩ ⟨?_, ?_⟩)
  · rintro ⟨hpos, -, -, hd, hc⟩
    exact ⟨hpos, ((hcur y hy x hx).1 hc).2, hc, hd⟩
  · rintro ⟨hpos, -, hc, hd⟩
    exact ⟨hpos, hx.le, hx, hd, hc⟩
  · rintro ⟨hn, hd, hc⟩
    exact ⟨((hcur y hy (x + 1) hn).1 hc).2, hc, hd⟩
  · rintro ⟨hwide, hc, hd⟩
    exact ⟨((hcur y hy x hx).2 hwide).1, hd, hc⟩

lemma not_marked {y : ℕ} (hy : y < cur.height) {x : ℕ} (hx : x < cur.width)
    (h : widen cur.grid y (changedAt (some prev) cur y) x = false) : ¬ Differs prev cur x y := by
  intro hd
  have hm := (marked_iff hw hh hcur hy hx).mpr (Or.inl hd)
  rw [h] at hm
  exact absurd hm Bool.false_ne_true

lemma exact_of_mem {y : ℕ} (hy : y < cur.height) {r : Run} (hr : r ∈ diffRow (some prev) cur y) :
    Exact prev cur r := by
  have h := scan_maximal cur.grid y _ 0 r (mem_diffRow hr)
  have hmark := fun {x : ℕ} (hx : x < cur.width) => marked_iff hw hh hcur hy hx
  have hclear : ∀ x < cur.width, widen cur.grid y (changedAt (some prev) cur y) x = false → _ :=
    fun x hx hf => mt (hmark hx).mpr (by rw [hf]; exact Bool.false_ne_true)
  obtain rfl := h.row
  have hfits := h.fits
  have hpos := h.nonempty
  refine ⟨hpos, hy, hfits, h.cells, fun x hx hx' => (hmark (by omega)).mp (h.marked x hx hx'), ?_, ?_⟩
  · -- A run that starts at a continuation would have its wide half marked as well.
    intro hc
    obtain ⟨hx, hwide⟩ := (hcur _ hy r.x (by omega)).1 hc
    have hnot := hclear _ (by omega) (h.before.resolve_left (by omega))
    have hself : r.x - 1 + 1 = r.x := by omega
    rw [hself] at hnot
    rcases (hmark (by omega)).mp (h.marked r.x le_rfl (by omega)) with hd | ⟨-, -, -, hd⟩ | ⟨hw', -⟩
    · exact hnot (Or.inr (Or.inr ⟨hwide, hc, hd⟩))
    · exact hnot (Or.inl hd)
    · exact hc.not_wide hw'
  · -- A run that ends at a wide half would have its continuation marked as well.
    intro hwide
    obtain ⟨hx, hc⟩ := (hcur _ hy (r.x + r.cells.length - 1) (by omega)).2 hwide
    have hself : r.x + r.cells.length - 1 + 1 = r.x + r.cells.length := by omega
    rw [hself] at hx hc
    have hnot := hclear _ hx (h.behind hx)
    have hm := (hmark (by omega)).mp (h.marked (r.x + r.cells.length - 1) (by omega) (by omega))
    rw [hself] at hm
    rcases hm with hd | ⟨-, -, hc', -⟩ | ⟨-, -, hd⟩
    · exact hnot (Or.inr (Or.inl ⟨by omega, hwide, hc, hd⟩))
    · exact hc'.not_wide hwide
    · exact hnot (Or.inl hd)

lemma pairwise_diffRow {y : ℕ} (hy : y < cur.height) : (diffRow (some prev) cur y).Pairwise (Before prev cur) := by
  unfold diffRow
  split
  · refine (scan_pairwise cur.grid y _ 0).imp_of_mem fun {a b} ha hb hab => ?_
    have hma := scan_maximal cur.grid y _ 0 a ha
    have hmb := scan_maximal cur.grid y _ 0 b hb
    have hfits := hmb.fits
    refine Or.inr ⟨hma.row.trans hmb.row.symm, _, le_rfl, hab, ?_⟩
    rw [hma.row]
    exact not_marked hw hh hcur hy (by omega) (hma.behind (by omega))
  · exact List.Pairwise.nil

lemma differs_covered {x y : ℕ} (hx : x < cur.width) (hy : y < cur.height) (hd : Differs prev cur x y) :
    ∃ r ∈ diffRow (some prev) cur y, r.x ≤ x ∧ x < r.x + r.cells.length := by
  have hany : (List.range cur.width).any (changedAt (some prev) cur y) = true :=
    List.any_eq_true.mpr ⟨x, List.mem_range.mpr hx, (changedAt_iff hw hh x y).mpr hd⟩
  rw [diffRow, if_pos hany]
  exact scan_covers _ _ _ 0 (Nat.zero_le x) hx ((marked_iff hw hh hcur hy hx).mpr (Or.inl hd))

lemma mem_diff {r : Run} : r ∈ diff (some prev) (some cur) ↔ ∃ y < cur.height, r ∈ diffRow (some prev) cur y := by
  unfold diff
  dsimp only
  split_ifs with h
  · constructor
    · intro hr
      exact absurd hr List.not_mem_nil
    · rintro ⟨y, hy, hr⟩
      have hex := exact_of_mem hw hh hcur hy hr
      have hfits := hex.fits
      have hpos := hex.nonempty
      omega
  · simp only [List.mem_flatMap, List.mem_range]

lemma pairwise_diff : (diff (some prev) (some cur)).Pairwise (Before prev cur) := by
  unfold diff
  dsimp only
  split_ifs
  · exact List.Pairwise.nil
  · refine List.pairwise_flatMap.mpr ⟨fun y hy => pairwise_diffRow hw hh hcur (List.mem_range.mp hy), ?_⟩
    refine List.pairwise_lt_range.imp fun {y y'} hlt a ha b hb => Or.inl ?_
    rw [(scan_maximal cur.grid y _ 0 a (mem_diffRow ha)).row, (scan_maximal cur.grid y' _ 0 b (mem_diffRow hb)).row]
    exact hlt

end SameSize

section Writing

variable {n m : ℕ}

lemma Grid.eq_of_cell {g g' : Grid n m} (h : ∀ x < n, ∀ y < m, g.cell x y = g'.cell x y) : g = g' := by
  obtain ⟨cells, hlen⟩ := g
  obtain ⟨cells', hlen'⟩ := g'
  congr
  refine List.ext_getElem (hlen.trans hlen'.symm) fun i hi hi' => ?_
  have hn : 0 < n := by
    by_contra hn
    rw [hlen, show n = 0 by omega, Nat.zero_mul] at hi
    omega
  have hrow : i / n < m := by
    rw [Nat.div_lt_iff_lt_mul hn, Nat.mul_comm, ← hlen]
    exact hi
  have hcell := h (i % n) (Nat.mod_lt i hn) (i / n) hrow
  have hindex : i / n * n + i % n = i := Nat.div_add_mod' i n
  simp only [Grid.cell, hindex, List.getD_eq_getElem?_getD, List.getElem?_eq_getElem hi,
    List.getElem?_eq_getElem hi', Option.getD_some] at hcell
  exact hcell

lemma Grid.cell_storeAll (g src : Grid n m) {x y len : ℕ} (hfit : x + len ≤ n) (hy : y < m) {x' : ℕ} (hx' : x' < n)
    (y' : ℕ) : (g.storeAll x y (src.slice y x len)).cell x' y' =
      if y' = y ∧ x ≤ x' ∧ x' < x + len then src.cell x' y' else g.cell x' y' := by
  induction len generalizing g x with
  | zero =>
    rw [if_neg (by omega)]
    rfl
  | succ len ih =>
    have hslice : src.slice y x (len + 1) = src.cell x y :: src.slice y (x + 1) len := by
      rw [Grid.slice, List.range'_succ, List.map_cons, Grid.slice]
    rw [hslice, Grid.storeAll, ih _ (by omega), Grid.cell_store _ _ (by omega) hy hx']
    by_cases hself : x' = x ∧ y' = y
    · obtain ⟨rfl, rfl⟩ := hself
      rw [if_neg (by omega), if_pos ⟨rfl, rfl⟩, if_pos (by omega)]
    · rw [if_neg hself]
      refine if_congr ?_ rfl rfl
      omega

lemma Grid.cell_writeRuns (src : Grid n m) {x y : ℕ} (hx : x < n) (runs : List Run) (g : Grid n m)
    (hruns : ∀ r ∈ runs, r.y < m ∧ r.x + r.cells.length ≤ n ∧ r.cells = src.slice r.y r.x r.cells.length)
    (h : g.cell x y = src.cell x y ∨ ∃ r ∈ runs, r.y = y ∧ r.x ≤ x ∧ x < r.x + r.cells.length) :
    (runs.foldl (fun g r => g.storeAll r.x r.y r.cells) g).cell x y = src.cell x y := by
  induction runs generalizing g with
  | nil => simpa using h
  | cons r runs ih =>
    obtain ⟨⟨hy, hfit, hcells⟩, hrest⟩ := List.forall_mem_cons.mp hruns
    rw [List.foldl_cons]
    refine ih _ hrest ?_
    rw [hcells, Grid.cell_storeAll g src hfit hy hx]
    rcases h with h | ⟨r', hr', hcov⟩
    · left
      rw [h, ite_self]
    · rcases List.mem_cons.mp hr' with rfl | hr'
      · left
        rw [if_pos ⟨hcov.1.symm, hcov.2⟩]
      · exact Or.inr ⟨r', hr', hcov⟩

lemma writeRuns_diff (hw : prev.width = cur.width) (hh : prev.height = cur.height) (hcur : cur.grid.Whole) :
    prev.writeRuns (diff (some prev) (some cur)) = cur := by
  have hmem := fun r => mem_diff hw hh hcur (r := r)
  have hexact := fun {y} (hy : y < cur.height) {r} => exact_of_mem hw hh hcur hy (r := r)
  have hcovered := fun {x y} (hx : x < cur.width) (hy : y < cur.height) => differs_covered hw hh hcur hx hy
  obtain ⟨n, m, g⟩ := prev
  obtain ⟨n', m', g'⟩ := cur
  obtain rfl : n = n' := hw
  obtain rfl : m = m' := hh
  refine congrArg (Root.mk n m) (Grid.eq_of_cell fun x hx y hy => ?_)
  refine Grid.cell_writeRuns g' hx _ g (fun r hr => ?_) ?_
  · obtain ⟨y, hy, hr⟩ := (hmem r).mp hr
    exact ⟨(hexact hy hr).row_lt, (hexact hy hr).fits, (hexact hy hr).cells⟩
  · refine or_iff_not_imp_left.mpr fun hne => ?_
    obtain ⟨r, hr, hcov⟩ := hcovered hx hy hne
    refine ⟨r, (hmem r).mpr ⟨y, hy, hr⟩, ?_, hcov⟩
    exact (scan_maximal _ y _ 0 r (mem_diffRow hr)).row

end Writing

lemma widen_of_changed {n m : ℕ} (g : Grid n m) (y : ℕ) {changed : ℕ → Bool} {x : ℕ} (h : changed x) :
    widen g y changed x := by
  unfold widen
  generalize List.range n = l
  induction l generalizing changed with
  | nil => exact h
  | cons k l ih => exact ih ((pull_iff changed k x).mpr (Or.inl h))

lemma scan_all {n m : ℕ} (g : Grid n m) (y : ℕ) {changed : ℕ → Bool} (hn : 0 < n) (h : ∀ x, changed x) :
    scan g y changed 0 = [⟨0, y, g.slice y 0 n⟩] := by
  have hstop : stop n changed 0 = n := by
    refine (stop_le (Nat.zero_le n)).antisymm (Nat.le_of_not_lt fun hlt => ?_)
    have hf := not_changed_stop hlt
    rw [h] at hf
    exact absurd hf.symm Bool.false_ne_true
  rw [scan, dif_pos hn, dif_pos (h 0), hstop, Nat.sub_zero, scan, dif_neg (Nat.lt_irrefl n)]

lemma diff_full {p : Option Root} (h : ∀ y x, changedAt p cur y x) : diff p (some cur) = cur.rows := by
  unfold diff Root.rows
  dsimp only
  by_cases hw : cur.width = 0
  · rw [if_pos (Or.inl hw), if_pos hw]
  · by_cases hh : cur.height = 0
    · have hrange : List.range cur.height = [] := by
        rw [hh]
        rfl
      rw [if_pos (Or.inr hh), if_neg hw, hrange]
      rfl
    · rw [if_neg (by tauto), if_neg hw, List.map_eq_flatMap]
      refine List.flatMap_congr fun y _ => ?_
      have hany : (List.range cur.width).any (changedAt p cur y) = true :=
        List.any_eq_true.mpr ⟨0, List.mem_range.mpr (Nat.pos_of_ne_zero hw), h y 0⟩
      rw [diffRow, if_pos hany]
      exact scan_all cur.grid y (Nat.pos_of_ne_zero hw) fun x => widen_of_changed _ _ (h y x)

/-- The runs of a diff rewrite a frame into a drawn one of its size, are made of whole
runes with a change each, and stand apart in reading order; without a frame of the same size they are
all rows. -/
theorem diff_exact (w h : ℤ) (events : List Event) (prev cur : Root) (hcur : cur ∈ worldAfter w h events) :
    (prev.width = cur.width → prev.height = cur.height →
      prev.writeRuns (diff (some prev) (some cur)) = cur ∧
        (diff (some prev) (some cur)).Pairwise (Before prev cur) ∧
        ∀ r ∈ diff (some prev) (some cur), Exact prev cur r) ∧
      (prev.width ≠ cur.width ∨ prev.height ≠ cur.height → diff (some prev) (some cur) = cur.rows) ∧
      diff none (some cur) = cur.rows := by
  have hwhole := sound_worldAfter w h events cur hcur
  refine ⟨fun hw hh => ⟨writeRuns_diff hw hh hwhole, pairwise_diff hw hh hwhole, fun r hr => ?_⟩, fun hne => ?_, ?_⟩
  · obtain ⟨y, hy, hr⟩ := (mem_diff hw hh hwhole).mp hr
    exact exact_of_mem hw hh hwhole hy hr
  · exact diff_full fun y x => by simp [changedAt, hne]
  · exact diff_full fun y x => rfl

theorem diff_exact_wide_rune :
    (Root.new 2 1).writeRuns (diff (some (Root.new 2 1))
        (some ((Root.new 2 1).write (View.full 2 1) (.set 0 0 ⟨0x4E00, [], default⟩)))) =
      (Root.new 2 1).write (View.full 2 1) (.set 0 0 ⟨0x4E00, [], default⟩) :=
  ((diff_exact 2 1 [⟨0, [], .write (.set 0 0 ⟨0x4E00, [], default⟩)⟩] (Root.new 2 1) _
    (List.mem_singleton.mpr rfl)).1 rfl rfl).1

end Diff

end UrConnect.Tui
