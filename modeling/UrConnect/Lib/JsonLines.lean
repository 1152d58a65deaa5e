import Mathlib

/-! Compact JSON texts as byte lists, their lengths, and files made of one text a line. -/

namespace UrConnect.Lib.JsonLines

abbrev Bytes := List ℕ

abbrev Text := List Char

def ascii (s : String) : Bytes := s.toList.map Char.toNat

def OneLine (b : Bytes) : Prop := 10 ∉ b

instance (b : Bytes) : Decidable (OneLine b) := inferInstanceAs (Decidable (10 ∉ b))

@[simp] lemma oneLine_nil : OneLine [] := by simp [OneLine]

@[simp] lemma oneLine_cons {n : ℕ} {b : Bytes} : OneLine (n :: b) ↔ n ≠ 10 ∧ OneLine b := by
  simp [OneLine, eq_comm]

@[simp] lemma oneLine_append {a b : Bytes} : OneLine (a ++ b) ↔ OneLine a ∧ OneLine b := by
  simp [OneLine, not_or]

lemma oneLine_flatMap {α : Type*} {l : List α} {f : α → Bytes} (h : ∀ a ∈ l, OneLine (f a)) :
    OneLine (l.flatMap f) := by
  intro hm
  obtain ⟨a, ha, hf⟩ := List.mem_flatMap.1 hm
  exact h a ha hf

lemma OneLine.mono {a b : Bytes} (h : OneLine b) (hs : a ⊆ b) : OneLine a := fun hm => h (hs hm)

def utf8 (n : ℕ) : Bytes :=
  if n < 0x80 then [n]
  else if n < 0x800 then [0xC0 + n / 64, 0x80 + n % 64]
  else if n < 0x10000 then [0xE0 + n / 4096, 0x80 + n / 64 % 64, 0x80 + n % 64]
  else [0xF0 + n / 262144, 0x80 + n / 4096 % 64, 0x80 + n / 64 % 64, 0x80 + n % 64]

def hexDigit (d : ℕ) : ℕ := if d < 10 then 48 + d else 87 + d

def escape (c : Char) : Bytes :=
  let n := c.toNat
  if n = 34 ∨ n = 92 then [92, n]
  else if n = 8 then [92, 98]
  else if n = 12 then [92, 102]
  else if n = 10 then [92, 110]
  else if n = 13 then [92, 114]
  else if n = 9 then [92, 116]
  else if n < 32 ∨ n = 60 ∨ n = 62 ∨ n = 38 ∨ n = 0x2028 ∨ n = 0x2029 then
    [92, 117, hexDigit (n / 4096), hexDigit (n / 256 % 16), hexDigit (n / 16 % 16), hexDigit (n % 16)]
  else utf8 n

def quote (t : Text) : Bytes := 34 :: t.flatMap escape ++ [34]

lemma hexDigit_ne (d : ℕ) : hexDigit d ≠ 10 := by
  unfold hexDigit
  split <;> omega

lemma oneLine_utf8 {n : ℕ} (h : n ≠ 10) : OneLine (utf8 n) := by
  unfold utf8
  split_ifs <;> simp only [oneLine_cons, oneLine_nil, and_true] <;> omega

lemma oneLine_escape (c : Char) : OneLine (escape c) := by
  unfold escape
  dsimp only
  split_ifs with h34 h8 h12 h10
  · simp only [oneLine_cons, oneLine_nil, and_true]
    omega
  all_goals simp_all [hexDigit_ne, oneLine_utf8]

lemma oneLine_quote (t : Text) : OneLine (quote t) := by
  simp [quote, oneLine_flatMap fun c _ => oneLine_escape c]

def Plain (c : Char) : Prop := escape c = [c.toNat]

instance (c : Char) : Decidable (Plain c) := inferInstanceAs (Decidable (escape c = [c.toNat]))

lemma length_quote_plain {t : Text} (h : ∀ c ∈ t, Plain c) : (quote t).length = t.length + 2 := by
  have hf : t.flatMap escape = t.map Char.toNat := by
    induction t with
    | nil => rfl
    | cons c t ih =>
        rw [List.flatMap_cons, ih fun d hd => h d (List.mem_cons_of_mem _ hd), h c List.mem_cons_self]
        rfl
  simp [quote, hf]

def decimal (n : ℕ) : Bytes := (Nat.toDigits 10 n).map Char.toNat

lemma length_decimal_mono {m n : ℕ} (h : m ≤ n) : (decimal m).length ≤ (decimal n).length := by
  simp only [decimal, List.length_map]
  have hn := (Nat.length_toDigits_le_iff (by decide) Nat.length_toDigits_pos).1 (le_refl (Nat.toDigits 10 n).length)
  exact (Nat.length_toDigits_le_iff (by decide) Nat.length_toDigits_pos).2 (h.trans_lt hn)

lemma oneLine_decimal (n : ℕ) : OneLine (decimal n) := by
  intro hm
  obtain ⟨c, hc, h10⟩ := List.mem_map.1 hm
  have hd := Nat.isDigit_of_mem_toDigits (by decide) (by decide) hc
  simp only [Char.isDigit, Bool.and_eq_true, decide_eq_true_eq] at hd
  have h48 : 48 ≤ c.toNat := hd.1
  omega

def sextet (n : ℕ) : ℕ :=
  if n < 26 then 65 + n else if n < 52 then 71 + n else if n < 62 then n - 4 else if n = 62 then 43 else 47

def base64 : Bytes → Bytes
  | [] => []
  | [a] => [sextet (a / 4), sextet (a % 4 * 16), 61, 61]
  | [a, b] => [sextet (a / 4), sextet (a % 4 * 16 + b / 16), sextet (b % 16 * 4), 61]
  | a :: b :: c :: rest =>
      [sextet (a / 4), sextet (a % 4 * 16 + b / 16), sextet (b % 16 * 4 + c / 64), sextet (c % 64)] ++ base64 rest

lemma length_base64 (raw : Bytes) : (base64 raw).length = 4 * ((raw.length + 2) / 3) := by
  induction raw using base64.induct with
  | case1 => rfl
  | case2 a => simp [base64]
  | case3 a b => simp [base64]
  | case4 a b c rest ih =>
      simp only [base64, List.length_append, List.length_cons, List.length_nil, ih]
      omega

lemma sextet_ne (n : ℕ) : sextet n ≠ 10 := by
  unfold sextet
  split_ifs <;> omega

lemma oneLine_base64 (raw : Bytes) : OneLine (base64 raw) := by
  induction raw using base64.induct with
  | case1 => simp [base64]
  | case2 a => simp [base64, sextet_ne]
  | case3 a b => simp [base64, sextet_ne]
  | case4 a b c rest ih => simp [base64, sextet_ne, ih]

abbrev Field := String × Bytes

def member (f : Field) : Bytes := 34 :: ascii f.1 ++ [34, 58] ++ f.2

def object (fields : List Field) : Bytes :=
  123 :: (fields.flatMap fun f => member f ++ [44]).dropLast ++ [125]

def unlessEmpty (present : Bool) (key : String) (value : Bytes) : List Field :=
  if present then [(key, value)] else []

def weight (fields : List Field) : ℕ := (fields.map fun f => f.1.length + f.2.length + 4).sum

@[simp] lemma weight_nil : weight [] = 0 := rfl

@[simp] lemma weight_cons (f : Field) (fs : List Field) :
    weight (f :: fs) = f.1.length + f.2.length + 4 + weight fs := rfl

@[simp] lemma weight_append (fs gs : List Field) : weight (fs ++ gs) = weight fs + weight gs := by
  simp [weight]

lemma weight_unlessEmpty (p : Bool) (k : String) (v : Bytes) :
    weight (unlessEmpty p k v) = if p then k.length + v.length + 4 else 0 := by
  cases p <;> simp [unlessEmpty]

lemma weight_unlessEmpty_mono {p q : Bool} {v w : Bytes} (k : String) (hp : p = true → q = true)
    (hv : v.length ≤ w.length) : weight (unlessEmpty p k v) ≤ weight (unlessEmpty q k w) := by
  rw [weight_unlessEmpty, weight_unlessEmpty]
  cases p
  · exact Nat.zero_le _
  · rw [if_pos rfl, if_pos (hp rfl)]
    omega

lemma length_ascii (s : String) : (ascii s).length = s.length := by simp [ascii, String.length_toList]

lemma length_member (f : Field) : (member f).length = f.1.length + f.2.length + 3 := by
  simp only [member, List.length_append, List.length_cons, List.length_nil, length_ascii]
  omega

lemma length_object (fields : List Field) : (object fields).length = weight fields - 1 + 2 := by
  have hs : (fields.flatMap fun f => member f ++ [44]).length = weight fields := by
    induction fields with
    | nil => rfl
    | cons f fs ih =>
        simp only [List.flatMap_cons, List.length_append, ih, length_member, weight_cons, List.length_cons,
          List.length_nil]
  simp [object, hs]

lemma length_object_mono {fs gs : List Field} (h : weight fs ≤ weight gs) :
    (object fs).length ≤ (object gs).length := by
  rw [length_object, length_object]
  omega

lemma oneLine_object {fields : List Field} (h : ∀ f ∈ fields, OneLine (ascii f.1) ∧ OneLine f.2) :
    OneLine (object fields) := by
  have hm : OneLine (fields.flatMap fun f => member f ++ [44]) := by
    refine oneLine_flatMap fun f hf => ?_
    simp [member, h f hf]
  simp [object, hm.mono (List.dropLast_subset _)]

lemma oneLine_unlessEmpty {p : Bool} {k : String} {v : Bytes} (hk : OneLine (ascii k)) (hv : OneLine v) :
    ∀ f ∈ unlessEmpty p k v, OneLine (ascii f.1) ∧ OneLine f.2 := by
  intro f hf
  cases p
  · simp [unlessEmpty] at hf
  · obtain rfl : f = (k, v) := by simpa [unlessEmpty] using hf
    exact ⟨hk, hv⟩

def splitLines : Bytes → List Bytes × Bytes
  | [] => ([], [])
  | b :: rest =>
      if b = 10 then ([] :: (splitLines rest).1, (splitLines rest).2)
      else match (splitLines rest).1 with
        | [] => ([], b :: (splitLines rest).2)
        | l :: ls => ((b :: l) :: ls, (splitLines rest).2)

lemma splitLines_line {l : Bytes} (h : OneLine l) (rest : Bytes) :
    splitLines (l ++ 10 :: rest) = (l :: (splitLines rest).1, (splitLines rest).2) := by
  induction l with
  | nil => simp [splitLines]
  | cons b l ih =>
      obtain ⟨hb, hl⟩ := oneLine_cons.1 h
      simp [splitLines, hb, ih hl]

lemma splitLines_lines {ls : List Bytes} (h : ∀ l ∈ ls, OneLine l) :
    splitLines (ls.flatMap fun l => l ++ [10]) = (ls, []) := by
  induction ls with
  | nil => rfl
  | cons l ls ih =>
      have hl := splitLines_line (h l List.mem_cons_self) (ls.flatMap fun l => l ++ [10])
      simpa [ih fun m hm => h m (List.mem_cons_of_mem _ hm)] using hl

end UrConnect.Lib.JsonLines
