import Mathlib.Logic.Basic
import Mathlib.Data.List.Basic

/-! Runs of a transition function over a list of events, and the rules that carry
an invariant from one step to every state of a run. -/

namespace UrConnect.Lib.Runs

variable {S E : Type}

def run (step : S → E → S) (s : S) (events : List E) : S := events.foldl step s

/-- Every event of the run meets `ok` in the state it is applied to. -/
def Meets (ok : S → E → Prop) (step : S → E → S) : S → List E → Prop
  | _, [] => True
  | s, e :: es => ok s e ∧ Meets ok step (step s e) es

variable {step : S → E → S} {ok : S → E → Prop}

@[simp] lemma run_nil (s : S) : run step s [] = s := rfl

@[simp] lemma run_cons (s : S) (e : E) (es : List E) :
    run step s (e :: es) = run step (step s e) es := rfl

lemma run_append (s : S) (es fs : List E) :
    run step s (es ++ fs) = run step (run step s es) fs := by
  simp [run]

lemma run_concat (s : S) (es : List E) (e : E) :
    run step s (es ++ [e]) = step (run step s es) e := by
  simp [run]

lemma run_invariant {I : S → Prop} (hstep : ∀ s e, I s → I (step s e))
    {s : S} (h : I s) (es : List E) : I (run step s es) := by
  induction es generalizing s with
  | nil => exact h
  | cons e es ih => exact ih (hstep s e h)

lemma meets_invariant {I : S → Prop} (hstep : ∀ s e, I s → ok s e → I (step s e))
    {s : S} (h : I s) {es : List E} (hm : Meets ok step s es) : I (run step s es) := by
  induction es generalizing s with
  | nil => exact h
  | cons e es ih => exact ih (hstep s e h hm.1) hm.2

lemma history_invariant {I : List E → S → Prop}
    (hstep : ∀ past s e, I past s → ok s e → I (past ++ [e]) (step s e)) {s : S} {past : List E} (h : I past s)
    {es : List E} (hm : Meets ok step s es) : I (past ++ es) (run step s es) := by
  induction es generalizing s past with
  | nil =>
    rw [List.append_nil]
    exact h
  | cons e es ih =>
    have hnext := ih (hstep past s e h hm.1) hm.2
    rw [List.append_assoc] at hnext
    exact hnext

lemma meets_append {s : S} {es fs : List E} :
    Meets ok step s (es ++ fs) ↔ Meets ok step s es ∧ Meets ok step (run step s es) fs := by
  induction es generalizing s with
  | nil => simp [Meets]
  | cons e es ih => simp [Meets, ih, and_assoc]

lemma meets_and {ok' : S → E → Prop} {s : S} {es : List E} (hm : Meets ok step s es) (hm' : Meets ok' step s es) :
    Meets (fun s e => ok s e ∧ ok' s e) step s es := by
  induction es generalizing s with
  | nil => trivial
  | cons e es ih => exact ⟨⟨hm.1, hm'.1⟩, ih hm.2 hm'.2⟩

lemma meets_of_forall {P : E → Prop} {es : List E} (hP : ∀ e ∈ es, P e) (s : S) :
    Meets (fun _ e => P e) step s es := by
  induction es generalizing s with
  | nil => trivial
  | cons e es ih => exact ⟨hP e List.mem_cons_self, ih (fun d hd => hP d (List.mem_cons_of_mem e hd)) _⟩

section Hits

variable (hit : S → E → Prop) [∀ s e, Decidable (hit s e)]

def hits (step : S → E → S) : S → List E → ℕ
  | _, [] => 0
  | s, e :: es => (if hit s e then 1 else 0) + hits step (step s e) es

end Hits

section Fallible

variable {attempt : S → E → Option S}

def MeetsM (ok : S → E → Prop) (attempt : S → E → Option S) : S → List E → Prop
  | _, [] => True
  | s, e :: es =>
    ok s e ∧ match attempt s e with
      | some s' => MeetsM ok attempt s' es
      | none => True

lemma foldlM_meets {I : S → Prop}
    (hstep : ∀ s e, I s → ok s e → ∃ s', attempt s e = some s' ∧ I s') {s : S} (h : I s)
    {es : List E} (hm : MeetsM ok attempt s es) : ∃ s', es.foldlM attempt s = some s' ∧ I s' := by
  induction es generalizing s with
  | nil => exact ⟨s, rfl, h⟩
  | cons e es ih =>
    obtain ⟨he, hrest⟩ := hm
    obtain ⟨s', hs', h'⟩ := hstep s e h he
    rw [hs'] at hrest
    rw [List.foldlM_cons, hs']
    exact ih h' hrest

lemma foldlM_some {I : S → Prop}
    (hstep : ∀ s e s', I s → ok s e → attempt s e = some s' → I s') {s t : S} (h : I s)
    {es : List E} (hm : MeetsM ok attempt s es) (hr : es.foldlM attempt s = some t) : I t := by
  induction es generalizing s with
  | nil =>
    cases hr
    exact h
  | cons e es ih =>
    obtain ⟨he, hrest⟩ := hm
    rw [List.foldlM_cons] at hr
    obtain ⟨s', hs', hr⟩ := Option.bind_eq_some_iff.mp hr
    rw [hs'] at hrest
    exact ih (hstep s e s' h he hs') hrest hr

def decidableMeetsM [∀ s e, Decidable (ok s e)] :
    (s : S) → (es : List E) → Decidable (MeetsM ok attempt s es)
  | _, [] => inferInstanceAs (Decidable True)
  | s, e :: es =>
    match h : attempt s e with
    | some s' =>
      have := decidableMeetsM s' es
      decidable_of_iff (ok s e ∧ MeetsM ok attempt s' es) (by rw [MeetsM, h])
    | none => decidable_of_iff (ok s e ∧ True) (by rw [MeetsM, h])

instance [∀ s e, Decidable (ok s e)] (s : S) (es : List E) : Decidable (MeetsM ok attempt s es) :=
  decidableMeetsM s es

end Fallible

def decidableMeets [∀ s e, Decidable (ok s e)] : (s : S) → (es : List E) → Decidable (Meets ok step s es)
  | _, [] => inferInstanceAs (Decidable True)
  | s, e :: es =>
    have := decidableMeets (step s e) es
    inferInstanceAs (Decidable (ok s e ∧ Meets ok step (step s e) es))

instance [∀ s e, Decidable (ok s e)] (s : S) (es : List E) : Decidable (Meets ok step s es) :=
  decidableMeets s es

end UrConnect.Lib.Runs

/-! What happened at some place of a history, by the events before and after it. -/

namespace UrConnect.Lib.History

variable {E : Type}

def Occurs (P : List E → E → List E → Prop) (past : List E) : Prop :=
  ∃ before e after, past = before ++ e :: after ∧ P before e after

variable {P : List E → E → List E → Prop} {past : List E} {e : E}

lemma not_occurs_nil : ¬ Occurs P [] := by
  rintro ⟨before, e, after, h, -⟩
  simp at h

lemma occurs_concat :
    Occurs P (past ++ [e]) ↔ P past e [] ∨ Occurs (fun before x after => P before x (after ++ [e])) past := by
  constructor
  · rintro ⟨before, x, after, h, hP⟩
    rcases List.eq_nil_or_concat after with rfl | ⟨after, y, rfl⟩
    · obtain ⟨rfl, hx⟩ := List.append_inj' h rfl
      obtain rfl : e = x := by simpa using hx
      exact .inl hP
    · rw [List.concat_eq_append, ← List.cons_append, ← List.append_assoc] at h
      obtain ⟨rfl, hy⟩ := List.append_inj' h rfl
      obtain rfl : e = y := by simpa using hy
      rw [List.concat_eq_append] at hP
      exact .inr ⟨before, x, after, rfl, hP⟩
  · rintro (hP | ⟨before, x, after, rfl, hP⟩)
    · exact ⟨past, e, [], rfl, hP⟩
    · exact ⟨before, x, after ++ [e], by simp, hP⟩

end UrConnect.Lib.History
