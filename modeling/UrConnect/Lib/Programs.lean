import Mathlib

/-! Programs with a state of their own that can fail and that perform operations an environment answers, with rules of
pre- and postconditions. -/

namespace UrConnect.Lib.Programs

structure World (O S : Type) where
  trace : List O
  self : S

def Prog (E O S α : Type) : Type := World O S → Except E α × World O S

namespace Prog

variable {E O S A α β : Type}

def andThen (f : α → Prog E O S β) : Except E α × World O S → Except E β × World O S
  | (.error e, w) => (.error e, w)
  | (.ok a, w) => f a w

instance : Monad (Prog E O S) where
  pure a w := (.ok a, w)
  bind p f w := andThen f (p w)

lemma bind_apply (p : Prog E O S α) (f : α → Prog E O S β) (w : World O S) : (p >>= f) w = andThen f (p w) := rfl

protected lemma bind_assoc {γ : Type} (p : Prog E O S α) (f : α → Prog E O S β) (g : β → Prog E O S γ) :
    p >>= f >>= g = p >>= fun a => f a >>= g := by
  funext w
  rw [bind_apply, bind_apply, bind_apply]
  obtain ⟨e | a, w'⟩ := p w <;> rfl

def fail (e : E) : Prog E O S α := fun w => (.error e, w)

def attempt (p : Prog E O S α) : Prog E O S (Except E α) := fun w => (.ok (p w).1, (p w).2)

def self : Prog E O S S := fun w => (.ok w.self, w)

def update (f : S → S) : Prog E O S Unit := fun w => (.ok (), { w with self := f w.self })

def perform (answer : List O → O → A) (op : O) : Prog E O S A :=
  fun w => (.ok (answer w.trace op), { w with trace := w.trace ++ [op] })

def joining [Append E] (p : Prog E O S α) (q : Prog E O S Unit) : Prog E O S α := do
  let r ← attempt p
  let t ← attempt q
  match r, t with
  | .ok a, .ok _ => pure a
  | .ok _, .error e => fail e
  | .error e, .ok _ => fail e
  | .error e, .error f => fail (e ++ f)

def onFailure (p : Prog E O S α) (f : E → Prog E O S α) : Prog E O S α := do
  match ← attempt p with
  | .ok a => pure a
  | .error e => f e

def Ends (Q : α → World O S → Prop) (R : E → World O S → Prop) : Except E α × World O S → Prop
  | (.ok a, w) => Q a w
  | (.error e, w) => R e w

def Spec (P : World O S → Prop) (p : Prog E O S α) (Q : α → World O S → Prop) (R : E → World O S → Prop) : Prop :=
  ∀ w, P w → Ends Q R (p w)

section Rules

variable {P : World O S → Prop} {p : Prog E O S α} {Q : α → World O S → Prop} {R : E → World O S → Prop}

lemma Spec.pure {a : α} (h : ∀ w, P w → Q a w) : Spec P (Pure.pure a : Prog E O S α) Q R := h

lemma Spec.fail {e : E} (h : ∀ w, P w → R e w) : Spec P (fail e : Prog E O S α) Q R := h

lemma Spec.bind {f : α → Prog E O S β} {M : α → World O S → Prop} {Q : β → World O S → Prop} (hp : Spec P p M R)
    (hf : ∀ a, Spec (M a) (f a) Q R) : Spec P (p >>= f) Q R := by
  intro w hw
  have h := hp w hw
  rw [bind_apply]
  generalize p w = r at h ⊢
  obtain ⟨e | a, w'⟩ := r
  · exact h
  · exact hf a w' h

lemma Spec.mono {P' : World O S → Prop} {Q' : α → World O S → Prop} {R' : E → World O S → Prop} (h : Spec P p Q R)
    (hP : ∀ w, P' w → P w) (hQ : ∀ a w, Q a w → Q' a w) (hR : ∀ e w, R e w → R' e w) : Spec P' p Q' R' := by
  intro w hw
  have hw' := h w (hP w hw)
  generalize p w = r at hw' ⊢
  obtain ⟨e | a, w'⟩ := r
  · exact hR e w' hw'
  · exact hQ a w' hw'

lemma Spec.attempt {T : Except E α → World O S → Prop} {R' : E → World O S → Prop}
    (h : Spec P p (fun a => T (.ok a)) fun e => T (.error e)) : Spec P (attempt p) T R' := by
  intro w hw
  have hw' := h w hw
  show Ends T R' (.ok (p w).1, (p w).2)
  generalize p w = r at hw' ⊢
  obtain ⟨e | a, w'⟩ := r
  · exact hw'
  · exact hw'

lemma Spec.self_bind {f : S → Prog E O S α}
    (h : ∀ s, Spec (fun w => P w ∧ w.self = s) (f s) Q R) : Spec P (self >>= f) Q R :=
  fun w hw => h w.self w ⟨hw, rfl⟩

lemma Spec.update {f : S → S} {Q : Unit → World O S → Prop} (h : ∀ w, P w → Q () { w with self := f w.self }) :
    Spec P (update f : Prog E O S Unit) Q R := h

lemma Spec.perform {answer : List O → O → A} {op : O} {Q : A → World O S → Prop}
    (h : ∀ w, P w → ∀ a, Q a { w with trace := w.trace ++ [op] }) :
    Spec P (perform answer op : Prog E O S A) Q R :=
  fun w hw => h w hw _

lemma Spec.joining [Append E] {q : Prog E O S Unit} {M : Except E α → World O S → Prop}
    (hp : Spec P p (fun a => M (.ok a)) fun e => M (.error e))
    (hok : ∀ a, Spec (M (.ok a)) q (fun _ => Q a) R)
    (herror : ∀ e, Spec (M (.error e)) q (fun _ => R e) fun f => R (e ++ f)) : Spec P (joining p q) Q R := by
  refine Spec.bind (Spec.attempt hp) fun r => ?_
  cases r with
  | ok a =>
      refine Spec.bind (M := fun t w => Ends (fun _ => Q a) R (t, w)) (Spec.attempt (hok a)) fun t => ?_
      cases t with
      | ok _ => exact fun w hw => hw
      | error e => exact fun w hw => hw
  | error e =>
      refine Spec.bind (M := fun t w => Ends (fun _ => R e) (fun f => R (e ++ f)) (t, w)) (Spec.attempt (herror e))
        fun t => ?_
      cases t with
      | ok _ => exact fun w hw => hw
      | error f => exact fun w hw => hw

lemma Spec.onFailure {f : E → Prog E O S α} {M : E → World O S → Prop} (hp : Spec P p Q M)
    (hf : ∀ e, Spec (M e) (f e) Q R) : Spec P (onFailure p f) Q R := by
  refine Spec.bind (M := fun r w => Ends Q M (r, w)) (Spec.attempt hp) fun r => ?_
  cases r with
  | ok a => exact fun w hw => hw
  | error e => exact hf e

end Rules

end Prog

end UrConnect.Lib.Programs
