import Mathlib.Logic.Relation

/-!
# Programs with effects, in an interfering environment

A program returns a value, or performs an effect and goes on from its answer. Before each effect
its environment may act. The weakest precondition says what a program does in a setting: what it
may rely on of the environment, what its effects do, and what it guarantees about each of them.

## Main definitions

* `Prog E A α`: programs with effects `E` that are answered in `A`
* `Setting`: the rely relation, the meaning of the effects, and the guarantee
* `Prog.wp`: the weakest precondition in a setting
* `Prog.Run`: the runs of a program in a setting
* `Prog.advance`, `Prog.execute`: the execution of some effects of a program, and of all
* `Prog.inl`: a program among further effects
* `Prog.Only`: the effects that a program may perform have a property

## Main results

* `Prog.wp_bind`, `Prog.wp_mono`, `Prog.wp_related`: the rules of the weakest precondition
* `Prog.wp_run`: every run meets the postcondition
* `Prog.exists_run`: a program runs to its end if every effect has an answer
* `Prog.Run.bind`, `Prog.Run.inl`: how runs compose
* `Prog.wp_inl`: a program in a setting with further effects and a larger state
-/

/-- A program that returns, or performs an effect and goes on from its answer. -/
inductive Prog (E : Type) (A : E → Type) (α : Type)
  | pure (a : α)
  | call (e : E) (k : A e → Prog E A α)

/-- What a program may rely on of its environment, what its effects do, and what it guarantees. -/
structure Setting (E : Type) (A : E → Type) (σ : Type) where
  rely : σ → σ → Prop
  sem : (e : E) → σ → A e → σ → Prop
  guar : σ → σ → Prop

namespace Prog

variable {E F : Type} {A : E → Type} {B : F → Type} {α β σ τ : Type}

def bind : Prog E A α → (α → Prog E A β) → Prog E A β
  | pure a, f => f a
  | call e k, f => call e fun a => (k a).bind f

instance : Monad (Prog E A) where
  pure := pure
  bind := bind

/-- One effect. -/
def perform (e : E) : Prog E A (A e) := call e pure

/-- A program among further effects. -/
def inl : Prog E A α → Prog (E ⊕ F) (Sum.elim A B) α
  | pure a => pure a
  | call e k => call (.inl e) fun a => (k a).inl

/-- The program performs effects with the given property only. -/
def Only (P : E → Prop) : Prog E A α → Prop
  | pure _ => True
  | call e k => P e ∧ ∀ a, (k a).Only P

/-- The program and the state after some effects, each of which is performed as given. -/
def advance (h : (e : E) → σ → A e × σ) : Nat → Prog E A α → σ → Prog E A α × σ
  | n + 1, call e k, s => advance h n (k (h e s).1) (h e s).2
  | _, p, s => (p, s)

/-- The result and the state of a program each of whose effects is performed as given. -/
def execute (h : (e : E) → σ → A e × σ) : Prog E A α → σ → α × σ
  | pure a, s => (a, s)
  | call e k, s => execute h (k (h e s).1) (h e s).2

/-- The state after an execution. -/
def after (h : (e : E) → σ → A e × σ) (p : Prog E A α) (s : σ) : σ := (p.execute h s).2

theorem only_bind {P : E → Prop} {p : Prog E A α} {f : α → Prog E A β} (hp : p.Only P)
    (hf : ∀ a, (f a).Only P) : (p.bind f).Only P := by
  induction p with
  | pure a => exact hf a
  | call e k ih => exact ⟨hp.1, fun a => ih a (hp.2 a)⟩

theorem only_ite {P : E → Prop} {c : Prop} [Decidable c] {p q : Prog E A α} (hp : p.Only P)
    (hq : q.Only P) : (if c then p else q).Only P := by
  split
  · exact hp
  · exact hq

theorem only_inl {P : E ⊕ F → Prop} {p : Prog E A α} (hp : p.Only fun e => P (.inl e)) :
    (p.inl : Prog (E ⊕ F) (Sum.elim A B) α).Only P := by
  induction p with
  | pure a => trivial
  | call e k ih => exact ⟨hp.1, fun a => ih a (hp.2 a)⟩

/-! ## The weakest precondition -/

/-- In every run from the state, each effect meets the guarantee and the result `Q`. -/
def wp (T : Setting E A σ) : Prog E A α → (α → σ → Prop) → σ → Prop
  | pure a, Q => Q a
  | call e k, Q => fun s => ∀ s₁, T.rely s s₁ → ∀ a s₂, T.sem e s₁ a s₂ →
      T.guar s₁ s₂ ∧ (k a).wp T Q s₂

variable {T : Setting E A σ} {Q Q' : α → σ → Prop} {s s' : σ}

@[simp] theorem wp_pure {a : α} : wp T (pure a : Prog E A α) Q s ↔ Q a s := Iff.rfl

theorem wp_call {e : E} {k : A e → Prog E A α} : wp T (call e k) Q s ↔
    ∀ s₁, T.rely s s₁ → ∀ a s₂, T.sem e s₁ a s₂ → T.guar s₁ s₂ ∧ (k a).wp T Q s₂ := Iff.rfl

/-- **Sequencing.** -/
theorem wp_bind {p : Prog E A α} {f : α → Prog E A β} {Q : β → σ → Prop} :
    wp T (p.bind f) Q s ↔ wp T p (fun a => wp T (f a) Q) s := by
  induction p generalizing s with
  | pure a => exact Iff.rfl
  | call e k ih =>
    refine forall₂_congr fun s₁ _ => forall₃_congr fun a s₂ _ => and_congr_right fun _ => ?_
    exact ih a

/-- **Consequence.** -/
theorem wp_mono {p : Prog E A α} (hQ : ∀ a s, Q a s → Q' a s) (h : p.wp T Q s) : p.wp T Q' s := by
  induction p generalizing s with
  | pure a => exact hQ a s h
  | call e k ih =>
    intro s₁ hrely a s₂ hsem
    obtain ⟨hguar, hk⟩ := h s₁ hrely a s₂ hsem
    exact ⟨hguar, ih a hk⟩

/-- **Framing.** A relation of all steps relates the states before and after the program. -/
theorem wp_related {R : σ → σ → Prop} (hrefl : ∀ s, R s s)
    (htrans : ∀ s s₁ s₂, R s s₁ → R s₁ s₂ → R s s₂) (hrely : ∀ s s₁, T.rely s s₁ → R s s₁)
    (hsem : ∀ e s a s₁, T.sem e s a s₁ → R s s₁) {p : Prog E A α} (h : p.wp T Q s) :
    p.wp T (fun a s' => Q a s' ∧ R s s') s := by
  have hall : ∀ s₁, R s s₁ → p.wp T Q s₁ → p.wp T (fun a s' => Q a s' ∧ R s s') s₁ := by
    clear h
    induction p with
    | pure a => exact fun s₁ hs₁ hQ => ⟨hQ, hs₁⟩
    | call e k ih =>
      intro s₁ hs₁ hp s₂ hr a s₃ hs
      obtain ⟨hguar, hk⟩ := hp s₂ hr a s₃ hs
      have hs₃ := htrans s s₂ s₃ (htrans s s₁ s₂ hs₁ (hrely s₁ s₂ hr)) (hsem e s₂ a s₃ hs)
      exact ⟨hguar, ih a s₃ hs₃ hk⟩
  exact hall s (hrefl s) h

/-- A program in a setting with further effects and a larger state, of which `π` is the part that
the program's effects are about: a property `F` of the whole state that every step keeps holds at
its end. -/
theorem wp_inl {T : Setting E A σ} {T' : Setting (E ⊕ F) (Sum.elim A B) τ} {π : τ → σ}
    {I : τ → Prop} (hrely : ∀ t t₁, I t → T'.rely t t₁ → T.rely (π t) (π t₁) ∧ I t₁)
    (hsem : ∀ e t a t', I t → T'.sem (.inl e) t a t' →
      T.sem e (π t) a (π t') ∧ (T.guar (π t) (π t') → T'.guar t t') ∧ I t')
    {p : Prog E A α} {t : τ} (ht : I t) (h : p.wp T Q (π t)) :
    (p.inl : Prog (E ⊕ F) (Sum.elim A B) α).wp T' (fun a t' => Q a (π t') ∧ I t') t := by
  induction p generalizing t with
  | pure a => exact ⟨h, ht⟩
  | call e k ih =>
    intro t₁ hr a t₂ hs
    obtain ⟨hr, ht₁⟩ := hrely t t₁ ht hr
    obtain ⟨hs, hg, ht₂⟩ := hsem e t₁ a t₂ ht₁ hs
    obtain ⟨hguar, hk⟩ := h (π t₁) hr a (π t₂) hs
    exact ⟨hg hguar, ih a ht₂ hk⟩

/-! ## Runs -/

/-- The runs of a program in a setting, with the environment's steps before each effect. -/
inductive Run (T : Setting E A σ) : Prog E A α → σ → α → σ → Prop
  | pure {a s} : Run T (.pure a) s a s
  | call {e k s s₁ a s₂ b s'} (hrely : T.rely s s₁) (hsem : T.sem e s₁ a s₂)
      (hrun : Run T (k a) s₂ b s') : Run T (.call e k) s b s'

/-- **Soundness.** Every run from the weakest precondition ends in the postcondition. -/
theorem wp_run {p : Prog E A α} {a : α} (h : p.wp T Q s) (hrun : Run T p s a s') : Q a s' := by
  induction hrun with
  | pure => exact h
  | call hrely hsem _ ih => exact ih (h _ hrely _ _ hsem).2

/-- **Runs compose.** -/
theorem Run.bind {p : Prog E A α} {f : α → Prog E A β} {a : α} {b : β} {s₁ s₂ : σ}
    (hp : Run T p s a s₁) (hf : Run T (f a) s₁ b s₂) : Run T (p.bind f) s b s₂ := by
  induction hp with
  | pure => exact hf
  | call hrely hsem _ ih => exact .call hrely hsem (ih hf)

/-- A run is one among further effects, in a larger state. -/
theorem Run.inl {T' : Setting (E ⊕ F) (Sum.elim A B) τ} {up : σ → τ}
    (hrely : ∀ s s₁, T.rely s s₁ → T'.rely (up s) (up s₁))
    (hsem : ∀ e s a s₁, T.sem e s a s₁ → T'.sem (.inl e) (up s) a (up s₁)) {p : Prog E A α} {a : α}
    (h : Run T p s a s') :
    Run T' (p.inl : Prog (E ⊕ F) (Sum.elim A B) α) (up s) a (up s') := by
  induction h with
  | pure => exact .pure
  | call hr hs _ ih => exact .call (hrely _ _ hr) (hsem _ _ _ _ hs) ih

/-- An execution is a run, if the environment may do nothing and every effect may be so. -/
theorem run_execute {h : (e : E) → σ → A e × σ} (hrely : ∀ s, T.rely s s)
    (hsem : ∀ e s, T.sem e s (h e s).1 (h e s).2) (p : Prog E A α) (s : σ) :
    Run T p s (p.execute h s).1 (p.after h s) := by
  induction p generalizing s with
  | pure a => exact .pure
  | call e k ih => exact .call (hrely s) (hsem e s) (ih _ _)

/-- **Termination.** A program has a run from every state if the environment may do nothing and
every effect has an answer. -/
theorem exists_run (hrely : ∀ s, T.rely s s) (hsem : ∀ e s, ∃ a s', T.sem e s a s')
    (p : Prog E A α) (s : σ) : ∃ a s', Run T p s a s' := by
  induction p generalizing s with
  | pure a => exact ⟨a, s, .pure⟩
  | call e k ih =>
    obtain ⟨a, s₁, h⟩ := hsem e s
    obtain ⟨b, s', hrun⟩ := ih a s₁
    exact ⟨b, s', .call (hrely s) h hrun⟩

end Prog
