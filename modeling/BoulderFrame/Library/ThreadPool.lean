import BoulderFrame.Library.Interaction
import Mathlib.Logic.Function.Basic

/-!
# Pools of threads

Any number of threads run programs over a shared state, one effect at a time and in any order;
an environment changes the state too, and a thread may stop at any point. If each program, relying
on the others, keeps the invariant and the others' rely relations, then every reachable state has
the invariant.

## Main definitions

* `Pool`: the programs that may start, the effects of each thread, and the environment
* `Pool.Step`, `Pool.Reachable`: the interleavings
* `Discipline`: an invariant, and what each thread may rely on

## Main results

* `Discipline.sound`: the invariant holds in every reachable state
* `Reachable.advance`: a thread may perform any number of its effects
-/

/-- A thread has not started, runs a program, or has stopped. -/
inductive Thread (E : Type) (A : E → Type) (α : Type)
  | ready
  | running (p : Prog E A α)
  | stopped

/-- Which programs a thread may start with, what its effects do, and what the environment does. -/
structure Pool (ι E : Type) (A : E → Type) (α σ : Type) where
  start : ι → σ → Prog E A α → Prop
  sem : ι → (e : E) → σ → A e → σ → Prop
  env : σ → σ → Prop

namespace Pool

variable {ι E : Type} {A : E → Type} {α σ : Type}

/-- An invariant of the shared state, and relations that each thread may rely on. -/
structure Discipline (ι σ : Type) where
  inv : σ → Prop
  rely : ι → σ → σ → Prop
  rely_refl : ∀ i s, rely i s s
  rely_trans : ∀ i s s₁ s₂, rely i s s₁ → rely i s₁ s₂ → rely i s s₂
  /-- what holds of the state until the thread starts -/
  fresh : ι → σ → Prop
  fresh_rely : ∀ i s s', fresh i s → rely i s s' → fresh i s'

/-- The setting of one thread: the others keep the invariant and its rely relation, and it keeps
the invariant and theirs. -/
def Discipline.setting (D : Discipline ι σ) (P : Pool ι E A α σ) (i : ι) :
    Setting E A σ where
  rely s s₁ := D.rely i s s₁ ∧ D.inv s₁
  sem := P.sem i
  guar s s' := D.inv s' ∧ ∀ j ≠ i, D.rely j s s'

/-- The state of a thread fits its program. -/
def Discipline.Fits (D : Discipline ι σ) (P : Pool ι E A α σ) (i : ι) (s : σ) :
    Thread E A α → Prop
  | .ready => D.fresh i s
  | .running p => ∃ s₀, D.rely i s₀ s ∧ p.wp (D.setting P i) (fun _ _ => True) s₀
  | .stopped => True

theorem Discipline.Fits.rely {P : Pool ι E A α σ} {D : Discipline ι σ} {i : ι} {s s' : σ}
    {t : Thread E A α} (h : D.Fits P i s t) (hrely : D.rely i s s') : D.Fits P i s' t := by
  cases t with
  | ready => exact D.fresh_rely i s s' h hrely
  | running p =>
    obtain ⟨s₀, h₀, hp⟩ := h
    exact ⟨s₀, D.rely_trans i s₀ s s' h₀ hrely, hp⟩
  | stopped => trivial

variable [DecidableEq ι]

/-- The threads, and the state that they share. -/
structure Config (ι E : Type) (A : E → Type) (α σ : Type) where
  shared : σ
  threads : ι → Thread E A α

variable (P : Pool ι E A α σ)

/-- One step of the environment, or of one thread. -/
inductive Step (c : Config ι E A α σ) : Config ι E A α σ → Prop
  | env {s'} (h : P.env c.shared s') : Step c { c with shared := s' }
  | start {i p} (hready : c.threads i = .ready) (h : P.start i c.shared p) :
    Step c { c with threads := Function.update c.threads i (.running p) }
  | call {i e k a s'} (hrunning : c.threads i = .running (.call e k))
      (h : P.sem i e c.shared a s') :
    Step c ⟨s', Function.update c.threads i (.running (k a))⟩
  | stop {i p} (hrunning : c.threads i = .running p) :
    Step c { c with threads := Function.update c.threads i .stopped }

/-- The configurations that are reached from a state in which no thread has started. -/
inductive Reachable (s₀ : σ) : Config ι E A α σ → Prop
  | init : Reachable s₀ ⟨s₀, fun _ => .ready⟩
  | step {c c'} (h : Reachable s₀ c) (hstep : P.Step c c') : Reachable s₀ c'

variable {P} (D : Discipline ι σ)

/-- A running thread performs its next effect. -/
theorem Reachable.call {s₀ s s' : σ} {threads : ι → Thread E A α} {i : ι} {e : E}
    {k : A e → Prog E A α} {a : A e}
    (hc : P.Reachable s₀ ⟨s, Function.update threads i (.running (.call e k))⟩)
    (h : P.sem i e s a s') :
    P.Reachable s₀ ⟨s', Function.update threads i (.running (k a))⟩ := by
  have hstep := hc.step (.call (Function.update_self ..) h)
  rwa [Function.update_idem] at hstep

/-- A running thread may perform its next effects. -/
theorem Reachable.advance {s₀ : σ} {c : Config ι E A α σ} (hc : P.Reachable s₀ c) {i : ι}
    {h : (e : E) → σ → A e × σ} (hsem : ∀ e s, P.sem i e s (h e s).1 (h e s).2) (n : Nat)
    {p : Prog E A α} (hi : c.threads i = .running p) :
    P.Reachable s₀ ⟨(p.advance h n c.shared).2,
      Function.update c.threads i (.running (p.advance h n c.shared).1)⟩ := by
  induction n generalizing c p with
  | zero =>
    obtain ⟨shared, threads⟩ := c
    simp only [Prog.advance, ← hi, Function.update_eq_self]
    exact hc
  | succ n ih =>
    cases p with
    | pure a =>
      obtain ⟨shared, threads⟩ := c
      simp only [Prog.advance, ← hi, Function.update_eq_self]
      exact hc
    | call e k =>
      have hstep := hc.step (.call hi (hsem e c.shared))
      have hrun := ih hstep (Function.update_self ..)
      simpa only [Prog.advance, Function.update_idem] using hrun

/-- A thread may start, and perform its first effects. -/
theorem Reachable.launch {s₀ : σ} {c : Config ι E A α σ} (hc : P.Reachable s₀ c) {i : ι}
    {p : Prog E A α} (hready : c.threads i = .ready) (hstart : P.start i c.shared p)
    {h : (e : E) → σ → A e × σ} (hsem : ∀ e s, P.sem i e s (h e s).1 (h e s).2) (n : Nat) :
    P.Reachable s₀ ⟨(p.advance h n c.shared).2,
      Function.update c.threads i (.running (p.advance h n c.shared).1)⟩ := by
  have hrunning : P.Reachable s₀ ⟨c.shared, Function.update c.threads i (.running p)⟩ :=
    hc.step (.start hready hstart)
  have hrun := hrunning.advance hsem n (Function.update_self ..)
  simpa only [Function.update_idem] using hrun

/-- A thread may be overtaken: it performs some effects, the environment acts, another thread
performs effects, and the first one goes on. -/
theorem Reachable.overtaken {s₀ s : σ} {i j : ι} (hij : i ≠ j) {p q : Prog E A α}
    {h h' : (e : E) → σ → A e × σ} (hsem : ∀ e s, P.sem i e s (h e s).1 (h e s).2)
    (hsem' : ∀ e s, P.sem j e s (h' e s).1 (h' e s).2) (hp : P.start i s₀ p) (hq : P.start j s q)
    (n m n' : Nat) (henv : P.env (p.advance h n s₀).2 s) : ∃ c, P.Reachable s₀ c ∧
      c.shared = ((p.advance h n s₀).1.advance h n' (q.advance h' m s).2).2 := by
  have hfirst := (Reachable.init : P.Reachable s₀ _).launch rfl hp hsem n
  have hsecond := (hfirst.step (.env henv)).launch (Function.update_of_ne hij.symm ..) hq hsem' m
  refine ⟨_, hsecond.advance hsem n' ?_, rfl⟩
  exact (Function.update_of_ne hij ..).trans (Function.update_self ..)

/-- **Soundness of rely and guarantee.** If the environment keeps the invariant and everything that
is relied on, and every program that starts is correct in the setting of its thread, then the
invariant holds in every reachable configuration. -/
theorem Discipline.sound (henv : ∀ s s', D.inv s → P.env s s' → D.inv s' ∧ ∀ i, D.rely i s s')
    (hstart : ∀ i s p, D.inv s → D.fresh i s → P.start i s p →
      p.wp (D.setting P i) (fun _ _ => True) s)
    {s₀ : σ} (hinv : D.inv s₀) (hfresh : ∀ i, D.fresh i s₀) {c : Config ι E A α σ}
    (hc : P.Reachable s₀ c) : D.inv c.shared ∧ ∀ i, D.Fits P i c.shared (c.threads i) := by
  induction hc with
  | init => exact ⟨hinv, hfresh⟩
  | @step c c' _ hstep ih =>
    obtain ⟨hinv, hfits⟩ := ih
    cases hstep with
    | env h =>
      obtain ⟨hinv', hrely⟩ := henv _ _ hinv h
      exact ⟨hinv', fun i => (hfits i).rely (hrely i)⟩
    | @start i p hready h =>
      refine ⟨hinv, fun j => ?_⟩
      by_cases hj : j = i
      · subst hj
        have hf := hfits j
        rw [hready] at hf
        simp only [Function.update_self]
        exact ⟨c.shared, D.rely_refl j _, hstart j _ p hinv hf h⟩
      · simpa only [Function.update_of_ne hj] using hfits j
    | @call i e k a s' hrunning h =>
      have hf := hfits i
      rw [hrunning] at hf
      obtain ⟨s₁, hrely, hp⟩ := hf
      obtain ⟨⟨hinv', hothers⟩, hk⟩ := hp _ ⟨hrely, hinv⟩ a s' h
      refine ⟨hinv', fun j => ?_⟩
      by_cases hj : j = i
      · subst hj
        simp only [Function.update_self]
        exact ⟨s', D.rely_refl j s', hk⟩
      · simp only [Function.update_of_ne hj]
        exact (hfits j).rely (hothers j hj)
    | @stop i p hrunning =>
      refine ⟨hinv, fun j => ?_⟩
      by_cases hj : j = i
      · subst hj
        simp only [Function.update_self]
        trivial
      · simpa only [Function.update_of_ne hj] using hfits j

end Pool
