import BoulderFrame.Library.Interaction

/-!
# Routines: programs with local variables and exceptions

A routine reads and writes its local variables, performs effects, and returns or raises. What it
has written to its variables stays when it raises, also in the handler of the exception.

## Main definitions

* `Routine E A ε ℓ α`: routines with effects `E`, exceptions `ε` and variables `ℓ`
* `Routine.raise`, `Routine.handle`, `Routine.ensure`: exceptions, their handlers, and cleaning up
* `Routine.perform`, `Routine.call`, `Routine.scope`: effects, effects that may raise, and a routine
  with variables of its own
* `Routine.outcome`, `Routine.inl`: the outcome as a value, and a routine among further effects
* `Routine.wp`: the weakest precondition of a routine
* `Routine.Returns`: the runs of a routine that return

## Main results

* `Routine.wp_bind`, `Routine.wp_handle`, `Routine.wp_perform`: the rules of the weakest
  precondition
* `Routine.Returns.bind`, `Routine.Returns.handle`, `Routine.Returns.ensure`: how returns compose
-/

/-- From its variables, a routine is a program that returns or raises, with new values of them. -/
def Routine (E : Type) (A : E → Type) (ε ℓ α : Type) := ℓ → Prog E A (Except ε α × ℓ)

namespace Routine

variable {E : Type} {A : E → Type} {ε ℓ ℓ' α β σ : Type}

instance : Monad (Routine E A ε ℓ) where
  pure a := fun l => .pure (.ok a, l)
  bind m f := fun l => (m l).bind fun
    | (.ok a, l) => f a l
    | (.error e, l) => .pure (.error e, l)

def raise (e : ε) : Routine E A ε ℓ α := fun l => .pure (.error e, l)

/-- The handler runs if the routine raises, with the variables as the routine left them. -/
def handle (m : Routine E A ε ℓ α) (h : ε → Routine E A ε ℓ α) : Routine E A ε ℓ α := fun l =>
  (m l).bind fun
    | (.ok a, l) => .pure (.ok a, l)
    | (.error e, l) => h e l

/-- The cleanup runs however the routine ends; what it raises takes the place of its outcome. -/
def ensure (m : Routine E A ε ℓ α) (cleanup : Routine E A ε ℓ Unit) : Routine E A ε ℓ α := fun l =>
  (m l).bind fun (r, l) => (cleanup l).bind fun
    | (.ok _, l) => .pure (r, l)
    | (.error e, l) => .pure (.error e, l)

def get : Routine E A ε ℓ ℓ := fun l => .pure (.ok l, l)

def modify (f : ℓ → ℓ) : Routine E A ε ℓ Unit := fun l => .pure (.ok (), f l)

def ofExcept (x : Except ε α) : Routine E A ε ℓ α := fun l => .pure (x, l)

/-- One effect, with its answer. -/
def perform (e : E) : Routine E A ε ℓ (A e) := fun l => .call e fun a => .pure (.ok a, l)

/-- One effect that answers or raises. -/
def call (e : E) (h : A e = Except ε α) : Routine E A ε ℓ α := fun l =>
  .call e fun a => .pure (cast h a, l)

/-- A routine with variables of its own. -/
def scope (l' : ℓ') (m : Routine E A ε ℓ' α) : Routine E A ε ℓ α := fun l =>
  (m l').bind fun r => .pure (r.1, l)

/-- The outcome of a routine as a value: what it returns or raises. -/
def outcome (m : Routine E A ε ℓ' α) (l' : ℓ') : Routine E A ε ℓ (Except ε α) := fun l =>
  (m l').bind fun r => .pure (.ok r.1, l)

/-- A routine among further effects. -/
def inl {F : Type} {B : F → Type} (m : Routine E A ε ℓ α) :
    Routine (E ⊕ F) (Sum.elim A B) ε ℓ α := fun l => (m l).inl

/-- The weakest precondition of a routine, from its variables and the state. -/
def wp (T : Setting E A σ) (m : Routine E A ε ℓ α) (Q : Except ε α → ℓ → σ → Prop) (l : ℓ) (s : σ) :
    Prop :=
  (m l).wp T (fun r => Q r.1 r.2) s

variable {T : Setting E A σ} {m : Routine E A ε ℓ α} {Q Q' : Except ε α → ℓ → σ → Prop} {l : ℓ}
  {s : σ}

@[simp] theorem wp_pure {a : α} : wp T (pure a : Routine E A ε ℓ α) Q l s ↔ Q (.ok a) l s := Iff.rfl

@[simp] theorem wp_raise {e : ε} : wp T (raise e : Routine E A ε ℓ α) Q l s ↔ Q (.error e) l s :=
  Iff.rfl

@[simp] theorem wp_get {Q : Except ε ℓ → ℓ → σ → Prop} :
    wp T (get : Routine E A ε ℓ ℓ) Q l s ↔ Q (.ok l) l s := Iff.rfl

@[simp] theorem wp_modify {f : ℓ → ℓ} {Q : Except ε Unit → ℓ → σ → Prop} :
    wp T (modify f : Routine E A ε ℓ Unit) Q l s ↔ Q (.ok ()) (f l) s := Iff.rfl

@[simp] theorem wp_ofExcept {x : Except ε α} :
    wp T (ofExcept x : Routine E A ε ℓ α) Q l s ↔ Q x l s := Iff.rfl

theorem wp_perform {e : E} {Q : Except ε (A e) → ℓ → σ → Prop} :
    wp T (perform e : Routine E A ε ℓ (A e)) Q l s ↔ ∀ s₁, T.rely s s₁ → ∀ a s₂,
      T.sem e s₁ a s₂ → T.guar s₁ s₂ ∧ Q (.ok a) l s₂ := Iff.rfl

theorem wp_call {e : E} {h : A e = Except ε α} :
    wp T (call e h : Routine E A ε ℓ α) Q l s ↔ ∀ s₁, T.rely s s₁ → ∀ a s₂,
      T.sem e s₁ a s₂ → T.guar s₁ s₂ ∧ Q (cast h a) l s₂ := Iff.rfl

/-- **Sequencing**: an exception ends the routine. -/
@[simp] theorem wp_bind {f : α → Routine E A ε ℓ β} {Q : Except ε β → ℓ → σ → Prop} :
    wp T (m >>= f) Q l s ↔ wp T m (fun
      | .ok a => wp T (f a) Q
      | .error e => Q (.error e)) l s := by
  refine Prog.wp_bind.trans ⟨Prog.wp_mono ?_, Prog.wp_mono ?_⟩
  · rintro ⟨_ | _, _⟩ _ h <;> exact h
  · rintro ⟨_ | _, _⟩ _ h <;> exact h

theorem wp_get_bind {f : ℓ → Routine E A ε ℓ α} :
    wp T (get >>= f) Q l s ↔ wp T (f l) Q l s := by
  rw [wp_bind, wp_get]

theorem wp_modify_bind {f : ℓ → ℓ} {k : Unit → Routine E A ε ℓ α} :
    wp T (modify f >>= k) Q l s ↔ wp T (k ()) Q (f l) s := by
  rw [wp_bind, wp_modify]

/-- **Handling**: an exception goes on with its handler. -/
@[simp] theorem wp_handle {h : ε → Routine E A ε ℓ α} :
    wp T (m.handle h) Q l s ↔ wp T m (fun
      | .ok a => Q (.ok a)
      | .error e => wp T (h e) Q) l s := by
  refine Prog.wp_bind.trans ⟨Prog.wp_mono ?_, Prog.wp_mono ?_⟩
  · rintro ⟨_ | _, _⟩ _ h <;> exact h
  · rintro ⟨_ | _, _⟩ _ h <;> exact h

/-- **Cleaning up.** -/
@[simp] theorem wp_ensure {cleanup : Routine E A ε ℓ Unit} :
    wp T (m.ensure cleanup) Q l s ↔ wp T m (fun r => wp T cleanup (fun
      | .ok _ => Q r
      | .error e => Q (.error e))) l s := by
  refine Prog.wp_bind.trans ⟨Prog.wp_mono fun r s h => ?_, Prog.wp_mono fun r s h => ?_⟩
  · refine Prog.wp_mono ?_ (Prog.wp_bind.mp h)
    rintro ⟨_ | _, _⟩ _ h <;> exact h
  · refine Prog.wp_bind.mpr (Prog.wp_mono ?_ h)
    rintro ⟨_ | _, _⟩ _ h <;> exact h

/-- A cleanup that does not raise keeps the outcome. -/
theorem wp_ensure_of {cleanup : Routine E A ε ℓ Unit} {P : Except ε α → ℓ → σ → Prop}
    (hm : wp T m P l s) (hcleanup : ∀ r l s, P r l s →
      wp T cleanup (fun c l' s' => c = .ok () ∧ Q r l' s') l s) : wp T (m.ensure cleanup) Q l s := by
  rw [wp_ensure]
  refine Prog.wp_mono (fun r s h => Prog.wp_mono ?_ (hcleanup r.1 r.2 s h)) hm
  rintro ⟨c, l'⟩ s' ⟨hc, hQ⟩
  obtain rfl : c = .ok () := hc
  exact hQ

/-- A handler of all that may be raised. -/
theorem wp_handle_of {h : ε → Routine E A ε ℓ α} {P : Except ε α → ℓ → σ → Prop} (hm : wp T m P l s)
    (hok : ∀ a l s, P (.ok a) l s → Q (.ok a) l s)
    (herror : ∀ e l s, P (.error e) l s → wp T (h e) Q l s) : wp T (m.handle h) Q l s := by
  rw [wp_handle]
  refine Prog.wp_mono ?_ hm
  rintro ⟨_ | _, _⟩ _ hP
  · exact herror _ _ _ hP
  · exact hok _ _ _ hP

/-- Going on from what is returned. -/
theorem wp_bind_of {f : α → Routine E A ε ℓ β} {Q : Except ε β → ℓ → σ → Prop}
    {P : Except ε α → ℓ → σ → Prop} (hm : wp T m P l s)
    (hok : ∀ a l s, P (.ok a) l s → wp T (f a) Q l s)
    (herror : ∀ e l s, P (.error e) l s → Q (.error e) l s) : wp T (m >>= f) Q l s := by
  rw [wp_bind]
  refine Prog.wp_mono ?_ hm
  rintro ⟨_ | _, _⟩ _ hP
  · exact herror _ _ _ hP
  · exact hok _ _ _ hP

@[simp] theorem wp_scope {l' : ℓ'} {m : Routine E A ε ℓ' α} :
    wp T (scope l' m) Q l s ↔ wp T m (fun r _ => Q r l) l' s := by
  exact Prog.wp_bind

@[simp] theorem wp_outcome {l' : ℓ'} {m : Routine E A ε ℓ' α}
    {Q : Except ε (Except ε α) → ℓ → σ → Prop} :
    wp T (outcome m l') Q l s ↔ wp T m (fun r _ => Q (.ok r) l) l' s := by
  exact Prog.wp_bind

/-- **Consequence.** -/
theorem wp_mono (hQ : ∀ r l s, Q r l s → Q' r l s) (h : wp T m Q l s) : wp T m Q' l s :=
  Prog.wp_mono (fun r s => hQ r.1 r.2 s) h

/-- A routine in a setting with further effects and a larger state. -/
theorem wp_inl {F τ : Type} {B : F → Type} {T' : Setting (E ⊕ F) (Sum.elim A B) τ} {π : τ → σ}
    {I : τ → Prop} (hrely : ∀ t t₁, I t → T'.rely t t₁ → T.rely (π t) (π t₁) ∧ I t₁)
    (hsem : ∀ e t a t', I t → T'.sem (.inl e) t a t' →
      T.sem e (π t) a (π t') ∧ (T.guar (π t) (π t') → T'.guar t t') ∧ I t')
    {t : τ} (ht : I t) (h : wp T m Q l (π t)) :
    wp T' (inl m : Routine (E ⊕ F) (Sum.elim A B) ε ℓ α) (fun r l t' => Q r l (π t') ∧ I t') l t :=
  Prog.wp_inl hrely hsem ht h

/-! ## Returns -/

/-- A run of the routine returns the value, and leaves the variables and the state as given. -/
def Returns (T : Setting E A σ) (m : Routine E A ε ℓ α) (l : ℓ) (s : σ) (a : α) (l' : ℓ) (s' : σ) :
    Prop :=
  Prog.Run T (m l) s (.ok a, l') s'

namespace Returns

variable {a : α} {b : β} {l₁ l₂ : ℓ} {s₁ s₂ : σ}

theorem pure : Returns T (Pure.pure a : Routine E A ε ℓ α) l s a l s := Prog.Run.pure

theorem get : Returns T (Routine.get : Routine E A ε ℓ ℓ) l s l l s := Prog.Run.pure

theorem modify {f : ℓ → ℓ} : Returns T (Routine.modify f : Routine E A ε ℓ Unit) l s () (f l) s :=
  Prog.Run.pure

theorem ofExcept {x : Except ε α} (h : x = .ok a) :
    Returns T (Routine.ofExcept x : Routine E A ε ℓ α) l s a l s := by
  subst h
  exact Prog.Run.pure

/-- An effect, behind which the environment does nothing, and its answer. -/
theorem perform {e : E} {answer : A e} (hrely : T.rely s s) (hsem : T.sem e s answer s₁) :
    Returns T (Routine.perform e : Routine E A ε ℓ (A e)) l s answer l s₁ :=
  Prog.Run.call hrely hsem .pure

theorem call {e : E} {h : A e = Except ε α} {answer : A e} (hrely : T.rely s s)
    (hsem : T.sem e s answer s₁) (hok : cast h answer = .ok a) :
    Returns T (Routine.call e h : Routine E A ε ℓ α) l s a l s₁ := by
  refine Prog.Run.call hrely hsem ?_
  rw [hok]
  exact .pure

theorem bind {f : α → Routine E A ε ℓ β} (hm : Returns T m l s a l₁ s₁)
    (hf : Returns T (f a) l₁ s₁ b l₂ s₂) : Returns T (m >>= f) l s b l₂ s₂ :=
  Prog.Run.bind hm hf

theorem handle {h : ε → Routine E A ε ℓ α} (hm : Returns T m l s a l₁ s₁) :
    Returns T (m.handle h) l s a l₁ s₁ :=
  Prog.Run.bind hm .pure

theorem ensure {cleanup : Routine E A ε ℓ Unit} (hm : Returns T m l s a l₁ s₁)
    (hcleanup : Returns T cleanup l₁ s₁ () l₂ s₂) : Returns T (m.ensure cleanup) l s a l₂ s₂ :=
  Prog.Run.bind hm (Prog.Run.bind hcleanup .pure)

theorem scope {m : Routine E A ε ℓ' α} {l₁' l₂' : ℓ'} (hm : Returns T m l₁' s a l₂' s₁) :
    Returns T (Routine.scope l₁' m : Routine E A ε ℓ α) l s a l s₁ :=
  Prog.Run.bind hm .pure

end Returns

end Routine
