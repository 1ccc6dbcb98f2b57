import Mathlib.Logic.Function.Basic
import Mathlib.Order.Nat

/-!
# Stores with watched keys

An optimistic transaction watches a key, reads it, and is committed only if the key has not been
written since. The number of writes of each key says whether it has.

## Main definitions

* `WatchedStore κ ν`: the values, and the number of writes of each key
* `WatchedStore.Later`: what any number of writes keeps
* `WatchedStore.UnsetAt`: the key has no value as long as it is not written again

## Main results

* `WatchedStore.UnsetAt.later`: what a transaction has read of a watched key stays so until it
  is committed
-/

structure WatchedStore (κ ν : Type) where
  value : κ → Option ν
  writes : κ → Nat

namespace WatchedStore

variable {κ ν : Type} {s s' s'' : WatchedStore κ ν} {k k' : κ} {v : ν} {n : Nat}

/-- The store after some writes: a key that has not been written has its old value. -/
structure Later (s s' : WatchedStore κ ν) : Prop where
  writes : ∀ k, s.writes k ≤ s'.writes k
  value : ∀ k, s'.writes k = s.writes k → s'.value k = s.value k

theorem Later.rfl : Later s s := ⟨fun _ => le_rfl, fun _ _ => Eq.refl _⟩

theorem Later.trans (h : Later s s') (h' : Later s' s'') : Later s s'' where
  writes k := (h.writes k).trans (h'.writes k)
  value k hk := by
    have hk' : s'.writes k = s.writes k :=
      le_antisymm ((h'.writes k).trans hk.le) (h.writes k)
    exact (h'.value k (hk.trans hk'.symm)).trans (h.value k hk')

/-- The key had been written the given number of times when it had no value. -/
def UnsetAt (n : Nat) (k : κ) (s : WatchedStore κ ν) : Prop :=
  n ≤ s.writes k ∧ (s.writes k = n → s.value k = none)

/-- **A watched key** that had no value has none until it is written. -/
theorem UnsetAt.later (h : s.UnsetAt n k) (hlater : Later s s') : s'.UnsetAt n k := by
  refine ⟨h.1.trans (hlater.writes k), fun hk => ?_⟩
  have hk' : s.writes k = n := le_antisymm ((hlater.writes k).trans hk.le) h.1
  exact (hlater.value k (hk.trans hk'.symm)).trans (h.2 hk')

theorem unsetAt_of_read (hwatched : n ≤ s.writes k) (h : s.value k = none) : s.UnsetAt n k :=
  ⟨hwatched, fun _ => h⟩

variable [DecidableEq κ]

def write (s : WatchedStore κ ν) (k : κ) (v : ν) : WatchedStore κ ν where
  value := Function.update s.value k (some v)
  writes := Function.update s.writes k (s.writes k + 1)

@[simp] theorem value_write_self : (s.write k v).value k = some v := Function.update_self ..

theorem value_write_of_ne (h : k' ≠ k) : (s.write k v).value k' = s.value k' :=
  Function.update_of_ne h ..

@[simp] theorem writes_write_self : (s.write k v).writes k = s.writes k + 1 :=
  Function.update_self ..

theorem writes_write_of_ne (h : k' ≠ k) : (s.write k v).writes k' = s.writes k' :=
  Function.update_of_ne h ..

theorem later_write (s : WatchedStore κ ν) (k : κ) (v : ν) : Later s (s.write k v) where
  writes k' := by
    by_cases h : k' = k
    · subst h
      rw [writes_write_self]
      exact Nat.le_succ _
    · exact (writes_write_of_ne h).ge
  value k' hk := by
    by_cases h : k' = k
    · subst h
      rw [writes_write_self] at hk
      exact absurd hk (Nat.succ_ne_self _)
    · exact value_write_of_ne h

end WatchedStore
