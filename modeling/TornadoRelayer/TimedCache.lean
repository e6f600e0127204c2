import Mathlib.Logic.Relation

/-! A cache in a system with a clock: each entry carries the time at which it was computed.
Whoever may recompute entries, and in whatever order, an entry is what the computation gave
at that time. -/
namespace TimedCache

variable {σ κ ν : Type}

structure Cache (σ κ ν : Type) where
  clock : σ → Nat
  value : σ → κ → ν
  written : σ → κ → Nat
  computes : σ → κ → ν → Prop

/-- The entry of a key stays, or is computed anew. -/
structure Cache.Writes (c : Cache σ κ ν) (s s' : σ) (k : κ) : Prop where
  now : c.written s' k = c.clock s
  value : c.computes s k (c.value s' k)

/-- Time does not run backwards, and entries change by computing them. -/
structure Cache.Keeps (c : Cache σ κ ν) (step : σ → σ → Prop) : Prop where
  clock : ∀ {s s'}, step s s' → c.clock s ≤ c.clock s'
  entry : ∀ {s s'} k, step s s' →
    (c.written s' k = c.written s k ∧ c.value s' k = c.value s k) ∨ c.Writes s s' k

/-- In a state between the two, at that time, the computation gave this value. -/
def Cache.GaveAt (c : Cache σ κ ν) (step : σ → σ → Prop) (start s : σ) (time : Nat) (k : κ) (v : ν) :
    Prop :=
  ∃ e, Relation.ReflTransGen step start e ∧ Relation.ReflTransGen step e s ∧ c.clock e = time ∧
    c.computes e k v

variable {c : Cache σ κ ν} {step : σ → σ → Prop} {start s s' : σ} {k : κ} {v : ν} {time limit : Nat}

theorem Cache.GaveAt.later (gave : c.GaveAt step start s time k v) (stepped : step s s') :
    c.GaveAt step start s' time k v := by
  obtain ⟨e,reached,left,clock,computed⟩ := gave
  exact ⟨e,reached,left.tail stepped,clock,computed⟩

theorem Cache.Keeps.clock_le (keeps : c.Keeps step) (run : Relation.ReflTransGen step s s') :
    c.clock s ≤ c.clock s' := by
  induction run with
  | refl => exact Nat.le_refl _
  | tail _ stepped ih => exact Nat.le_trans ih (keeps.clock stepped)

/-- An entry is the one of the start, or what the computation gave when it was written. -/
theorem Cache.Keeps.entry_of (keeps : c.Keeps step) (run : Relation.ReflTransGen step start s) (k : κ) :
    (c.written s k = c.written start k ∧ c.value s k = c.value start k) ∨
      c.GaveAt step start s (c.written s k) k (c.value s k) := by
  induction run with
  | refl => exact .inl ⟨rfl,rfl⟩
  | tail before stepped ih =>
    rcases keeps.entry k stepped with ⟨same,kept⟩ | wrote
    · rw [same,kept]
      rcases ih with first | gave
      · exact .inl first
      · exact .inr (gave.later stepped)
    · right
      exact ⟨_,before,.single stepped,wrote.now.symm,wrote.value⟩

theorem Cache.Keeps.written_le (keeps : c.Keeps step) (run : Relation.ReflTransGen step start s)
    (old : c.written start k ≤ c.clock start) : c.written s k ≤ c.clock s := by
  rcases keeps.entry_of run k with ⟨same,_⟩ | ⟨e,_,left,clock,_⟩
  · exact same ▸ Nat.le_trans old (keeps.clock_le run)
  · exact clock ▸ keeps.clock_le left

/-- An entry young enough was computed that recently, when the first entries are too old. -/
theorem Cache.Keeps.recent (keeps : c.Keeps step) (run : Relation.ReflTransGen step start s)
    (old : c.written start k + limit < c.clock start)
    (young : c.clock s ≤ c.written s k + limit) :
    ∃ time, c.clock s ≤ time + limit ∧ c.GaveAt step start s time k (c.value s k) := by
  have later := keeps.clock_le run
  rcases keeps.entry_of run k with ⟨same,_⟩ | gave
  · omega
  · exact ⟨_,young,gave⟩

end TimedCache
