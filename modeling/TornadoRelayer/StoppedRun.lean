import TornadoRelayer.EventLoop

/-! A program that awaits nothing, run by itself. Any operation may fail, and the process
may stop between any two of them. -/
namespace EventLoop

variable {I : Interface} {σ : Type}

/-- `none` is the outcome of a run that was stopped. -/
inductive Program.Executes (exec : Bool → (op : I.Op) → σ → σ × I.Result op) :
    Program I α → σ → σ → Option (Except I.Error α) → Prop where
  | stopped (p : Program I α) (s : σ) : Executes exec p s s none
  | done (r : Except I.Error α) (s : σ) : Executes exec (.done r) s s (some r)
  | perform {op next s s' r} (fault : Bool) :
    Executes exec (next (exec fault op s).2) (exec fault op s).1 s' r →
    Executes exec (.perform op next) s s' r

variable {exec : Bool → (op : I.Op) → σ → σ × I.Result op} {s s' : σ}

theorem executes_done {r : Except I.Error α} {out : Option (Except I.Error α)}
    (ran : (Program.done r).Executes exec s s' out) : s' = s ∧ (out = none ∨ out = some r) := by
  cases ran with
  | stopped => exact ⟨rfl,.inl rfl⟩
  | done => exact ⟨rfl,.inr rfl⟩

/-- An operation that comes first is done, or the run was stopped before it. -/
theorem executes_act_bind {op : I.Op} {f : I.Result op → Program I α}
    {out : Option (Except I.Error α)} (ran : (act op >>= f).Executes exec s s' out) :
    (s' = s ∧ out = none) ∨
    ∃ fault, (f (exec fault op s).2).Executes exec (exec fault op s).1 s' out := by
  cases ran with
  | stopped => exact .inl ⟨rfl,rfl⟩
  | perform fault later => exact .inr ⟨fault,later⟩

theorem executes_act {op : I.Op} {out : Option (Except I.Error (I.Result op))}
    (ran : (act op).Executes exec s s' out) :
    (s' = s ∧ out = none) ∨
    ∃ fault, s' = (exec fault op s).1 ∧ (out = none ∨ out = some (.ok (exec fault op s).2)) := by
  cases ran with
  | stopped => exact .inl ⟨rfl,rfl⟩
  | perform fault later =>
    obtain ⟨rfl,out⟩ := executes_done later
    exact .inr ⟨fault,rfl,out⟩

/-- The first program is stopped, or fails, or hands over to the second. -/
theorem executes_bind {p : Program I α} {f : α → Program I β} {out : Option (Except I.Error β)}
    (ran : (p >>= f).Executes exec s s' out) :
    (p.Executes exec s s' none ∧ out = none) ∨
    (∃ e, p.Executes exec s s' (some (.error e)) ∧ out = some (.error e)) ∨
    ∃ a middle, p.Executes exec s middle (some (.ok a)) ∧ (f a).Executes exec middle s' out := by
  induction p generalizing s with
  | done r =>
    cases r with
    | ok a => exact .inr (.inr ⟨a,s,.done _ _,ran⟩)
    | error e =>
      obtain ⟨rfl,rfl | rfl⟩ := executes_done ran
      · exact .inl ⟨.stopped _ _,rfl⟩
      · exact .inr (.inl ⟨e,.done _ _,rfl⟩)
  | await query next _ =>
    cases ran with
    | stopped => exact .inl ⟨.stopped _ _,rfl⟩
  | perform op next ih =>
    cases ran with
    | stopped => exact .inl ⟨.stopped _ _,rfl⟩
    | perform fault later =>
      rcases ih _ later with ⟨stopped,rfl⟩ | ⟨e,failed,rfl⟩ | ⟨a,middle,first,rest⟩
      · exact .inl ⟨.perform fault stopped,rfl⟩
      · exact .inr (.inl ⟨e,.perform fault failed,rfl⟩)
      · exact .inr (.inr ⟨a,middle,.perform fault first,rest⟩)

end EventLoop
