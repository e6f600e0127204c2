import TornadoRelayer.EventLoop

/-! What one run of a program asked, was answered and did, in order. -/
namespace EventLoop

variable {I : Interface}

inductive Logged (I : Interface) where
  | answered (query : I.Query) (r : Except I.Error (I.Answer query))
  | performed (op : I.Op) (result : I.Result op)

/-- The runs of a program: any answers, any results. -/
inductive Program.Runs : Program I α → List (Logged I) → Except I.Error α → Prop where
  | done (r : Except I.Error α) : Runs (.done r) [] r
  | await {query next log out} (r : Except I.Error (I.Answer query)) :
    Runs (next r) log out → Runs (.await query next) (.answered query r :: log) out
  | perform {op next log out} (result : I.Result op) :
    Runs (next result) log out → Runs (.perform op next) (.performed op result :: log) out

/-- The log of the run with these answers and results. -/
def Program.trace (answer : (query : I.Query) → Except I.Error (I.Answer query))
    (result : (op : I.Op) → I.Result op) : Program I α → List (Logged I)
  | .done _ => []
  | .await query next => .answered query (answer query) :: (next (answer query)).trace answer result
  | .perform op next => .performed op (result op) :: (next (result op)).trace answer result

theorem runs_trace (answer : (query : I.Query) → Except I.Error (I.Answer query))
    (result : (op : I.Op) → I.Result op) (p : Program I α) :
    p.Runs (p.trace answer result) (p.eval answer result) := by
  induction p with
  | done r => exact .done r
  | await query next ih => exact .await (answer query) (ih _)
  | perform op next ih => exact .perform (result op) (ih _)

/-- In such a log every query has its answer. -/
theorem trace_answered {answer : (query : I.Query) → Except I.Error (I.Answer query)}
    {result : (op : I.Op) → I.Result op} {p : Program I α} {query : I.Query}
    {r : Except I.Error (I.Answer query)} (member : .answered query r ∈ p.trace answer result) :
    r = answer query := by
  induction p with
  | done out => cases member
  | await asked next ih =>
    rcases List.mem_cons.mp member with same | later
    · cases same
      rfl
    · exact ih _ later
  | perform op next ih =>
    rcases List.mem_cons.mp member with same | later
    · cases same
    · exact ih _ later

variable {log : List (Logged I)}

theorem runs_done {r out : Except I.Error α} (ran : (Program.done r).Runs log out) :
    log = [] ∧ out = r := by
  cases ran
  exact ⟨rfl,rfl⟩

theorem runs_ask {query : I.Query} {out : Except I.Error (I.Answer query)}
    (ran : (ask query).Runs log out) : log = [.answered query out] := by
  cases ran with
  | await r later =>
    obtain ⟨rfl,rfl⟩ := runs_done later
    rfl

theorem runs_act {op : I.Op} {out : Except I.Error (I.Result op)} (ran : (act op).Runs log out) :
    ∃ result, out = .ok result ∧ log = [.performed op result] := by
  cases ran with
  | perform result later =>
    obtain ⟨rfl,rfl⟩ := runs_done later
    exact ⟨result,rfl,rfl⟩

/-- A run that goes on after the first program, or ends with its error. -/
theorem runs_bind {p : Program I α} {f : α → Program I β} {out : Except I.Error β}
    (ran : (p >>= f).Runs log out) :
    (∃ a first rest, p.Runs first (.ok a) ∧ (f a).Runs rest out ∧ log = first ++ rest) ∨
    ∃ e, p.Runs log (.error e) ∧ out = .error e := by
  induction p generalizing log with
  | done r =>
    cases r with
    | ok a => exact .inl ⟨a,[],log,.done _,ran,rfl⟩
    | error e =>
      obtain ⟨rfl,rfl⟩ := runs_done ran
      exact .inr ⟨e,.done _,rfl⟩
  | await query next ih =>
    cases ran with
    | await r later =>
      rcases ih r later with ⟨a,first,rest,began,ended,rfl⟩ | ⟨e,failed,rfl⟩
      · exact .inl ⟨a,_,rest,.await r began,ended,rfl⟩
      · exact .inr ⟨e,.await r failed,rfl⟩
  | perform op next ih =>
    cases ran with
    | perform result later =>
      rcases ih result later with ⟨a,first,rest,began,ended,rfl⟩ | ⟨e,failed,rfl⟩
      · exact .inl ⟨a,_,rest,.perform result began,ended,rfl⟩
      · exact .inr ⟨e,.perform result failed,rfl⟩

theorem runs_bind_ok {p : Program I α} {f : α → Program I β} {b : β}
    (ran : (p >>= f).Runs log (.ok b)) :
    ∃ a first rest, p.Runs first (.ok a) ∧ (f a).Runs rest (.ok b) ∧ log = first ++ rest := by
  rcases runs_bind ran with went | ⟨e,_,failed⟩
  · exact went
  · contradiction

/-- A run that succeeds, or whose error the handler takes over. -/
theorem runs_catching {p : Program I α} {handler : I.Error → Program I α}
    {out : Except I.Error α} (ran : (p.catching handler).Runs log out) :
    (∃ a, out = .ok a ∧ p.Runs log (.ok a)) ∨
    ∃ e first rest, p.Runs first (.error e) ∧ (handler e).Runs rest out ∧ log = first ++ rest := by
  induction p generalizing log with
  | done r =>
    cases r with
    | ok a =>
      obtain ⟨rfl,rfl⟩ := runs_done ran
      exact .inl ⟨a,rfl,.done _⟩
    | error e => exact .inr ⟨e,[],log,.done _,ran,rfl⟩
  | await query next ih =>
    cases ran with
    | await r later =>
      rcases ih r later with ⟨a,rfl,went⟩ | ⟨e,first,rest,failed,handled,rfl⟩
      · exact .inl ⟨a,rfl,.await r went⟩
      · exact .inr ⟨e,_,rest,.await r failed,handled,rfl⟩
  | perform op next ih =>
    cases ran with
    | perform result later =>
      rcases ih result later with ⟨a,rfl,went⟩ | ⟨e,first,rest,failed,handled,rfl⟩
      · exact .inl ⟨a,rfl,.perform result went⟩
      · exact .inr ⟨e,_,rest,.perform result failed,handled,rfl⟩

/-- A settled program runs as before and always returns. -/
theorem runs_settled_iff {f : Except I.Error α → β} {p : Program I α} {out : Except I.Error β} :
    (p.settled f).Runs log out ↔ ∃ r, p.Runs log r ∧ out = .ok (f r) := by
  constructor
  · intro ran
    rcases runs_catching ran with ⟨b,rfl,went⟩ | ⟨e,first,rest,failed,handled,rfl⟩
    · obtain ⟨a,first,rest,began,ended,rfl⟩ := runs_bind_ok went
      obtain ⟨rfl,returned⟩ := runs_done ended
      rw [List.append_nil]
      exact ⟨.ok a,began,returned⟩
    · obtain ⟨rfl,returned⟩ := runs_done handled
      rw [List.append_nil]
      rcases runs_bind failed with ⟨a,_,_,_,ended,_⟩ | ⟨thrown,began,same⟩
      · obtain ⟨_,impossible⟩ := runs_done ended
        cases impossible
      · cases same
        exact ⟨.error e,began,returned⟩
  · rintro ⟨r,ran,rfl⟩
    induction ran with
    | done r => cases r <;> exact .done _
    | await answer _ ih => exact .await answer ih
    | perform result _ ih => exact .perform result ih

/-- No run of the program returns. -/
def Program.Fails (p : Program I α) : Prop := ∀ log a, ¬p.Runs log (.ok a)

/-- A handler that never returns adds no way to succeed. -/
theorem runs_catching_ok {p : Program I α} {handler : I.Error → Program I α} {a : α}
    (ran : (p.catching handler).Runs log (.ok a)) (fails : ∀ e, (handler e).Fails) :
    p.Runs log (.ok a) := by
  rcases runs_catching ran with ⟨_,same,went⟩ | ⟨e,_,rest,_,handled,_⟩
  · exact same ▸ went
  · exact absurd handled (fails e rest a)

theorem runs_returns {p : Program I α} {r : Except I.Error α} (ran : p.Runs log r) :
    p.Returns (fun query answer => .answered query answer ∈ log) r := by
  suffices from_ : ∀ {later : List (Logged I)}, log ⊆ later →
      p.Returns (fun query answer => .answered query answer ∈ later) r from from_ fun _ => id
  induction ran with
  | done r => exact fun _ => .done r
  | await answer _ ih =>
    intro later sub
    exact .await answer (sub (List.mem_cons_self ..)) (ih fun e member => sub (List.mem_cons_of_mem _ member))
  | perform result _ ih =>
    intro later sub
    exact .perform result (ih fun e member => sub (List.mem_cons_of_mem _ member))

/-! ### What every run of a program logs -/

/-- Everything a run of the program asks or does satisfies `P`. -/
def Program.Logs (P : Logged I → Prop) (p : Program I α) : Prop :=
  ∀ log out, p.Runs log out → ∀ e ∈ log, P e

variable {P : Logged I → Prop}

theorem logs_done (r : Except I.Error α) : (Program.done r).Logs P := by
  intro log out ran e member
  obtain ⟨rfl,_⟩ := runs_done ran
  cases member

theorem logs_ask {query : I.Query} (each : ∀ r, P (.answered query r)) : (ask query).Logs P := by
  intro log out ran e member
  rw [runs_ask ran] at member
  rw [List.mem_singleton.mp member]
  exact each out

theorem logs_act {op : I.Op} (each : ∀ result, P (.performed op result)) : (act op).Logs P := by
  intro log out ran e member
  obtain ⟨result,_,rfl⟩ := runs_act ran
  rw [List.mem_singleton.mp member]
  exact each result

theorem logs_bind {p : Program I α} {f : α → Program I β} (first : p.Logs P)
    (later : ∀ a, (f a).Logs P) : (p >>= f).Logs P := by
  intro log out ran e member
  rcases runs_bind ran with ⟨a,began,rest,start,next,rfl⟩ | ⟨_,failed,_⟩
  · rcases List.mem_append.mp member with early | late
    · exact first _ _ start e early
    · exact later a _ _ next e late
  · exact first _ _ failed e member

/-- What is only computed logs nothing, and is known in what follows. -/
theorem logs_done_bind {r : Except I.Error α} {f : α → Program I β}
    (later : ∀ a, r = .ok a → (f a).Logs P) : (Program.done r >>= f).Logs P := by
  cases r with
  | error e => exact logs_done _
  | ok a => exact later a rfl

/-- What the first program never logs is logged after it. -/
theorem runs_bind_reached {p : Program I α} {f : α → Program I β} {out : Except I.Error β}
    {e : Logged I} (ran : (p >>= f).Runs log out) (never : p.Logs (¬P ·)) (member : e ∈ log)
    (holds : P e) : ∃ a first rest, p.Runs first (.ok a) ∧ (f a).Runs rest out ∧
      log = first ++ rest ∧ e ∈ rest := by
  rcases runs_bind ran with ⟨a,first,rest,began,ended,rfl⟩ | ⟨_,failed,_⟩
  · rcases List.mem_append.mp member with early | late
    · exact absurd holds (never _ _ began e early)
    · exact ⟨a,first,rest,began,ended,rfl,late⟩
  · exact absurd holds (never _ _ failed e member)

theorem logs_catching {p : Program I α} {handler : I.Error → Program I α} (first : p.Logs P)
    (later : ∀ e, (handler e).Logs P) : (p.catching handler).Logs P := by
  intro log out ran e member
  rcases runs_catching ran with ⟨a,rfl,went⟩ | ⟨thrown,began,rest,failed,handled,rfl⟩
  · exact first _ _ went e member
  · rcases List.mem_append.mp member with early | late
    · exact first _ _ failed e early
    · exact later thrown _ _ handled e late

theorem logs_quiet {silent : I.Op → Prop} {p : Program I α} (quiet : p.Quiet silent) :
    p.Logs fun e => ∀ op result, e = .performed op result → silent op := by
  intro log out ran
  induction ran with
  | done r => simp
  | await r _ ih =>
    rintro e member op result rfl
    rcases List.mem_cons.mp member with same | later
    · cases same
    · exact ih (quiet r) _ later op result rfl
  | perform result _ ih =>
    rintro e member op result' rfl
    rcases List.mem_cons.mp member with same | later
    · cases same
      exact quiet.1
    · exact ih (quiet.2 result) _ later op result' rfl

/-! ### Programs that no failed answer gets through -/

/-- A run that returns had no failed answer. -/
def Program.Strict (p : Program I α) : Prop :=
  ∀ log a, p.Runs log (.ok a) → ∀ query e, Logged.answered query (.error e) ∉ log

theorem fails_error (e : I.Error) : (Program.done (.error e) : Program I α).Fails := by
  intro log a ran
  obtain ⟨_,returned⟩ := runs_done ran
  exact absurd returned.symm (by simp)

theorem fails_bind {p : Program I α} {f : α → Program I β} (later : ∀ a, (f a).Fails) :
    (p >>= f).Fails := by
  intro log b ran
  obtain ⟨a,_,rest,_,ended,_⟩ := runs_bind_ok ran
  exact later a rest b ended

theorem strict_done (r : Except I.Error α) : (Program.done r).Strict := by
  intro log a ran query e member
  obtain ⟨rfl,_⟩ := runs_done ran
  cases member

theorem strict_ask (query : I.Query) : (ask query : Program I (I.Answer query)).Strict := by
  intro log a ran other e member
  rw [runs_ask ran] at member
  cases List.mem_singleton.mp member

theorem strict_act (op : I.Op) : (act op : Program I (I.Result op)).Strict := by
  intro log a ran query e member
  obtain ⟨result,_,rfl⟩ := runs_act ran
  cases List.mem_singleton.mp member

theorem strict_bind {p : Program I α} {f : α → Program I β} (first : p.Strict)
    (later : ∀ a, (f a).Strict) : (p >>= f).Strict := by
  intro log b ran query e member
  obtain ⟨a,_,_,began,ended,rfl⟩ := runs_bind_ok ran
  rcases List.mem_append.mp member with early | late
  · exact first _ a began query e early
  · exact later a _ b ended query e late

/-- The handler may do as it likes, as long as it does not return. -/
theorem strict_catching {p : Program I α} {handler : I.Error → Program I α} (first : p.Strict)
    (fails : ∀ e, (handler e).Fails) : (p.catching handler).Strict := by
  intro log a ran query e
  exact first _ a (runs_catching_ok ran fails) query e

end EventLoop
