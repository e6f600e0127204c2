import TornadoRelayer.RunLog

/-! What each request of a process has asked, was answered and has done so far: the journal
of a run, and a rule for operations that are guarded by it. -/
namespace EventLoop

variable {I : Interface} {ρ σ Env Reset : Type}

/-! ### The journal of a run -/

/-- The programs that were called and their logs, by request. -/
structure Journal (I : Interface) (ρ : Type) where
  called : Nat → Option (Program I ρ)
  logs : Nat → List (Logged I)

def Journal.empty : Journal I ρ := ⟨fun _ => none, fun _ => []⟩

def Journal.add (h : Journal I ρ) (i : Nat) (e : Logged I) : Journal I ρ :=
  { h with logs := Function.update h.logs i (h.logs i ++ [e]) }

theorem Journal.add_self (h : Journal I ρ) (i : Nat) (e : Logged I) :
    (h.add i e).logs i = h.logs i ++ [e] := Function.update_self ..

theorem Journal.add_of_ne {h : Journal I ρ} {i j : Nat} {e : Logged I} (other : j ≠ i) :
    (h.add i e).logs j = h.logs j := Function.update_of_ne other _ _

/-- The log of the request is a whole run of its program, with this outcome. -/
def Journal.Ended (h : Journal I ρ) (i : Nat) (r : Except I.Error ρ) : Prop :=
  ∃ p, h.called i = some p ∧ p.Runs (h.logs i) r

variable (m : Process I ρ σ Env Reset) (P : Permits I ρ σ Env Reset)

/-- The journal after a step from this configuration. A process that stops takes it along. -/
def Process.record : Step I ρ Env Reset → Config I ρ σ → Journal I ρ → Journal I ρ
  | .call p, c, h => { h with called := Function.update h.called c.fresh (some p) }
  | .advance fault, ⟨world, _, some (i,.perform op _), _⟩, h =>
    h.add i (.performed op (m.exec fault op world).2)
  | .resume i answer, c, h =>
    match c.waiting i with
    | some t => h.add i (.answered t.query (answer t.query))
    | none => h
  | .reset _, _, _ => .empty
  | _, _, h => h

/-- Runs with their journal. -/
inductive Told (world : σ) : Config I ρ σ → Journal I ρ → Prop where
  | start : Told world (Config.initial world) .empty
  | step {c c' : Config I ρ σ} {h : Journal I ρ} {s : Step I ρ Env Reset} : Told world c h →
    P.step c s → m.step s c = some c' → Told world c' (m.record s c h)

/-! ### A program part of the way -/

/-- With this log the program has come to the other one. -/
inductive Program.Reaches : Program I α → List (Logged I) → Program I α → Prop where
  | here (p : Program I α) : Reaches p [] p
  | await {query next log p'} (r : Except I.Error (I.Answer query)) :
    Reaches (next r) log p' → Reaches (.await query next) (.answered query r :: log) p'
  | perform {op next log p'} (result : I.Result op) :
    Reaches (next result) log p' → Reaches (.perform op next) (.performed op result :: log) p'

variable {p p' : Program I α} {log : List (Logged I)}

theorem Program.Reaches.trans {p'' : Program I α} {later : List (Logged I)}
    (first : p.Reaches log p') (second : p'.Reaches later p'') : p.Reaches (log ++ later) p'' := by
  induction first with
  | here => exact second
  | await r _ ih => exact .await r (ih second)
  | perform result _ ih => exact .perform result (ih second)

theorem Program.Reaches.runs {r : Except I.Error α} (reached : p.Reaches log (.done r)) :
    p.Runs log r := by
  generalize done : Program.done r = last at reached
  induction reached with
  | here => exact done ▸ .done r
  | await answer _ ih => exact .await answer (ih done)
  | perform result _ ih => exact .perform result (ih done)

/-! ### Guarded operations -/

/-- What may be done when, and what may pass before an operation. -/
structure Guard (I : Interface) (σ : Type) where
  may : List (Logged I) → I.Op → σ → Prop
  tick : σ → σ → Prop

/-- Each operation of the program is guarded, whatever the world is after an await, and it
ends with `Q`. -/
def Program.Guarded (exec : Bool → (op : I.Op) → σ → σ × I.Result op) (G : Guard I σ)
    (Q : Except I.Error α → List (Logged I) → σ → Prop) :
    Program I α → List (Logged I) → σ → Prop
  | .done r, log, s => ∀ s', G.tick s s' → Q r log s'
  | .await query next, log, _ => ∀ r s', (next r).Guarded exec G Q (log ++ [.answered query r]) s'
  | .perform op next, log, s => ∀ fault s', G.tick s s' → G.may log op s' ∧
    (next (exec fault op s').2).Guarded exec G Q
      (log ++ [.performed op (exec fault op s').2]) (exec fault op s').1

structure Guard.Framed (G : Guard I σ) : Prop where
  refl : ∀ s, G.tick s s
  trans : ∀ {s s' s''}, G.tick s s' → G.tick s' s'' → G.tick s s''

variable {exec : Bool → (op : I.Op) → σ → σ × I.Result op} {G : Guard I σ} {s s' : σ}

theorem Program.Guarded.tick (framed : G.Framed)
    {Q : Except I.Error α → List (Logged I) → σ → Prop} (guarded : p.Guarded exec G Q log s)
    (passed : G.tick s s') : p.Guarded exec G Q log s' := by
  cases p with
  | done r => exact fun s'' later => guarded s'' (framed.trans passed later)
  | await query next => exact guarded
  | perform op next => exact fun fault s'' later => guarded fault s'' (framed.trans passed later)

theorem guarded_done {Q : Except I.Error α → List (Logged I) → σ → Prop} {r : Except I.Error α}
    (holds : ∀ s', G.tick s s' → Q r log s') : (Program.done r).Guarded exec G Q log s := holds

theorem guarded_act {op : I.Op} {Q : Except I.Error (I.Result op) → List (Logged I) → σ → Prop}
    (step : ∀ fault s', G.tick s s' → G.may log op s' ∧ ∀ s'', G.tick (exec fault op s').1 s'' →
      Q (.ok (exec fault op s').2) (log ++ [.performed op (exec fault op s').2]) s'') :
    (act op).Guarded exec G Q log s := step

theorem guarded_mono {Q Q' : Except I.Error α → List (Logged I) → σ → Prop}
    (guarded : p.Guarded exec G Q log s) (weaker : ∀ r log s, Q r log s → Q' r log s) :
    p.Guarded exec G Q' log s := by
  induction p generalizing log s with
  | done r => exact fun s' passed => weaker r log s' (guarded s' passed)
  | await query next ih => exact fun r s' => ih r (guarded r s')
  | perform op next ih =>
    intro fault s' passed
    obtain ⟨may,later⟩ := guarded fault s' passed
    exact ⟨may,ih _ later⟩

theorem guarded_bind (framed : G.Framed) {Q : Except I.Error β → List (Logged I) → σ → Prop}
    {f : α → Program I β}
    (guarded : p.Guarded exec G (fun r log s => match r with
      | .ok a => (f a).Guarded exec G Q log s
      | .error e => ∀ s', G.tick s s' → Q (.error e) log s') log s) :
    (p >>= f).Guarded exec G Q log s := by
  induction p generalizing log s with
  | done r =>
    have now := guarded s (framed.refl s)
    cases r with
    | ok a => exact now
    | error e => exact now
  | await query next ih => exact fun r s' => ih r (guarded r s')
  | perform op next ih =>
    intro fault s' passed
    obtain ⟨may,later⟩ := guarded fault s' passed
    exact ⟨may,ih _ later⟩

theorem guarded_catching (framed : G.Framed)
    {Q : Except I.Error α → List (Logged I) → σ → Prop} {handler : I.Error → Program I α}
    (guarded : p.Guarded exec G (fun r log s => match r with
      | .ok a => ∀ s', G.tick s s' → Q (.ok a) log s'
      | .error e => (handler e).Guarded exec G Q log s) log s) :
    (p.catching handler).Guarded exec G Q log s := by
  induction p generalizing log s with
  | done r =>
    have now := guarded s (framed.refl s)
    cases r with
    | ok a => exact now
    | error e => exact now
  | await query next ih => exact fun r s' => ih r (guarded r s')
  | perform op next ih =>
    intro fault s' passed
    obtain ⟨may,later⟩ := guarded fault s' passed
    exact ⟨may,ih _ later⟩

/-- What a log says it keeps saying. -/
theorem guarded_keep {Q : Except I.Error α → List (Logged I) → σ → Prop}
    {J : List (Logged I) → Prop} (grows : ∀ log e, J log → J (log ++ [e])) (now : J log)
    (guarded : p.Guarded exec G Q log s) :
    p.Guarded exec G (fun r log s => Q r log s ∧ J log) log s := by
  induction p generalizing log s with
  | done r => exact fun s' passed => ⟨guarded s' passed,now⟩
  | await query next ih => exact fun r s' => ih r (grows _ _ now) (guarded r s')
  | perform op next ih =>
    intro fault s' passed
    obtain ⟨may,later⟩ := guarded fault s' passed
    exact ⟨may,ih _ (grows _ _ now) later⟩

theorem guarded_quiet {silent : I.Op → Prop} (free : ∀ log op s, silent op → G.may log op s)
    (quiet : p.Quiet silent) : p.Guarded exec G (fun _ _ _ => True) log s := by
  induction p generalizing log s with
  | done r => exact fun _ _ => trivial
  | await query next ih => exact fun r s' => ih r (quiet r)
  | perform op next ih => exact fun fault s' _ => ⟨free log op s' quiet.1,ih _ (quiet.2 _)⟩

/-! ### Every run -/

/-- The journal explains the configuration. -/
structure Explained (m : Process I ρ σ Env Reset) (G : Guard I σ) (c : Config I ρ σ)
    (h : Journal I ρ) : Prop where
  fresh : ∀ i, c.fresh ≤ i → h.logs i = []
  waiting : ∀ i t, c.waiting i = some t → i < c.fresh ∧
    (∃ p, h.called i = some p ∧ p.Reaches (h.logs i) (.await t.query t.next)) ∧
    (Program.await t.query t.next).Guarded m.exec G (fun _ _ _ => True) (h.logs i) c.world
  current : ∀ i p', c.current = some (i,p') → i < c.fresh ∧ c.waiting i = none ∧
    (∃ p, h.called i = some p ∧ p.Reaches (h.logs i) p') ∧
    p'.Guarded m.exec G (fun _ _ _ => True) (h.logs i) c.world

/-- The guards of every request, and of what passes meanwhile. -/
structure Guard.Sound (G : Guard I σ) (m : Process I ρ σ Env Reset)
    (P : Permits I ρ σ Env Reset) : Prop extends G.Framed where
  env : ∀ e s, P.env s e → G.tick s (m.env e s)
  call : ∀ s p, P.call s p → p.Guarded m.exec G (fun _ _ _ => True) [] s

variable {m P} {h : Journal I ρ} {c c' : Config I ρ σ}

/-- A request that comes in has asked nothing yet. -/
theorem Explained.call {world : σ} {waiting : Nat → Option (Waiting I ρ σ)} {fresh : Nat}
    {p : Program I ρ} (now : Explained m G ⟨world, waiting, none, fresh⟩ h)
    (guarded : p.Guarded m.exec G (fun _ _ _ => True) [] world) :
    Explained m G ⟨world, waiting, some (fresh,p), fresh + 1⟩
      { h with called := Function.update h.called fresh (some p) } := by
  obtain ⟨unused,waits,_⟩ := now
  refine ⟨fun i le => unused i (Nat.le_of_succ_le le),?_,?_⟩
  · intro i t found
    obtain ⟨old,reached,later⟩ := waits i t found
    refine ⟨Nat.lt_succ_of_lt old,?_,later⟩
    simp only [Function.update_of_ne (Nat.ne_of_lt old)]
    exact reached
  · rintro i p' ⟨⟩
    have blank : h.logs fresh = [] := unused fresh (Nat.le_refl _)
    refine ⟨Nat.lt_succ_self _,?_,⟨p,Function.update_self ..,?_⟩,?_⟩
    · cases found : waiting fresh with
      | none => exact found
      | some t => exact absurd (waits fresh t found).1 (Nat.lt_irrefl _)
    · exact blank ▸ .here p
    · exact blank ▸ guarded

/-- A request that awaits goes on with the log it has. -/
theorem Explained.await {world : σ} {waiting : Nat → Option (Waiting I ρ σ)} {fresh i : Nat}
    {query : I.Query} {next : Except I.Error (I.Answer query) → Program I ρ}
    (now : Explained m G ⟨world, waiting, some (i,.await query next), fresh⟩ h) :
    Explained m G
      ⟨world, Function.update waiting i (some ⟨world,query,next⟩), none, fresh⟩ h := by
  obtain ⟨unused,waits,runs⟩ := now
  obtain ⟨old,_,reached,guarded⟩ := runs i _ rfl
  refine ⟨unused,?_,by simp⟩
  intro j t found
  rcases update_eq_some.mp found with ⟨rfl,⟨⟩⟩ | ⟨_,found⟩
  · exact ⟨old,reached,guarded⟩
  · exact waits j t found

/-- The request that goes on is in nobody's log but its own. -/
theorem Explained.perform (sound : G.Sound m P) {world : σ}
    {waiting : Nat → Option (Waiting I ρ σ)} {fresh i : Nat} {op : I.Op}
    {next : I.Result op → Program I ρ} (fault : Bool)
    (now : Explained m G ⟨world, waiting, some (i,.perform op next), fresh⟩ h) :
    Explained m G ⟨(m.exec fault op world).1, waiting,
        some (i,next (m.exec fault op world).2), fresh⟩
      (h.add i (.performed op (m.exec fault op world).2)) := by
  obtain ⟨unused,waits,runs⟩ := now
  obtain ⟨old,idle,⟨p,called,reached⟩,guarded⟩ := runs i _ rfl
  refine ⟨fun j le => ?_,?_,?_⟩
  · rw [Journal.add_of_ne (Nat.ne_of_gt (Nat.lt_of_lt_of_le old le))]
    exact unused j le
  · intro j t found
    have other : j ≠ i := by
      rintro rfl
      exact absurd (idle.symm.trans found) (by simp)
    rw [Journal.add_of_ne other]
    exact waits j t found
  · rintro j p' ⟨⟩
    rw [Journal.add_self]
    exact ⟨old,idle,⟨p,called,reached.trans (.perform _ (.here _))⟩,
      (guarded fault world (sound.refl world)).2⟩

theorem Explained.resume {world : σ} {waiting : Nat → Option (Waiting I ρ σ)} {fresh i : Nat}
    {t : Waiting I ρ σ} (r : Except I.Error (I.Answer t.query)) (found : waiting i = some t)
    (now : Explained m G ⟨world, waiting, none, fresh⟩ h) :
    Explained m G ⟨world, Function.update waiting i none, some (i,t.next r), fresh⟩
      (h.add i (.answered t.query r)) := by
  obtain ⟨unused,waits,_⟩ := now
  obtain ⟨old,⟨p,called,reached⟩,guarded⟩ := waits i t found
  refine ⟨fun j le => ?_,?_,?_⟩
  · rw [Journal.add_of_ne (Nat.ne_of_gt (Nat.lt_of_lt_of_le old le))]
    exact unused j le
  · intro j t' found'
    rcases update_eq_some.mp found' with ⟨_,⟨⟩⟩ | ⟨other,old'⟩
    rw [Journal.add_of_ne other]
    exact waits j t' old'
  · rintro j p' ⟨⟩
    rw [Journal.add_self]
    exact ⟨old,Function.update_self ..,⟨p,called,reached.trans (.await _ (.here _))⟩,
      guarded _ world⟩

theorem step_explained (sound : G.Sound m P) {step : Step I ρ Env Reset}
    (now : Explained m G c h) (permitted : P.step c step) (stepped : m.step step c = some c') :
    Explained m G c' (m.record step c h) := by
  obtain ⟨world,waiting,current,fresh⟩ := c
  cases step with
  | call p =>
    cases current with
    | some running => contradiction
    | none =>
      cases stepped
      exact now.call (sound.call world p permitted)
  | advance fault =>
    cases current with
    | none => contradiction
    | some running =>
      obtain ⟨i,p'⟩ := running
      cases p' with
      | done r =>
        cases stepped
        exact ⟨now.fresh,fun j t found => now.waiting j t found,by simp⟩
      | await query next =>
        cases stepped
        exact now.await
      | perform op next =>
        cases stepped
        exact now.perform sound fault
  | resume i answer =>
    cases current with
    | some running => contradiction
    | none =>
      obtain ⟨t,found,moved⟩ := Option.map_eq_some_iff.mp stepped
      cases moved
      simp only [Process.record,found]
      exact now.resume (answer t.query) found
  | env e =>
    cases stepped
    refine ⟨now.fresh,fun i t found => now.waiting i t found,?_⟩
    intro i p' running
    obtain ⟨old,idle,reached,guarded⟩ := now.current i p' running
    exact ⟨old,idle,reached,guarded.tick sound.toFramed (sound.env e world permitted)⟩
  | reset r =>
    cases stepped
    exact ⟨fun _ _ => rfl,by simp,by simp⟩

theorem Told.explained (sound : G.Sound m P) {world : σ} (told : Told m P world c h) :
    Explained m G c h := by
  induction told with
  | start => exact ⟨fun _ _ => rfl,by simp [Config.initial],by simp [Config.initial]⟩
  | step _ permitted stepped ih => exact step_explained sound ih permitted stepped

/-- A request that has come to its end is a run of its program. -/
theorem Told.ended (sound : G.Sound m P) {world : σ} (told : Told m P world c h) {i : Nat}
    {r : Except I.Error ρ} (returning : c.current = some (i,.done r)) : h.Ended i r := by
  obtain ⟨_,_,⟨p,called,reached⟩,_⟩ := (told.explained sound).current i _ returning
  exact ⟨p,called,reached.runs⟩

/-- An operation that comes next is guarded. -/
theorem Explained.may {op : I.Op} {next : I.Result op → Program I ρ} (now : Explained m G c h)
    (framed : G.Framed) {i : Nat} (running : c.current = some (i,.perform op next)) :
    G.may (h.logs i) op c.world :=
  ((now.current i _ running).2.2.2 false c.world (framed.refl _)).1

-- From here on a program is shown guarded by the rules only.
attribute [irreducible] Program.Guarded

end EventLoop
