import Mathlib.Logic.Function.Basic

/-! One single-threaded process serving many requests. A program runs until it awaits
something; others run while it waits; the process may stop between any two operations.
The rule at the end proves an invariant of all runs from a proof of each program alone. -/
namespace EventLoop

/-- What programs await, what they do at once, and what they throw. -/
structure Interface where
  Query : Type
  Answer : Query → Type
  Op : Type
  Result : Op → Type
  Error : Type

inductive Program (I : Interface) (α : Type) where
  | done (outcome : Except I.Error α)
  | await (query : I.Query) (next : Except I.Error (I.Answer query) → Program I α)
  | perform (op : I.Op) (next : I.Result op → Program I α)

variable {I : Interface}

def Program.bind : Program I α → (α → Program I β) → Program I β
  | .done (.ok a), f => f a
  | .done (.error e), _ => .done (.error e)
  | .await query next, f => .await query fun r => (next r).bind f
  | .perform op next, f => .perform op fun r => (next r).bind f

/-- `try` the program, `catch` what it throws. -/
def Program.catching : Program I α → (I.Error → Program I α) → Program I α
  | .done (.ok a), _ => .done (.ok a)
  | .done (.error e), handler => handler e
  | .await query next, handler => .await query fun r => (next r).catching handler
  | .perform op next, handler => .perform op fun r => (next r).catching handler

/-- The program with its outcome, an error too, made into a value. -/
def Program.settled (f : Except I.Error α → β) (p : Program I α) : Program I β :=
  (p.bind fun a => .done (.ok (f (.ok a)))).catching fun e => .done (.ok (f (.error e)))

instance : Monad (Program I) where
  pure a := .done (.ok a)
  bind := Program.bind

instance : MonadExcept I.Error (Program I) where
  throw e := .done (.error e)
  tryCatch := Program.catching

instance : MonadLift (Except I.Error) (Program I) where
  monadLift := .done

def ask (query : I.Query) : Program I (I.Answer query) := .await query .done

def act (op : I.Op) : Program I (I.Result op) := .perform op fun r => .done (.ok r)

/-! ### What a program can do -/

/-- The outcomes of a program whose queries get such answers; its operations may result
in anything. -/
inductive Program.Returns (answers : (query : I.Query) → Except I.Error (I.Answer query) → Prop) :
    Program I α → Except I.Error α → Prop where
  | done (r : Except I.Error α) : Returns answers (.done r) r
  | await {query next r} (answer : Except I.Error (I.Answer query)) : answers query answer →
    Returns answers (next answer) r → Returns answers (.await query next) r
  | perform {op next r} (result : I.Result op) : Returns answers (next result) r →
    Returns answers (.perform op next) r

variable {answers : (query : I.Query) → Except I.Error (I.Answer query) → Prop}

theorem returns_done {r r' : Except I.Error α} (returned : (Program.done r).Returns answers r') :
    r' = r := by
  cases returned
  rfl

theorem returns_ask {query : I.Query} {r : Except I.Error (I.Answer query)}
    (returned : (ask query).Returns answers r) : answers query r := by
  cases returned with
  | await answer permitted later => exact returns_done later ▸ permitted

theorem returns_bind {p : Program I α} {f : α → Program I β} {b : β}
    (returned : (p >>= f).Returns answers (.ok b)) :
    ∃ a, p.Returns answers (.ok a) ∧ (f a).Returns answers (.ok b) := by
  induction p with
  | done r =>
    cases r with
    | ok a => exact ⟨a,.done _,returned⟩
    | error e => cases returned
  | await query next ih =>
    cases returned with
    | await answer permitted later =>
      obtain ⟨a,first,rest⟩ := ih answer later
      exact ⟨a,.await answer permitted first,rest⟩
  | perform op next ih =>
    cases returned with
    | perform result later =>
      obtain ⟨a,first,rest⟩ := ih result later
      exact ⟨a,.perform result first,rest⟩

theorem returns_catching {p : Program I α} {handler : I.Error → Program I α} {a : α}
    (returned : (p.catching handler).Returns answers (.ok a)) :
    p.Returns answers (.ok a) ∨ ∃ e, (handler e).Returns answers (.ok a) := by
  induction p with
  | done r =>
    cases r with
    | ok b => exact .inl returned
    | error e => exact .inr ⟨e,returned⟩
  | await query next ih =>
    cases returned with
    | await answer permitted later => exact (ih answer later).imp_left (.await answer permitted)
  | perform op next ih =>
    cases returned with
    | perform result later => exact (ih result later).imp_left (.perform result)

/-- The outcome with these answers and results. -/
def Program.eval (answer : (query : I.Query) → Except I.Error (I.Answer query))
    (result : (op : I.Op) → I.Result op) : Program I α → Except I.Error α
  | .done r => r
  | .await query next => (next (answer query)).eval answer result
  | .perform op next => (next (result op)).eval answer result

theorem returns_eval {answer : (query : I.Query) → Except I.Error (I.Answer query)}
    (permitted : ∀ query, answers query (answer query)) (result : (op : I.Op) → I.Result op)
    (p : Program I α) : p.Returns answers (p.eval answer result) := by
  induction p with
  | done r => exact .done r
  | await query next ih => exact .await (answer query) (permitted query) (ih _)
  | perform op next ih => exact .perform (result op) (ih _)

/-- The program performs silent operations only. -/
def Program.Quiet (silent : I.Op → Prop) : Program I α → Prop
  | .done _ => True
  | .await _ next => ∀ r, (next r).Quiet silent
  | .perform op next => silent op ∧ ∀ r, (next r).Quiet silent

theorem quiet_ask {silent : I.Op → Prop} (query : I.Query) : (ask query).Quiet silent :=
  fun _ => trivial

theorem quiet_act {silent : I.Op → Prop} {op : I.Op} (quiet : silent op) : (act op).Quiet silent :=
  ⟨quiet,fun _ => trivial⟩

theorem quiet_lift {silent : I.Op → Prop} (r : Except I.Error α) :
    (liftM r : Program I α).Quiet silent := trivial

theorem quiet_bind {silent : I.Op → Prop} {p : Program I α} {f : α → Program I β}
    (first : p.Quiet silent) (later : ∀ a, (f a).Quiet silent) : (p >>= f).Quiet silent := by
  induction p with
  | done r =>
    cases r with
    | ok a => exact later a
    | error e => trivial
  | await query next ih => exact fun r => ih r (first r)
  | perform op next ih => exact ⟨first.1,fun r => ih r (first.2 r)⟩

theorem quiet_catching {silent : I.Op → Prop} {p : Program I α} {handler : I.Error → Program I α}
    (first : p.Quiet silent) (later : ∀ e, (handler e).Quiet silent) :
    (p.catching handler).Quiet silent := by
  induction p with
  | done r =>
    cases r with
    | ok a => trivial
    | error e => exact later e
  | await query next ih => exact fun r => ih r (first r)
  | perform op next ih => exact ⟨first.1,fun r => ih r (first.2 r)⟩

/-! ### The process -/

variable {ρ σ Env Reset : Type}

structure Process (I : Interface) (ρ σ Env Reset : Type) where
  /-- The flag says whether an operation that may fail does. -/
  exec : Bool → (op : I.Op) → σ → σ × I.Result op
  finish : Except I.Error ρ → σ → σ
  env : Env → σ → σ
  /-- The process stops or starts: what every request had in hand is lost. -/
  reset : Reset → σ → σ

structure Waiting (I : Interface) (ρ σ : Type) where
  asked : σ
  query : I.Query
  next : Except I.Error (I.Answer query) → Program I ρ

structure Config (I : Interface) (ρ σ : Type) where
  world : σ
  waiting : Nat → Option (Waiting I ρ σ)
  current : Option (Nat × Program I ρ)
  fresh : Nat

inductive Step (I : Interface) (ρ Env Reset : Type) where
  | call (p : Program I ρ)
  | advance (fault : Bool)
  | resume (i : Nat) (answer : (query : I.Query) → Except I.Error (I.Answer query))
  | env (e : Env)
  | reset (r : Reset)

variable (m : Process I ρ σ Env Reset)

def Process.step : Step I ρ Env Reset → Config I ρ σ → Option (Config I ρ σ)
  | .call p, ⟨world, waiting, none, fresh⟩ => some ⟨world, waiting, some (fresh,p), fresh + 1⟩
  | .advance _, ⟨world, waiting, some (_,.done r), fresh⟩ =>
    some ⟨m.finish r world, waiting, none, fresh⟩
  | .advance _, ⟨world, waiting, some (i,.await query next), fresh⟩ =>
    some ⟨world, Function.update waiting i (some ⟨world,query,next⟩), none, fresh⟩
  | .advance fault, ⟨world, waiting, some (i,.perform op next), fresh⟩ =>
    let after := m.exec fault op world
    some ⟨after.1, waiting, some (i,next after.2), fresh⟩
  | .resume i answer, ⟨world, waiting, none, fresh⟩ =>
    (waiting i).map fun t =>
      ⟨world, Function.update waiting i none, some (i,t.next (answer t.query)), fresh⟩
  | .env e, c => some { c with world := m.env e c.world }
  | .reset r, c => some ⟨m.reset r c.world, fun _ => none, none, c.fresh⟩
  | _, _ => none

def Process.run : List (Step I ρ Env Reset) → Config I ρ σ → Option (Config I ρ σ)
  | [], c => some c
  | s :: steps, c => (m.step s c).bind (Process.run steps)

def Config.initial (world : σ) : Config I ρ σ := ⟨world, fun _ => none, none, 0⟩

/-- Which requests come in, which answers a query may get, and what the surroundings do. -/
structure Permits (I : Interface) (ρ σ Env Reset : Type) where
  call : σ → Program I ρ → Prop
  /-- Asked in the first world and answered in the second. -/
  answer : (query : I.Query) → σ → σ → Except I.Error (I.Answer query) → Prop
  env : σ → Env → Prop
  reset : σ → Reset → Prop

def Permits.step (P : Permits I ρ σ Env Reset) (c : Config I ρ σ) : Step I ρ Env Reset → Prop
  | .call p => P.call c.world p
  | .advance _ => True
  | .resume i answer =>
    ∀ t, c.waiting i = some t → P.answer t.query t.asked c.world (answer t.query)
  | .env e => P.env c.world e
  | .reset r => P.reset c.world r

variable (P : Permits I ρ σ Env Reset)

inductive Reachable (start : Config I ρ σ) : Config I ρ σ → Prop where
  | start : Reachable start start
  | step {c c' : Config I ρ σ} {s : Step I ρ Env Reset} : Reachable start c → P.step c s →
      m.step s c = some c' → Reachable start c'

/-! ### Reasoning about one program at a time -/

/-- `inv g s`: the ghost state `g` explains the world `s`. `rely i` is what request `i`
expects of everyone else while it waits, `tick` what the surroundings may do meanwhile,
`post i` what request `i` establishes. -/
structure Logic (I : Interface) (γ ρ σ : Type) where
  inv : γ → σ → Prop
  rely : Nat → γ → σ → γ → σ → Prop
  tick : σ → σ → Prop
  post : Nat → Except I.Error ρ → γ → σ → Prop

variable {γ : Type} (L : Logic I γ ρ σ)

/-- Request `i` at this point of its program keeps the invariant and what the others rely
on, and ends with `Q`. It may choose the ghost state at each of its operations. -/
def Safe (i : Nat) (Q : Except I.Error α → γ → σ → Prop) : Program I α → γ → σ → Prop
  | .done r, g, s => Q r g s
  | .await query next, g, s => ∀ s₁ g' s' r, L.tick s s₁ → L.inv g s₁ → L.inv g' s' →
    L.rely i g s₁ g' s' → P.answer query s₁ s' r → Safe i Q (next r) g' s'
  | .perform op next, g, s => ∀ s₁ fault, L.tick s s₁ → L.inv g s₁ →
    ∃ g', L.inv g' (m.exec fault op s₁).1 ∧
      (∀ j, j ≠ i → L.rely j g s₁ g' (m.exec fault op s₁).1) ∧
      Safe i Q (next (m.exec fault op s₁).2) g' (m.exec fault op s₁).1

structure Logic.Framed : Prop where
  tickRefl : ∀ s, L.tick s s
  tickTrans : ∀ {s s' s''}, L.tick s s' → L.tick s' s'' → L.tick s s''
  tickRely : ∀ {g s s'} i, L.tick s s' → L.rely i g s g s'
  relyTrans : ∀ {i g s g' s' g'' s''},
    L.rely i g s g' s' → L.rely i g' s' g'' s'' → L.rely i g s g'' s''

structure Logic.Sound : Prop extends L.Framed where
  stable : ∀ {i r g s s'}, L.post i r g s → L.tick s s' → L.post i r g s'
  env : ∀ {g s e}, L.inv g s → P.env s e → L.inv g (m.env e s) ∧ L.tick s (m.env e s)
  call : ∀ {g s p} i, L.inv g s → P.call s p →
    ∃ g', L.inv g' s ∧ (∀ j, j ≠ i → L.rely j g s g' s) ∧ Safe m P L i (L.post i) p g' s
  finish : ∀ {i r g s}, L.inv g s → L.post i r g s →
    ∃ g', L.inv g' (m.finish r s) ∧ ∀ j, j ≠ i → L.rely j g s g' (m.finish r s)
  reset : ∀ {g s r}, L.inv g s → P.reset s r → ∃ g', L.inv g' (m.reset r s)

variable {m P L}

theorem safe_mono {i : Nat} {Q Q' : Except I.Error α → γ → σ → Prop} {p : Program I α} {g : γ}
    {s : σ} (safe : Safe m P L i Q p g s) (weaker : ∀ r g s, Q r g s → Q' r g s) :
    Safe m P L i Q' p g s := by
  induction p generalizing g s with
  | done r => exact weaker r g s safe
  | await query next ih =>
    intro s₁ g' s' r passed before now relied answered
    exact ih r (safe s₁ g' s' r passed before now relied answered)
  | perform op next ih =>
    intro s₁ fault passed now
    obtain ⟨g',kept,others,later⟩ := safe s₁ fault passed now
    exact ⟨g',kept,others,ih _ later⟩

theorem safe_bind {i : Nat} {Q : Except I.Error β → γ → σ → Prop} {p : Program I α}
    {f : α → Program I β} {g : γ} {s : σ}
    (safe : Safe m P L i (fun r g s => match r with
      | .ok a => Safe m P L i Q (f a) g s
      | .error e => Q (.error e) g s) p g s) :
    Safe m P L i Q (p >>= f) g s := by
  induction p generalizing g s with
  | done r =>
    cases r with
    | ok a => exact safe
    | error e => exact safe
  | await query next ih =>
    intro s₁ g' s' r passed before now relied answered
    exact ih r (safe s₁ g' s' r passed before now relied answered)
  | perform op next ih =>
    intro s₁ fault passed now
    obtain ⟨g',kept,others,later⟩ := safe s₁ fault passed now
    exact ⟨g',kept,others,ih _ later⟩

theorem safe_catching {i : Nat} {Q : Except I.Error α → γ → σ → Prop} {p : Program I α}
    {handler : I.Error → Program I α} {g : γ} {s : σ}
    (safe : Safe m P L i (fun r g s => match r with
      | .ok a => Q (.ok a) g s
      | .error e => Safe m P L i Q (handler e) g s) p g s) :
    Safe m P L i Q (p.catching handler) g s := by
  induction p generalizing g s with
  | done r =>
    cases r with
    | ok a => exact safe
    | error e => exact safe
  | await query next ih =>
    intro s₁ g' s' r passed before now relied answered
    exact ih r (safe s₁ g' s' r passed before now relied answered)
  | perform op next ih =>
    intro s₁ fault passed now
    obtain ⟨g',kept,others,later⟩ := safe s₁ fault passed now
    exact ⟨g',kept,others,ih _ later⟩

theorem safe_settled {i : Nat} {Q : Except I.Error β → γ → σ → Prop} {f : Except I.Error α → β}
    {p : Program I α} {g : γ} {s : σ}
    (safe : Safe m P L i (fun r g s => Q (.ok (f r)) g s) p g s) :
    Safe m P L i Q (p.settled f) g s := by
  apply safe_catching
  apply safe_bind
  apply safe_mono safe
  intro r g s holds
  cases r with
  | ok a => exact holds
  | error e => exact holds

/-- A program is safe wherever its operations, its answers and what is kept are the same. -/
theorem safe_transport {Env' Reset' ρ' : Type} {m' : Process I ρ' σ Env' Reset'}
    {P' : Permits I ρ' σ Env' Reset'} {L' : Logic I γ ρ' σ} (exec : m'.exec = m.exec)
    (answer : P'.answer = P.answer) (inv : L'.inv = L.inv) (rely : L'.rely = L.rely)
    (tick : L'.tick = L.tick) {i : Nat} {Q : Except I.Error α → γ → σ → Prop} {p : Program I α}
    {g : γ} {s : σ} (safe : Safe m P L i Q p g s) : Safe m' P' L' i Q p g s := by
  induction p generalizing g s with
  | done r => exact safe
  | await query next ih =>
    intro s₁ g' s' r passed before now relied answered
    rw [tick] at passed
    rw [inv] at before now
    rw [rely] at relied
    rw [answer] at answered
    exact ih r (safe s₁ g' s' r passed before now relied answered)
  | perform op next ih =>
    intro s₁ fault passed now
    rw [tick] at passed
    rw [inv] at now
    obtain ⟨g',kept,others,later⟩ := safe s₁ fault passed now
    rw [exec,inv,rely]
    exact ⟨g',kept,others,ih _ later⟩

/-! ### Rules for what holds on success -/

/-- `K` when the program returns, nothing when it throws. -/
def OnSuccess (K : α → γ → σ → Prop) (r : Except I.Error α) (g : γ) (s : σ) : Prop :=
  ∀ a, r = .ok a → K a g s

variable {i : Nat} {K : γ → σ → Prop} {g : γ} {s : σ}

theorem safe_lift {K : α → γ → σ → Prop} {r : Except I.Error α} (holds : ∀ a, r = .ok a → K a g s) :
    Safe m P L i (OnSuccess K) (liftM r) g s := holds

theorem safe_pure {K : α → γ → σ → Prop} {a : α} (holds : K a g s) :
    Safe m P L i (OnSuccess K) (pure a) g s := by
  intro b returned
  cases returned
  exact holds

theorem safe_throw {K : α → γ → σ → Prop} (e : I.Error) :
    Safe m P L i (OnSuccess K) (throw e) g s := by
  intro a returned
  contradiction

/-- The rule of sequence. -/
theorem safe_seq {K : α → γ → σ → Prop} {K' : β → γ → σ → Prop} {p : Program I α}
    {f : α → Program I β} (first : Safe m P L i (OnSuccess K) p g s)
    (later : ∀ a g s, K a g s → Safe m P L i (OnSuccess K') (f a) g s) :
    Safe m P L i (OnSuccess K') (p >>= f) g s := by
  refine safe_bind (safe_mono first ?_)
  intro r g s holds
  cases r with
  | ok a => exact later a g s (holds a rfl)
  | error e =>
    intro b returned
    contradiction

/-- The rule of `try … catch`. -/
theorem safe_try {K : α → γ → σ → Prop} {p : Program I α} {handler : I.Error → Program I α}
    (first : Safe m P L i (OnSuccess K) p g s)
    (later : ∀ e g s, Safe m P L i (OnSuccess K) (handler e) g s) :
    Safe m P L i (OnSuccess K) (tryCatch p handler) g s := by
  refine safe_catching (safe_mono first ?_)
  intro r g s holds
  cases r with
  | ok a => exact holds
  | error e => exact later e g s

theorem safe_act {op : I.Op} {K' : I.Result op → γ → σ → Prop}
    (stable : ∀ {s'}, L.tick s s' → K g s → K g s') (now : K g s)
    (step : ∀ s₁ fault, K g s₁ → L.inv g s₁ → ∃ g', L.inv g' (m.exec fault op s₁).1 ∧
      (∀ j, j ≠ i → L.rely j g s₁ g' (m.exec fault op s₁).1) ∧
      K' (m.exec fault op s₁).2 g' (m.exec fault op s₁).1) :
    Safe m P L i (OnSuccess K') (act op) g s := by
  intro s₁ fault passed inv
  obtain ⟨g',kept,others,after⟩ := step s₁ fault (stable passed now) inv
  exact ⟨g',kept,others,safe_pure after⟩

theorem safe_ask {query : I.Query} {K' : I.Answer query → γ → σ → Prop}
    (stable : ∀ {s'}, L.tick s s' → K g s → K g s') (now : K g s)
    (step : ∀ s₁ g' s' a, K g s₁ → L.inv g s₁ → L.inv g' s' → L.rely i g s₁ g' s' →
      P.answer query s₁ s' (.ok a) → K' a g' s') :
    Safe m P L i (OnSuccess K') (ask query) g s := by
  intro s₁ g' s' r passed before after relied answered a returned
  subst returned
  exact step s₁ g' s' a (stable passed now) before after relied answered

/-- A quiet program keeps what the others keep. -/
theorem safe_quiet (framed : L.Framed) {silent : I.Op → Prop} {p : Program I α}
    (still : ∀ fault op s, silent op → (m.exec fault op s).1 = s)
    (closed : ∀ {g s g' s'}, K g s → L.rely i g s g' s' → K g' s')
    (quiet : p.Quiet silent) (now : K g s) :
    Safe m P L i (OnSuccess fun _ => K) p g s := by
  induction p generalizing g s with
  | done r => exact fun _ _ => now
  | await query next ih =>
    intro s₁ g' s' r passed _ _ relied _
    exact ih r (quiet r) (closed (closed now (framed.tickRely i passed)) relied)
  | perform op next ih =>
    intro s₁ fault passed inv
    rw [still fault op s₁ quiet.1]
    exact ⟨g,inv,fun j _ => framed.tickRely j (framed.tickRefl s₁),
      ih _ (quiet.2 _) (closed now (framed.tickRely i passed))⟩

/-- The surroundings do not spoil what a program has established. -/
theorem Safe.tick (sound : L.Sound m P) {i : Nat} {p : Program I ρ} {g : γ} {s s' : σ}
    (safe : Safe m P L i (L.post i) p g s) (passed : L.tick s s') :
    Safe m P L i (L.post i) p g s' := by
  cases p with
  | done r => exact sound.stable safe passed
  | await query next =>
    intro s₁ g' s'' r later
    exact safe s₁ g' s'' r (sound.tickTrans passed later)
  | perform op next =>
    intro s₁ fault later
    exact safe s₁ fault (sound.tickTrans passed later)

/-- A waiting request stays safe while the others keep what it relies on. -/
def Waiting.Safe (P : Permits I ρ σ Env Reset) (m : Process I ρ σ Env Reset) (L : Logic I γ ρ σ)
    (i : Nat) (t : Waiting I ρ σ) (g : γ) (s : σ) : Prop :=
  ∃ g₀, L.rely i g₀ t.asked g s ∧ ∀ g' s' r, L.inv g' s' → L.rely i g₀ t.asked g' s' →
    P.answer t.query t.asked s' r → EventLoop.Safe m P L i (L.post i) (t.next r) g' s'

structure Holds (P : Permits I ρ σ Env Reset) (m : Process I ρ σ Env Reset) (L : Logic I γ ρ σ)
    (g : γ) (c : Config I ρ σ) : Prop where
  inv : L.inv g c.world
  waiting : ∀ i t, c.waiting i = some t → i < c.fresh ∧ t.Safe P m L i g c.world
  current : ∀ i p, c.current = some (i,p) →
    i < c.fresh ∧ c.waiting i = none ∧ Safe m P L i (L.post i) p g c.world

/-- What a request that has returned established. -/
theorem Holds.returned {g : γ} {c : Config I ρ σ} (holds : Holds P m L g c) {i : Nat}
    {r : Except I.Error ρ} (returning : c.current = some (i,.done r)) : L.post i r g c.world :=
  (holds.current i _ returning).2.2

/-- What an updated table holds: the new entry at its key, the old ones elsewhere. -/
theorem update_eq_some {f : Nat → Option α} {i j : Nat} {x : Option α} {a : α} :
    Function.update f i x j = some a ↔ (j = i ∧ x = some a) ∨ (j ≠ i ∧ f j = some a) := by
  by_cases own : j = i
  · subst own
    simp
  · simp [own]

theorem Waiting.Safe.relied (sound : L.Sound m P) {i : Nat} {t : Waiting I ρ σ} {g g' : γ}
    {s s' : σ} (safe : t.Safe P m L i g s) (relied : L.rely i g s g' s') : t.Safe P m L i g' s' := by
  obtain ⟨g₀,before,later⟩ := safe
  exact ⟨g₀,sound.relyTrans before relied,later⟩

theorem step_holds (sound : L.Sound m P) {g : γ} {c c' : Config I ρ σ} {s : Step I ρ Env Reset}
    (holds : Holds P m L g c) (permitted : P.step c s) (stepped : m.step s c = some c') :
    ∃ g', Holds P m L g' c' := by
  obtain ⟨world,waiting,current,fresh⟩ := c
  obtain ⟨inv,waits,runs⟩ := holds
  cases s with
  | call p =>
    cases current with
    | some running => contradiction
    | none =>
      cases stepped
      obtain ⟨g',now,others,safe⟩ := sound.call fresh inv permitted
      refine ⟨g',now,?_,?_⟩
      · intro i t found
        obtain ⟨old,waiting⟩ := waits i t found
        exact ⟨Nat.lt_succ_of_lt old,waiting.relied sound (others i (Nat.ne_of_lt old))⟩
      · intro i p' running
        cases running
        refine ⟨Nat.lt_succ_self _,?_,safe⟩
        cases found : waiting fresh with
        | none => exact found
        | some t => exact absurd (waits fresh t found).1 (Nat.lt_irrefl _)
  | advance fault =>
    cases current with
    | none => contradiction
    | some running =>
      obtain ⟨i,p⟩ := running
      obtain ⟨old,idle,safe⟩ := runs i p rfl
      have apart {j : Nat} {t : Waiting I ρ σ} (found : waiting j = some t) : j ≠ i := by
        rintro rfl
        exact absurd (idle.symm.trans found) (by simp)
      cases p with
      | done r =>
        cases stepped
        obtain ⟨g',now,others⟩ := sound.finish inv safe
        refine ⟨g',now,?_,by simp⟩
        intro j t found
        exact ⟨(waits j t found).1,(waits j t found).2.relied sound (others j (apart found))⟩
      | await query next =>
        cases stepped
        refine ⟨g,inv,?_,by simp⟩
        intro j t found
        rcases update_eq_some.mp found with ⟨rfl,⟨⟩⟩ | ⟨_,found⟩
        · have asking := sound.tickRefl world
          exact ⟨old,g,sound.tickRely j asking,fun g' s' r now relied answered =>
            safe world g' s' r asking inv now relied answered⟩
        · exact waits j t found
      | perform op next =>
        cases stepped
        obtain ⟨g',now,others,later⟩ := safe world fault (sound.tickRefl world) inv
        refine ⟨g',now,?_,?_⟩
        · intro j t found
          exact ⟨(waits j t found).1,(waits j t found).2.relied sound (others j (apart found))⟩
        · intro j p running
          cases running
          exact ⟨old,idle,later⟩
  | resume i answer =>
    cases current with
    | some running => contradiction
    | none =>
      obtain ⟨t,found,moved⟩ := Option.map_eq_some_iff.mp stepped
      cases moved
      obtain ⟨old,g₀,relied,later⟩ := waits i t found
      refine ⟨g,inv,?_,?_⟩
      · intro j t' found'
        rcases update_eq_some.mp found' with ⟨_,⟨⟩⟩ | ⟨_,old⟩
        exact waits j t' old
      · intro j p running
        cases running
        exact ⟨old,Function.update_self ..,later g world _ inv relied (permitted t found)⟩
  | env e =>
    cases stepped
    obtain ⟨now,passed⟩ := sound.env inv permitted
    refine ⟨g,now,?_,?_⟩
    · intro i t found
      exact ⟨(waits i t found).1,(waits i t found).2.relied sound (sound.tickRely i passed)⟩
    · intro i p running
      obtain ⟨old,idle,safe⟩ := runs i p running
      exact ⟨old,idle,safe.tick sound passed⟩
  | reset r =>
    cases stepped
    obtain ⟨g',now⟩ := sound.reset inv permitted
    exact ⟨g',now,by simp,by simp⟩

/-- What each program keeps on its own holds in every run. -/
theorem Reachable.holds (sound : L.Sound m P) {g : γ} {world : σ} {c : Config I ρ σ}
    (initial : L.inv g world) (reach : Reachable m P (Config.initial world) c) :
    ∃ g', Holds P m L g' c := by
  induction reach with
  | start => exact ⟨g,initial,by simp [Config.initial],by simp [Config.initial]⟩
  | step _ permitted stepped ih =>
    obtain ⟨g',holds⟩ := ih
    exact step_holds sound holds permitted stepped

-- From here on a program is shown safe by the rules only.
attribute [irreducible] Safe

end EventLoop
