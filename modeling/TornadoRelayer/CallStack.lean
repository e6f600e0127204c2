import Mathlib.Logic.Basic

/-! One contract among arbitrary others, inside one transaction. Calls nest and
re-enter, a call that fails restores the world it started from, and every step
costs gas. The contract is a function from calls to what its code does until it
next hands control away; everyone else is a list of steps. -/
namespace CallStack

/-- What contract code does until control leaves it. -/
inductive Run (σ ε κ : Type) where
  | returned (world : σ)
  | reverted (reason : ε)
  /-- An external call from `atCall`; the callee starts in `after`. -/
  | calling (atCall after : σ) (pending : κ)

def Run.map (f : κ → κ') : Run σ ε κ → Run σ ε κ'
  | .returned world => .returned world
  | .reverted reason => .reverted reason
  | .calling atCall after pending => .calling atCall after (f pending)

structure Contract (σ ε κ Call Act : Type) where
  call : Call → σ → Run σ ε κ
  /-- Continue after the pending call succeeded or failed. -/
  resume : κ → Bool → σ → Run σ ε κ
  /-- What the others do to the world while these calls of the contract are pending. -/
  act : Act → List κ → σ → σ

inductive Frame (σ κ : Type) where
  | checkpoint (saved : σ)
  | waiting (entry atCall : σ) (pending : κ)

structure Config (σ κ : Type) where
  gas : Nat
  world : σ
  stack : List (Frame σ κ)

inductive Step (Call Act : Type) where
  | call (c : Call)
  | act (a : Act)
  | enter
  | leave (commit : Bool)
  | answer (ok : Bool)
  /-- The waiting code has no gas left to continue. -/
  | exhaust

/-- The contract's pending calls, innermost first. -/
def live : List (Frame σ κ) → List κ
  | [] => []
  | .checkpoint _ :: stack => live stack
  | .waiting _ _ pending :: stack => pending :: live stack

def proceed (gas : Nat) (entry : σ) (stack : List (Frame σ κ)) : Run σ ε κ → Config σ κ
  | .returned world => ⟨gas, world, stack⟩
  | .reverted _ => ⟨gas, entry, stack⟩
  | .calling atCall after pending => ⟨gas, after, .waiting entry atCall pending :: stack⟩

variable (m : Contract σ ε κ Call Act)

def Contract.step : Step Call Act → Config σ κ → Option (Config σ κ)
  | _, ⟨0, _, _⟩ => none
  | .call c, ⟨gas + 1, world, stack⟩ => some (proceed gas world stack (m.call c world))
  | .act a, ⟨gas + 1, world, stack⟩ => some ⟨gas, m.act a (live stack) world, stack⟩
  | .enter, ⟨gas + 1, world, stack⟩ => some ⟨gas, world, .checkpoint world :: stack⟩
  | .leave commit, ⟨gas + 1, world, .checkpoint saved :: stack⟩ =>
    some ⟨gas, if commit then world else saved, stack⟩
  | .answer ok, ⟨gas + 1, world, .waiting entry atCall pending :: stack⟩ =>
    some (proceed gas entry stack (m.resume pending ok (if ok then world else atCall)))
  | .exhaust, ⟨gas + 1, _, .waiting entry _ _ :: stack⟩ => some ⟨gas, entry, stack⟩
  | _, _ => none

def Contract.run : List (Step Call Act) → Config σ κ → Option (Config σ κ)
  | [], c => some c
  | s :: steps, c => (m.step s c).bind (Contract.run steps)

/-- Which steps the others take, given the pending calls and the world. -/
abbrev Allowed (σ κ Call Act : Type) := List κ → σ → Step Call Act → Prop

theorem Contract.step_call (c : Call) (gas : Nat) (world : σ) (stack : List (Frame σ κ)) :
    m.step (.call c) ⟨gas + 1, world, stack⟩ = some (proceed gas world stack (m.call c world)) := rfl

variable (allowed : Allowed σ κ Call Act)

inductive Reachable (start : Config σ κ) : Config σ κ → Prop where
  | start : Reachable start start
  | step {c c' : Config σ κ} {s : Step Call Act} : Reachable start c →
      allowed (live c.stack) c.world s → m.step s c = some c' → Reachable start c'

variable {m} {allowed}

theorem Reachable.weaken {more : Allowed σ κ Call Act} {start c : Config σ κ}
    (reach : Reachable m allowed start c)
    (implies : ∀ ks w s, allowed ks w s → more ks w s) : Reachable m more start c := by
  induction reach with
  | start => exact .start
  | step _ permitted stepped ih => exact .step ih (implies _ _ _ permitted) stepped

theorem Reachable.trans {start middle c : Config σ κ} (first : Reachable m allowed start middle)
    (second : Reachable m allowed middle c) : Reachable m allowed start c := by
  induction second with
  | start => exact first
  | step _ permitted stepped ih => exact .step ih permitted stepped

theorem run_reachable {steps : List (Step Call Act)} {start c : Config σ κ}
    (permitted : ∀ s ∈ steps, ∀ ks w, allowed ks w s) (ran : m.run steps start = some c) :
    Reachable m allowed start c := by
  induction steps generalizing start with
  | nil =>
    cases ran
    exact .start
  | cons s steps ih =>
    obtain ⟨middle,stepped,ran⟩ := Option.bind_eq_some_iff.mp ran
    have first := Reachable.step .start (permitted s (by simp) _ _) stepped
    exact first.trans (ih (fun s' member => permitted s' (by simp [member])) ran)

variable (m allowed) in
/-- The steps, while the others are allowed each of them. -/
def Contract.runWithin [∀ ks w s, Decidable (allowed ks w s)] :
    List (Step Call Act) → Config σ κ → Option (Config σ κ)
  | [], c => some c
  | s :: steps, c =>
    if allowed (live c.stack) c.world s then (m.step s c).bind (runWithin steps) else none

theorem runWithin_reachable [∀ ks w s, Decidable (allowed ks w s)] {steps : List (Step Call Act)}
    {start c : Config σ κ} (ran : m.runWithin allowed steps start = some c) :
    Reachable m allowed start c := by
  induction steps generalizing start with
  | nil =>
    cases ran
    exact .start
  | cons s steps ih =>
    simp only [Contract.runWithin] at ran
    split at ran
    · next permitted =>
      obtain ⟨middle,stepped,ran⟩ := Option.bind_eq_some_iff.mp ran
      exact (Reachable.step .start permitted stepped).trans (ih ran)
    · contradiction

/-! ### Invariants

`I gas ks w` speaks of a world in which others are in control, `F gas k ks w` of
the world saved for the failure of the innermost call `k`. -/

variable (I : Nat → List κ → σ → Prop) (F : Nat → κ → List κ → σ → Prop)

def Upholds (gas : Nat) (ks : List κ) : Run σ ε κ → Prop
  | .returned world => I gas ks world
  | .reverted _ => True
  | .calling atCall after pending => F gas pending ks atCall ∧ I gas (pending :: ks) after

variable (m allowed)

structure Invariant : Prop where
  spend : ∀ {gas ks w}, I (gas + 1) ks w → I gas ks w
  spendSaved : ∀ {gas k ks w}, F (gas + 1) k ks w → F gas k ks w
  act : ∀ {gas ks w a}, I (gas + 1) ks w → allowed ks w (.act a) → I gas ks (m.act a ks w)
  call : ∀ {gas ks w c}, I (gas + 1) ks w → allowed ks w (.call c) →
    Upholds I F gas ks (m.call c w)
  succeed : ∀ {gas k ks w}, I (gas + 1) (k :: ks) w → Upholds I F gas ks (m.resume k true w)
  fail : ∀ {gas k ks w}, F (gas + 1) k ks w → Upholds I F gas ks (m.resume k false w)

/-- Every saved world satisfies the invariant of the point it belongs to. -/
def Saved (gas : Nat) : List (Frame σ κ) → Prop
  | [] => True
  | .checkpoint saved :: stack => I gas (live stack) saved ∧ Saved gas stack
  | .waiting entry atCall pending :: stack =>
    I gas (live stack) entry ∧ F gas pending (live stack) atCall ∧ Saved gas stack

def Holds (c : Config σ κ) : Prop :=
  I c.gas (live c.stack) c.world ∧ Saved I F c.gas c.stack

variable {m allowed I F}

theorem Saved.spend (inv : Invariant m allowed I F) {gas : Nat} {stack : List (Frame σ κ)}
    (saved : Saved I F (gas + 1) stack) : Saved I F gas stack := by
  induction stack with
  | nil => trivial
  | cons frame stack ih =>
    cases frame with
    | checkpoint world => exact ⟨inv.spend saved.1,ih saved.2⟩
    | waiting entry atCall pending =>
      exact ⟨inv.spend saved.1,inv.spendSaved saved.2.1,ih saved.2.2⟩

theorem Upholds.proceed {gas : Nat} {entry : σ} {stack : List (Frame σ κ)} {r : Run σ ε κ}
    (entered : I gas (live stack) entry) (saved : Saved I F gas stack)
    (upheld : Upholds I F gas (live stack) r) : Holds I F (proceed gas entry stack r) := by
  cases r with
  | returned world => exact ⟨upheld,saved⟩
  | reverted reason => exact ⟨entered,saved⟩
  | calling atCall after pending => exact ⟨upheld.2,entered,upheld.1,saved⟩

theorem step_preserves (inv : Invariant m allowed I F) {c c' : Config σ κ} {s : Step Call Act}
    (holds : Holds I F c) (permitted : allowed (live c.stack) c.world s)
    (stepped : m.step s c = some c') : Holds I F c' := by
  obtain ⟨gas,world,stack⟩ := c
  obtain ⟨now,saved⟩ := holds
  cases gas with
  | zero => cases s <;> contradiction
  | succ gas =>
    have savedLater := saved.spend inv
    cases s with
    | call c =>
      cases stepped
      exact Upholds.proceed (inv.spend now) savedLater (inv.call now permitted)
    | act a =>
      cases stepped
      exact ⟨inv.act now permitted,savedLater⟩
    | enter =>
      cases stepped
      exact ⟨inv.spend now,inv.spend now,savedLater⟩
    | leave commit =>
      cases stack with
      | nil => contradiction
      | cons frame stack =>
        cases frame with
        | waiting entry atCall pending => contradiction
        | checkpoint old =>
          cases stepped
          cases commit with
          | true => exact ⟨inv.spend now,savedLater.2⟩
          | false => exact savedLater
    | answer ok =>
      cases stack with
      | nil => contradiction
      | cons frame stack =>
        cases frame with
        | checkpoint old => contradiction
        | waiting entry atCall pending =>
          cases stepped
          apply Upholds.proceed savedLater.1 savedLater.2.2
          cases ok with
          | true => exact inv.succeed now
          | false => exact inv.fail saved.2.1
    | exhaust =>
      cases stack with
      | nil => contradiction
      | cons frame stack =>
        cases frame with
        | checkpoint old => contradiction
        | waiting entry atCall pending =>
          cases stepped
          exact ⟨savedLater.1,savedLater.2.2⟩

/-- What holds of the world at the start and is kept by the contract's code, and by
the others in control, holds in every run, whatever is rolled back. -/
theorem Reachable.invariant (inv : Invariant m allowed I F) {start c : Config σ κ}
    (initial : Holds I F start) (reach : Reachable m allowed start c) : Holds I F c := by
  induction reach with
  | start => exact initial
  | step _ permitted stepped ih => exact step_preserves inv ih permitted stepped

/-! ### Calls that always revert -/

/-- A step keeps a waiting frame, or answers it when it is on top. -/
theorem waiting_step {c c' : Config σ κ} {s : Step Call Act} {above stack : List (Frame σ κ)}
    {entry atCall : σ} {k : κ} (on : c.stack = above ++ .waiting entry atCall k :: stack)
    (stepped : m.step s c = some c') :
    (∃ above', c'.stack = above' ++ .waiting entry atCall k :: stack) ∨
    ∃ gas, c' = ⟨gas, entry, stack⟩ ∨ ∃ ok w, c' = proceed gas entry stack (m.resume k ok w) := by
  have pushed {gas : Nat} {e : σ} {rest : List (Frame σ κ)} {r : Run σ ε κ}
      {above' : List (Frame σ κ)} (below : rest = above' ++ .waiting entry atCall k :: stack) :
      ∃ above'', (proceed gas e rest r).stack = above'' ++ .waiting entry atCall k :: stack := by
    cases r with
    | returned world => exact ⟨above',below⟩
    | reverted reason => exact ⟨above',below⟩
    | calling a b k' => exact ⟨.waiting e a k' :: above',congrArg (_ :: ·) below⟩
  obtain ⟨gas,world,frames⟩ := c
  cases gas with
  | zero => cases s <;> contradiction
  | succ gas =>
    cases s with
    | call c =>
      cases stepped
      exact .inl (pushed on)
    | act a =>
      cases stepped
      exact .inl ⟨above,on⟩
    | enter =>
      cases stepped
      exact .inl ⟨.checkpoint world :: above,congrArg (_ :: ·) on⟩
    | leave commit =>
      cases frames with
      | nil => contradiction
      | cons frame frames =>
        cases frame with
        | waiting e a k' => contradiction
        | checkpoint old =>
          cases stepped
          cases above with
          | nil => cases on
          | cons top above => exact .inl ⟨above,(List.cons.inj on).2⟩
    | answer ok =>
      cases frames with
      | nil => contradiction
      | cons frame frames =>
        cases frame with
        | checkpoint old => contradiction
        | waiting e a k' =>
          cases stepped
          cases above with
          | nil =>
            cases on
            exact .inr ⟨gas,.inr ⟨ok,_,rfl⟩⟩
          | cons top above => exact .inl (pushed (List.cons.inj on).2)
    | exhaust =>
      cases frames with
      | nil => contradiction
      | cons frame frames =>
        cases frame with
        | checkpoint old => contradiction
        | waiting e a k' =>
          cases stepped
          cases above with
          | nil =>
            cases on
            exact .inr ⟨gas,.inl rfl⟩
          | cons top above => exact .inl ⟨above,(List.cons.inj on).2⟩

/-- Code that reverts whatever its callee answers is either still waiting, or has
restored the world it was entered in. -/
theorem Reachable.restored {start c : Config σ κ} {above stack : List (Frame σ κ)}
    {entry atCall : σ} {k : κ} (reverts : ∀ ok w, ∃ reason, m.resume k ok w = .reverted reason)
    (on : start.stack = above ++ .waiting entry atCall k :: stack)
    (reach : Reachable m allowed start c) :
    (∃ above', c.stack = above' ++ .waiting entry atCall k :: stack) ∨
    ∃ gas, Reachable m allowed ⟨gas, entry, stack⟩ c := by
  induction reach with
  | start => exact .inl ⟨above,on⟩
  | step _ permitted stepped ih =>
    rcases ih with ⟨above',waiting⟩ | ⟨gas,later⟩
    · rcases waiting_step waiting stepped with still | ⟨gas,rfl | ⟨ok,w,rfl⟩⟩
      · exact .inl still
      · exact .inr ⟨gas,.start⟩
      · obtain ⟨reason,reverted⟩ := reverts ok w
        rw [reverted]
        exact .inr ⟨gas,.start⟩
    · exact .inr ⟨gas,.step later permitted stepped⟩

/-! ### Code run to its end -/

variable (m)

/-- The world after the others have acted while these calls are pending. -/
def Contract.acted (acts : List Act) (ks : List κ) (world : σ) : σ :=
  acts.foldl (fun w a => m.act a ks w) world

/-- The code to its end, making at most so many calls. Each of them fails, or its callee
acts and succeeds. -/
def Contract.complete (outcome : κ → Option (List Act)) (ks : List κ) :
    Nat → Run σ ε κ → Option (Except ε σ)
  | _, .returned world => some (.ok world)
  | _, .reverted reason => some (.error reason)
  | 0, .calling _ _ _ => none
  | n + 1, .calling atCall after pending =>
    match outcome pending with
    | some acts => complete outcome ks n (m.resume pending true (m.acted acts (pending :: ks) after))
    | none => complete outcome ks n (m.resume pending false atCall)

def Run.ofExcept : Except ε σ → Run σ ε κ
  | .ok world => .returned world
  | .error reason => .reverted reason

variable {m} {outcome : κ → Option (List Act)} {ks : List κ} {n : Nat}

theorem complete_returned (world : σ) :
    m.complete outcome ks n (.returned world) = some (.ok world) := by
  cases n <;> rfl

theorem complete_reverted (reason : ε) :
    m.complete outcome ks n (.reverted reason) = some (.error reason) := by
  cases n <;> rfl

theorem complete_succeeded {atCall after : σ} {pending : κ} {acts : List Act}
    (succeeds : outcome pending = some acts) :
    m.complete outcome ks (n + 1) (.calling atCall after pending) =
      m.complete outcome ks n (m.resume pending true (m.acted acts (pending :: ks) after)) := by
  simp only [Contract.complete,succeeds]

theorem complete_failed {atCall after : σ} {pending : κ} (fails : outcome pending = none) :
    m.complete outcome ks (n + 1) (.calling atCall after pending) =
      m.complete outcome ks n (m.resume pending false atCall) := by
  simp only [Contract.complete,fails]

theorem acted_reachable (acting : ∀ a ks w, allowed ks w (.act a)) (acts : List Act) (gas : Nat)
    (world : σ) (stack : List (Frame σ κ)) :
    Reachable m allowed ⟨gas + acts.length, world, stack⟩
      ⟨gas, m.acted acts (live stack) world, stack⟩ := by
  induction acts generalizing world with
  | nil => exact .start
  | cons a acts ih =>
    have first : Reachable m allowed ⟨gas + acts.length + 1, world, stack⟩
        ⟨gas + acts.length, m.act a (live stack) world, stack⟩ := .step .start (acting a _ _) rfl
    exact first.trans (ih _)

/-- What the code comes to is reached step by step, for some gas. -/
theorem complete_reachable (acting : ∀ a ks w, allowed ks w (.act a))
    (answering : ∀ ok ks w, allowed ks w (.answer ok)) {entry : σ} {stack : List (Frame σ κ)}
    {r : Run σ ε κ} {out : Except ε σ} (ends : m.complete outcome (live stack) n r = some out) :
    ∃ spent, ∀ gas, Reachable m allowed (proceed (gas + spent) entry stack r)
      (proceed gas entry stack (.ofExcept out : Run σ ε κ)) := by
  induction n generalizing r with
  | zero =>
    cases r with
    | returned world =>
      cases ends
      exact ⟨0,fun _ => .start⟩
    | reverted reason =>
      cases ends
      exact ⟨0,fun _ => .start⟩
    | calling atCall after pending => contradiction
  | succ n ih =>
    cases r with
    | returned world =>
      cases ends
      exact ⟨0,fun _ => .start⟩
    | reverted reason =>
      cases ends
      exact ⟨0,fun _ => .start⟩
    | calling atCall after pending =>
      have answered (ok : Bool) (gas : Nat) (world : σ) : Reachable m allowed
          ⟨gas + 1, world, .waiting entry atCall pending :: stack⟩
          (proceed gas entry stack (m.resume pending ok (if ok then world else atCall))) :=
        .step .start (answering ok _ _) rfl
      cases decided : outcome pending with
      | none =>
        rw [complete_failed decided] at ends
        obtain ⟨spent,reach⟩ := ih ends
        exact ⟨spent + 1,fun gas => (answered false _ after).trans (reach gas)⟩
      | some acts =>
        rw [complete_succeeded decided] at ends
        obtain ⟨spent,reach⟩ := ih ends
        refine ⟨spent + 1 + acts.length,fun gas => ?_⟩
        rw [← Nat.add_assoc,← Nat.add_assoc]
        have acted := acted_reachable (m := m) acting acts (gas + spent + 1) after
          (.waiting entry atCall pending :: stack)
        exact acted.trans ((answered true _ _).trans (reach gas))

end CallStack
