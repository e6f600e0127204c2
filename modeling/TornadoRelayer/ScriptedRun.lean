import TornadoRelayer.EventLoop

/-! A program run by itself, whose queries may change the world they are asked in. A script
says what becomes of each of its requests and where the process stops. -/
namespace EventLoop

variable {I : Interface} {σ F : Type}

/-- A world that meets the requests of a program: `F` is what may become of one. -/
structure Host (I : Interface) (σ F : Type) where
  answer : F → (query : I.Query) → σ → Except I.Error (I.Answer query) × σ
  perform : F → (op : I.Op) → σ → I.Result op × σ

/-- What becomes of each request in turn; at `none` the process stops instead. -/
abbrev Script (F : Type) := Nat → Option F

def Script.after (script : Script F) (n : Nat) : Script F := fun i => script (n + i)

def Script.always (f : F) : Script F := fun _ => some f

@[simp] theorem after_always (f : F) (n : Nat) : (Script.always f).after n = Script.always f := rfl

@[simp] theorem after_apply (script : Script F) (n i : Nat) : script.after n i = script (n + i) := rfl

@[simp] theorem after_zero (script : Script F) : script.after 0 = script := by
  funext i
  simp

@[simp] theorem after_after (script : Script F) (n m : Nat) :
    (script.after n).after m = script.after (n + m) := by
  funext i
  simp [Nat.add_assoc]

/-- Where a run left the world and its script; it was stopped when there is no outcome. -/
structure Played (I : Interface) (σ F α : Type) where
  outcome : Option (Except I.Error α)
  world : σ
  script : Script F

variable (host : Host I σ F)

def Program.play : Program I α → Script F → σ → Played I σ F α
  | .done r, script, s => ⟨some r, s, script⟩
  | .await query next, script, s =>
    match script 0 with
    | none => ⟨none, s, script⟩
    | some f =>
      let answered := host.answer f query s
      (next answered.1).play (script.after 1) answered.2
  | .perform op next, script, s =>
    match script 0 with
    | none => ⟨none, s, script⟩
    | some f =>
      let performed := host.perform f op s
      (next performed.1).play (script.after 1) performed.2

/-- Go on with what was returned. -/
def Played.next (ran : Played I σ F α) (go : α → Script F → σ → Played I σ F β) :
    Played I σ F β :=
  match ran.outcome with
  | some (.ok a) => go a ran.script ran.world
  | some (.error e) => ⟨some (.error e), ran.world, ran.script⟩
  | none => ⟨none, ran.world, ran.script⟩

variable {host} {script : Script F} {s : σ}

@[simp] theorem play_done (r : Except I.Error α) :
    (Program.done r : Program I α).play host script s = ⟨some r, s, script⟩ := rfl

@[simp] theorem play_pure (a : α) :
    (pure a : Program I α).play host script s = ⟨some (.ok a), s, script⟩ := rfl

@[simp] theorem play_throw (e : I.Error) :
    (throw e : Program I α).play host script s = ⟨some (.error e), s, script⟩ := rfl

@[simp] theorem play_lift (r : Except I.Error α) :
    (liftM r : Program I α).play host script s = ⟨some r, s, script⟩ := rfl

theorem play_bind (p : Program I α) (f : α → Program I β) :
    (p >>= f).play host script s =
      (p.play host script s).next fun a script s => (f a).play host script s := by
  change (p.bind f).play host script s = _
  induction p generalizing script s with
  | done r => cases r <;> rfl
  | await query next ih =>
    simp only [Program.bind,Program.play]
    cases script 0 with
    | none => rfl
    | some fate => exact ih _
  | perform op next ih =>
    simp only [Program.bind,Program.play]
    cases script 0 with
    | none => rfl
    | some fate => exact ih _

theorem play_ask {query : I.Query} {f : F} {r : Except I.Error (I.Answer query)} {s' : σ}
    (met : script 0 = some f) (answered : host.answer f query s = (r,s')) :
    (ask query).play host script s = ⟨some r, s', script.after 1⟩ := by
  rw [ask,Program.play,met]
  simp only [answered,play_done]

theorem play_ask_stopped {query : I.Query} (stopped : script 0 = none) :
    (ask query).play host script s = ⟨none, s, script⟩ := by
  rw [ask,Program.play,stopped]

theorem play_act {op : I.Op} {f : F} {r : I.Result op} {s' : σ} (met : script 0 = some f)
    (performed : host.perform f op s = (r,s')) :
    (act op).play host script s = ⟨some (.ok r), s', script.after 1⟩ := by
  rw [act,Program.play,met]
  simp only [performed,play_done]

theorem play_act_stopped {op : I.Op} (stopped : script 0 = none) :
    (act op).play host script s = ⟨none, s, script⟩ := by
  rw [act,Program.play,stopped]

/-- The first part of a program returned, and the second goes on from there. -/
theorem play_returned {p : Program I α} {f : α → Program I β} {a : α} {s' : σ}
    {script' : Script F} (ran : p.play host script s = ⟨some (.ok a), s', script'⟩) :
    (p >>= f).play host script s = (f a).play host script' s' := by
  rw [play_bind,ran]
  rfl

theorem play_threw {p : Program I α} {f : α → Program I β} {e : I.Error} {s' : σ}
    {script' : Script F} (ran : p.play host script s = ⟨some (.error e), s', script'⟩) :
    (p >>= f).play host script s = ⟨some (.error e), s', script'⟩ := by
  rw [play_bind,ran]
  rfl

theorem play_stopped {p : Program I α} {f : α → Program I β} {s' : σ} {script' : Script F}
    (ran : p.play host script s = ⟨none, s', script'⟩) :
    (p >>= f).play host script s = ⟨none, s', script'⟩ := by
  rw [play_bind,ran]
  rfl

/-- A handler that throws again changes the error only. -/
theorem play_rethrow (p : Program I α) (wrap : I.Error → I.Error) :
    (tryCatch p fun e => throw (wrap e)).play host script s =
      { p.play host script s with
        outcome := (p.play host script s).outcome.map fun r => r.mapError wrap } := by
  change (p.catching fun e => .done (.error (wrap e))).play host script s = _
  induction p generalizing script s with
  | done r => cases r <;> rfl
  | await query next ih =>
    simp only [Program.catching,Program.play]
    cases script 0 with
    | none => rfl
    | some fate => exact ih _
  | perform op next ih =>
    simp only [Program.catching,Program.play]
    cases script 0 with
    | none => rfl
    | some fate => exact ih _

/-- A program that returned did so after its first part returned. -/
theorem play_bind_ok {p : Program I α} {f : α → Program I β} {b : β} {s' : σ} {script' : Script F}
    (ran : (p >>= f).play host script s = ⟨some (.ok b), s', script'⟩) :
    ∃ a s₁ script₁, p.play host script s = ⟨some (.ok a), s₁, script₁⟩ ∧
      (f a).play host script₁ s₁ = ⟨some (.ok b), s', script'⟩ := by
  cases first : p.play host script s with
  | mk outcome s₁ script₁ =>
    cases outcome with
    | none => cases (play_stopped first).symm.trans ran
    | some r =>
      cases r with
      | error e => cases (play_threw first).symm.trans ran
      | ok a => exact ⟨a,s₁,script₁,rfl,(play_returned first).symm.trans ran⟩

/-- What the first part of a program never moves, only its second part can have moved. -/
theorem play_bind_moved {p : Program I α} {f : α → Program I β} {view : σ → δ}
    (still : view (p.play host script s).world = view s)
    (moved : view ((p >>= f).play host script s).world ≠ view s) :
    ∃ a s₁ script₁, p.play host script s = ⟨some (.ok a), s₁, script₁⟩ ∧
      view ((f a).play host script₁ s₁).world ≠ view s₁ := by
  cases first : p.play host script s with
  | mk outcome s₁ script₁ =>
    rw [first] at still
    cases outcome with
    | none =>
      rw [play_stopped first] at moved
      exact absurd still moved
    | some r =>
      cases r with
      | error e =>
        rw [play_threw first] at moved
        exact absurd still moved
      | ok a =>
        rw [play_returned first,← still] at moved
        exact ⟨a,s₁,script₁,rfl,moved⟩

/-! ### What a program leaves alone -/

/-- The program makes only these requests. -/
def Program.Confined (asks : I.Query → Prop) (does : I.Op → Prop) : Program I α → Prop
  | .done _ => True
  | .await query next => asks query ∧ ∀ r, (next r).Confined asks does
  | .perform op next => does op ∧ ∀ r, (next r).Confined asks does

variable {asks : I.Query → Prop} {does : I.Op → Prop}

theorem confined_ask {query : I.Query} (asked : asks query) : (ask query).Confined asks does :=
  ⟨asked,fun _ => trivial⟩

theorem confined_act {op : I.Op} (done : does op) : (act op).Confined asks does :=
  ⟨done,fun _ => trivial⟩

theorem confined_bind {p : Program I α} {f : α → Program I β} (first : p.Confined asks does)
    (later : ∀ a, (f a).Confined asks does) : (p >>= f).Confined asks does := by
  change (p.bind f).Confined asks does
  induction p with
  | done r =>
    cases r with
    | ok a => exact later a
    | error e => trivial
  | await query next ih => exact ⟨first.1,fun r => ih r (first.2 r)⟩
  | perform op next ih => exact ⟨first.1,fun r => ih r (first.2 r)⟩

theorem confined_rethrow {p : Program I α} {wrap : I.Error → I.Error}
    (first : p.Confined asks does) : (tryCatch p fun e => throw (wrap e)).Confined asks does := by
  change (p.catching fun e => .done (.error (wrap e))).Confined asks does
  induction p with
  | done r => cases r <;> trivial
  | await query next ih => exact ⟨first.1,fun r => ih r (first.2 r)⟩
  | perform op next ih => exact ⟨first.1,fun r => ih r (first.2 r)⟩

theorem confined_mono {asks' : I.Query → Prop} {p : Program I α} (confined : p.Confined asks does)
    (wider : ∀ query, asks query → asks' query) : p.Confined asks' does := by
  induction p with
  | done r => trivial
  | await query next ih => exact ⟨wider query confined.1,fun r => ih r (confined.2 r)⟩
  | perform op next ih => exact ⟨confined.1,fun r => ih r (confined.2 r)⟩

/-- What each permitted request keeps, the whole run keeps. -/
theorem play_keeps {K : σ → Prop} {p : Program I α} (confined : p.Confined asks does)
    (answer : ∀ f query s, asks query → K s → K (host.answer f query s).2)
    (perform : ∀ f op s, does op → K s → K (host.perform f op s).2) (now : K s) :
    K (p.play host script s).world := by
  induction p generalizing script s with
  | done r => exact now
  | await query next ih =>
    simp only [Program.play]
    cases script 0 with
    | none => exact now
    | some f => exact ih _ (confined.2 _) (answer f query s confined.1 now)
  | perform op next ih =>
    simp only [Program.play]
    cases script 0 with
    | none => exact now
    | some f => exact ih _ (confined.2 _) (perform f op s confined.1 now)

/-- What the first part of a program leaves true and the second keeps. -/
theorem play_bind_keeps {K : σ → Prop} {p : Program I α} {f : α → Program I β}
    (first : K (p.play host script s).world)
    (later : ∀ a script s, K s → K ((f a).play host script s).world) :
    K ((p >>= f).play host script s).world := by
  cases ran : p.play host script s with
  | mk outcome s₁ script₁ =>
    rw [ran] at first
    cases outcome with
    | none =>
      rw [play_stopped ran]
      exact first
    | some r =>
      cases r with
      | error e =>
        rw [play_threw ran]
        exact first
      | ok a =>
        rw [play_returned ran]
        exact later a script₁ s₁ first

end EventLoop
