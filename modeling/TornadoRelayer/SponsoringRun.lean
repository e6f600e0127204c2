import TornadoRelayer.Sponsorship
import TornadoRelayer.SponsoringCalls

/-! The accepted calls on the contract: executed in order after the validation that signed
their withdrawal, the sponsoring one finds its sponsorship open and closes it. -/
namespace TornadoRelayer.Paymaster

open BigEndian Keccak CallStack

/-! ### A history that goes on without validations -/

def Later (h : List Entry) (w : World) : Prop :=
  ∃ recent, w.history = recent ++ h ∧ validatedKeys recent = []

theorem Later.refl (w : World) : Later w.history w := ⟨[],rfl,rfl⟩

theorem Later.trans {h : List Entry} {w w' : World} (first : Later h w)
    (second : Later w.history w') : Later h w' := by
  obtain ⟨recent,history,none⟩ := first
  obtain ⟨recent',history',none'⟩ := second
  refine ⟨recent' ++ recent,?_,?_⟩
  · rw [history',history,List.append_assoc]
  · rw [validatedKeys,List.filterMap_append]
    rw [validatedKeys] at none none'
    rw [none,none']
    rfl

theorem Later.same {h : List Entry} {w w' : World} (now : Later h w)
    (history : w'.history = w.history) : Later h w' := by
  obtain ⟨recent,since,none⟩ := now
  exact ⟨recent,history.trans since,none⟩

theorem Later.note {h : List Entry} {w w' : World} {e : Entry} (now : Later h w)
    (history : w'.history = e :: w.history) (plain : validatedKeys [e] = []) : Later h w' := by
  apply now.trans
  exact ⟨[e],history,plain⟩

theorem Later.addReceived {h : List Entry} {w : World} (now : Later h w) (asset : Asset)
    (sender : Address) (n : Nat) : Later h (addReceived w asset sender n) := by
  rw [Paymaster.addReceived]
  split
  · exact now
  · exact now.note (e := .recorded asset sender n) rfl rfl

theorem Later.pay {h : List Entry} {w : World} (now : Later h w) (asset : Asset) (n : Nat) :
    Later h (w.pay asset n) := by
  apply Later.note (e := .left asset n) now _ rfl
  rw [World.pay,World.note,setHolding_history]

theorem Later.recorded {h : List Entry} {w : World} (now : Later h w) (p : RelayPending) :
    Later h (recordedBy w p) := by
  rw [recordedBy]
  split
  · exact now.addReceived ..
  · exact (now.addReceived ..).addReceived ..

/-- The code validates nothing up to where control leaves it. -/
def LaterRun (h : List Entry) : Run World Revert κ → Prop
  | .returned world => Later h world
  | .reverted _ => True
  | .calling atCall after _ => Later h atCall ∧ Later h after

variable {h : List Entry} {s : World}

theorem finish_later (ctx : Context) (cost refund : Nat) (now : Later h s) :
    LaterRun h (finish ctx cost refund s) := now.same rfl

theorem depositRest_later (ctx : Context) (cost balance refund : Nat) (now : Later h s) :
    LaterRun h (depositRest ctx cost balance refund s) := by
  rw [depositRest]
  split
  · exact finish_later ctx cost refund now
  · split
    · exact finish_later ctx cost refund (now.same rfl)
    · exact ⟨now,now.pay ..⟩

theorem expectFee_later (ctx : Context) (balance : Nat) (now : Later h s) :
    Later h (expectFee ctx balance s) := by
  rw [expectFee]
  split
  · exact now.same rfl
  · exact now

theorem settleEth_later (ctx : Context) (keep cost balance : Nat) (now : Later h s) :
    LaterRun h (settleEth ctx keep cost balance s) := by
  have expected := expectFee_later ctx balance now
  rw [settleEth]
  generalize expectFee ctx balance s = s at *
  split
  · exact depositRest_later ctx cost balance 0 expected
  · split
    · exact depositRest_later ctx cost balance 0 (expected.same rfl)
    · exact ⟨expected,expected.pay ..⟩

theorem settleToken_later (d : Deployment) (ctx : Context) (keep cost balance : Nat)
    (now : Later h s) : LaterRun h (settleToken d ctx keep cost balance s) := by
  have expected := expectFee_later ctx balance now
  rw [settleToken]
  generalize expectFee ctx balance s = s at *
  split
  · exact finish_later ctx cost 0 expected
  · rw [refundToken,if_neg (by simp)]
    exact ⟨expected,expected.pay ..⟩

theorem postOp_later (d : Deployment) (m : Address) (mode : PostOpMode) (ctx : Context)
    (cost price : Word 32) (now : Later h s) : LaterRun h (postOp d m mode ctx cost price s) := by
  have taken : Later h (takenBy s ctx.sender) := now.note (e := .took ctx.sender _ _) rfl rfl
  rw [postOp]
  split
  · trivial
  · simp only
    split
    · exact taken.same rfl
    · split
      · trivial
      · split
        · exact settleEth_later ctx _ _ _ taken
        · exact settleToken_later d ctx _ _ _ taken

theorem beginRelay_later (d : Deployment) (m : Address) (w : Withdrawal) (answer : TokenAnswer)
    (now : Later h s) : LaterRun h (beginRelay d m w answer s) := by
  rcases beginRelay_cases d m w answer s with ⟨reason,reverted⟩ | ⟨target,_,_,_,called⟩
  · rw [reverted]
    trivial
  · have begun : Later h (consumedBy s m target w) := by
      apply now.trans
      exact ⟨[.called target w,.begun m w],rfl,rfl⟩
    rw [called]
    exact ⟨begun,begun⟩

theorem endRelay_later (p : RelayPending) (ok : Bool) (now : Later h s) :
    LaterRun h (endRelay p ok s) := by
  rcases endRelay_cases p ok s with ⟨reason,reverted⟩ | ⟨event,_,_,recorded⟩
  · rw [reverted]
    trivial
  · rw [recorded]
    exact (now.recorded p).same rfl

theorem LaterRun.map {κ κ' : Type} {r : Run World Revert κ} (f : κ → κ') (later : LaterRun h r) :
    LaterRun h (r.map f) := by
  cases r <;> exact later

theorem LaterRun.simulated {r : Run World Revert RelayPending} (later : LaterRun h r) :
    LaterRun h (simulated r) := by
  cases r with
  | calling atCall after p => exact later
  | returned _ => trivial
  | reverted _ => trivial

variable {lib : Eip7702Support} {tryRecover : Bytes32 → Bytes → Option Address} {d : Deployment}

/-- Only the EntryPoint has operations validated. -/
theorem call_later {c : Call} (outside : c.msgSender ≠ d.entryPoint) (now : Later h s) :
    LaterRun h ((paymaster lib tryRecover d).call c s) := by
  cases c with
  | validatePaymasterUserOp msgSender chain userOp userOpHash =>
    change LaterRun h (validatePaymasterUserOp ..)
    rw [validatePaymasterUserOp]
    split
    · trivial
    · next validated =>
      exact absurd ((validationResult_ok_iff lib).mp validated).1 outside
  | relayWithdraw msgSender w answer =>
    change LaterRun h ((relayWithdraw ..).map _)
    apply LaterRun.map
    rw [relayWithdraw]
    split
    · trivial
    · exact beginRelay_later d msgSender w answer now
  | simulateRelayWithdraw msgSender w answer =>
    change LaterRun h ((simulateRelayWithdraw ..).map _)
    apply LaterRun.map
    rw [simulateRelayWithdraw,relayWithdrawSimulated,if_neg (by simp)]
    apply LaterRun.simulated
    apply beginRelay_later
    exact now.note (e := .dryRun _ _) rfl rfl
  | relayWithdrawSimulated msgSender w answer =>
    change LaterRun h ((relayWithdrawSimulated ..).map _)
    apply LaterRun.map
    rw [relayWithdrawSimulated]
    split
    · trivial
    · exact beginRelay_later d msgSender w answer now
  | postOp msgSender mode ctx cost price => exact postOp_later d msgSender mode ctx cost price now
  | refundToken msgSender token recipient amount =>
    change LaterRun h ((refundToken ..).map _)
    apply LaterRun.map
    rw [refundToken]
    split
    · trivial
    · exact ⟨now,now.pay ..⟩

theorem resume_later (k : Pending) (ok : Bool) (now : Later h s) :
    LaterRun h ((paymaster lib tryRecover d).resume k ok s) := by
  cases k with
  | relay p => exact (endRelay_later p ok now).map _
  | simulating p => exact (endRelay_later p ok now).simulated.map _
  | refundingEth ctx cost balance refund =>
    change LaterRun h (if ok then _ else _)
    split
    · exact depositRest_later ctx cost _ refund now
    · exact depositRest_later ctx cost balance 0 (now.same rfl)
  | depositing ctx cost balance refund =>
    apply finish_later
    split
    · exact now
    · exact now.same rfl
  | refundingToken ctx cost refund =>
    change LaterRun h (if ok then _ else _)
    split
    · exact finish_later ctx cost refund now
    · exact finish_later ctx cost 0 (now.same rfl)
  | transferring =>
    change LaterRun h (if ok then _ else _)
    split
    · exact now
    · trivial

theorem act_later (a : Act) (ks : List Pending) (now : Later h s) :
    Later h ((paymaster lib tryRecover d).act a ks s) := by
  cases a with
  | receive asset amount =>
    apply now.note (e := .entered asset amount (befores asset ks ≠ [])) _ rfl
    change _ :: (s.setHolding asset _).history = _
    rw [setHolding_history]
  | report token amount => exact now.same (setHolding_history s (.token token) amount)

/-! ### Executing the calls -/

/-- A call elsewhere that does not reach the paymaster. -/
def Elsewhere : Allowed World Pending Call Act
  | _, _, .call _ => False
  | _, _, _ => True

/-- While the sponsoring call is out, anyone but the EntryPoint may call the paymaster. -/
def Reentrant (d : Deployment) : Allowed World Pending Call Act
  | ks, _, .call c => ks ≠ [] ∧ c.msgSender ≠ d.self ∧ c.msgSender ≠ d.entryPoint
  | ks, _, _ => ks ≠ []

variable (lib) (tryRecover) (d)

/-- The account's calls carried out one after the other, none of them failing. `decode` is
the contract's own decoding of a `relayWithdraw` call. -/
inductive Executes (decode : Bytes → Option Withdrawal) (sender : Address) :
    List DecodedCall → Nat → World → Nat → World → Prop where
  | done (gas : Nat) (world : World) : Executes decode sender [] gas world gas world
  | elsewhere {call : DecodedCall} {calls : List DecodedCall} {gas gas₁ gas₂ : Nat}
    {world world₁ world₂ : World} : call.target ≠ d.self →
    Reachable (paymaster lib tryRecover d) Elsewhere ⟨gas, world, []⟩ ⟨gas₁, world₁, []⟩ →
    Executes decode sender calls gas₁ world₁ gas₂ world₂ →
    Executes decode sender (call :: calls) gas world gas₂ world₂
  | relay {call : DecodedCall} {calls : List DecodedCall} {gas gas₁ gas₂ : Nat}
    {world atCall after answered world₁ world₂ : World} {w : Withdrawal} {answer : TokenAnswer}
    {p : RelayPending} : call.target = d.self → call.value = 0 → decode call.data = some w →
    relayWithdraw d sender w answer world = .calling atCall after p →
    Reachable (paymaster lib tryRecover d) (Reentrant d)
      ⟨gas, after, [.waiting world atCall (.relay p)]⟩
      ⟨gas₁ + 1, answered, [.waiting world atCall (.relay p)]⟩ →
    endRelay p true answered = .returned world₁ →
    Executes decode sender calls gas₁ world₁ gas₂ world₂ →
    Executes decode sender (call :: calls) (gas + 1) world gas₂ world₂

variable {lib} {tryRecover} {d} {decode : Bytes → Option Withdrawal} {sender : Address}

theorem Elsewhere.external {ks : List Pending} {w : World} {step : Step Call Act}
    (elsewhere : Elsewhere ks w step) : External d ks w step := by
  cases step <;> trivial

theorem Reentrant.external {ks : List Pending} {w : World} {step : Step Call Act}
    (reentrant : Reentrant d ks w step) : External d ks w step := by
  cases step with
  | call c => exact reentrant.2.1
  | _ => trivial

theorem Executes.append_iff {xs ys : List DecodedCall} {gas gas₂ : Nat} {world world₂ : World} :
    Executes lib tryRecover d decode sender (xs ++ ys) gas world gas₂ world₂ ↔
      ∃ gas₁ world₁, Executes lib tryRecover d decode sender xs gas world gas₁ world₁ ∧
        Executes lib tryRecover d decode sender ys gas₁ world₁ gas₂ world₂ := by
  induction xs generalizing gas world with
  | nil =>
    constructor
    · intro rest
      exact ⟨gas,world,.done gas world,rest⟩
    · rintro ⟨_,_,none,rest⟩
      cases none
      exact rest
  | cons call xs ih =>
    constructor
    · intro ran
      cases ran with
      | elsewhere other away rest =>
        obtain ⟨gas₁,world₁,first,rest⟩ := ih.mp rest
        exact ⟨gas₁,world₁,.elsewhere other away first,rest⟩
      | relay own free decoded called inner ended rest =>
        obtain ⟨gas₁,world₁,first,rest⟩ := ih.mp rest
        exact ⟨gas₁,world₁,.relay own free decoded called inner ended first,rest⟩
    · rintro ⟨gas₁,world₁,ran,rest⟩
      cases ran with
      | elsewhere other away first => exact .elsewhere other away (ih.mpr ⟨_,_,first,rest⟩)
      | relay own free decoded called inner ended first =>
        exact .relay own free decoded called inner ended (ih.mpr ⟨_,_,first,rest⟩)

/-- A call that stays away leaves the transient storage alone. -/
theorem elsewhere_kept {t : Storage} {gas gas₁ : Nat} {world world₁ : World}
    (away : Reachable (paymaster lib tryRecover d) Elsewhere ⟨gas, world, []⟩ ⟨gas₁, world₁, []⟩)
    (kept : world.transient = t ∧ Later h world) : world₁.transient = t ∧ Later h world₁ := by
  have inv : CallStack.Invariant (paymaster lib tryRecover d) Elsewhere
      (fun _ ks w => ks = [] ∧ w.transient = t ∧ Later h w) (fun _ _ _ _ => False) := by
    constructor
    · exact fun now => now
    · exact fun saved => saved
    · intro gas ks w a now _
      refine ⟨now.1,?_,act_later a ks now.2.2⟩
      cases a with
      | receive asset amount =>
        cases asset <;> exact now.2.1
      | report token amount => exact now.2.1
    · intro gas ks w c _ permitted
      exact absurd permitted id
    · intro gas k ks w now
      cases now.1
    · intro gas k ks w saved
      exact absurd saved id
  have start : Holds (fun _ ks w => ks = [] ∧ w.transient = t ∧ Later h w)
      (fun _ _ _ _ => False) (⟨gas, world, []⟩ : Config World Pending) := ⟨⟨rfl,kept⟩,trivial⟩
  exact (away.invariant inv start).1.2

/-- What happens while the sponsoring call is out validates nothing. -/
theorem reentrant_later {gas gas₁ : Nat} {world atCall after answered : World} {k : Pending}
    (inner : Reachable (paymaster lib tryRecover d) (Reentrant d)
      ⟨gas, after, [.waiting world atCall k]⟩ ⟨gas₁, answered, [.waiting world atCall k]⟩)
    (called : Later h atCall ∧ Later h after) : Later h answered := by
  have inv : CallStack.Invariant (paymaster lib tryRecover d) (Reentrant d)
      (fun _ ks w => ks ≠ [] → Later h w) (fun _ _ _ w => Later h w) := by
    have upheld {gas : Nat} {ks : List Pending} {r : Run World Revert Pending}
        (later : LaterRun h r) :
        Upholds (fun _ ks w => ks ≠ [] → Later h w) (fun _ _ _ w => Later h w) gas ks r := by
      cases r with
      | returned world => exact fun _ => later
      | reverted reason => trivial
      | calling atCall after pending => exact ⟨later.1,fun _ => later.2⟩
    constructor
    · exact fun now => now
    · exact fun saved => saved
    · intro gas ks w a now _ pending
      exact act_later a ks (now pending)
    · intro gas ks w c now permitted
      exact upheld (call_later permitted.2.2 (now permitted.1))
    · intro gas k ks w now
      exact upheld (resume_later k true (now (by simp)))
    · intro gas k ks w saved
      exact upheld (resume_later k false saved)
  have start : Holds (fun _ ks w => ks ≠ [] → Later h w) (fun _ _ _ w => Later h w)
      (⟨gas, after, [.waiting world atCall k]⟩ : Config World Pending) :=
    ⟨fun _ => called.2,fun none => absurd rfl none,called.1,trivial⟩
  exact (inner.invariant inv start).1 (by simp [live])

theorem Executes.later {calls : List DecodedCall} {gas gas' : Nat} {world world' : World}
    (ran : Executes lib tryRecover d decode sender calls gas world gas' world')
    (now : Later h world) : Later h world' := by
  induction ran with
  | done => exact now
  | elsewhere _ away _ ih => exact ih (elsewhere_kept away ⟨rfl,now⟩).2
  | @relay _ _ _ _ _ world atCall after answered world₁ _ w answer p _ _ _ called inner ended _ ih =>
    have begun : LaterRun h (relayWithdraw d sender w answer world) := by
      rw [relayWithdraw]
      split
      · trivial
      · exact beginRelay_later d sender w answer now
    rw [called] at begun
    have recorded := endRelay_later p true (reentrant_later inner begun)
    rw [ended] at recorded
    exact ih recorded

/-- The ledger of the sponsorships holds through the calls. -/
theorem Executes.ledger {limit : Nat} {calls : List DecodedCall} {gas gas' : Nat}
    {world world' : World}
    (ran : Executes lib tryRecover d decode sender calls gas world gas' world')
    (now : Ledger limit gas [] world) : Ledger limit gas' [] world' := by
  have rules := ledger_rules d limit
  induction ran with
  | done => exact now
  | elsewhere _ away _ ih =>
    exact ih (rules.reachable now (away.weaken fun _ _ _ => Elsewhere.external))
  | @relay _ _ gas _ _ world atCall after answered world₁ _ w answer p _ _ _ called inner ended _ ih =>
    have recipient : sender = w.recipient := by
      by_contra other
      rw [relayWithdraw,if_pos other] at called
      contradiction
    rw [relayWithdraw,if_neg (not_not.mpr recipient),recipient] at called
    have begun : Ledger limit gas [.relay p] after := by
      rcases beginRelay_cases d w.recipient w answer world with ⟨reason,reverted⟩ |
        ⟨target,viaRouter,token,granted,begins⟩
      · rw [reverted] at called
        contradiction
      · rw [begins] at called
        cases called
        exact rules.begin_ (R := reserve []) target viaRouter token now granted
    have start : Holds (Between fun gas ks _ w => Ledger limit gas ks w)
        (OnFailure fun gas ks _ w => Ledger limit gas ks w)
        (⟨gas, after, [.waiting world atCall (.relay p)]⟩ : Config World Pending) :=
      ⟨begun,rules.spend (R := reserve []) now,trivial,trivial⟩
    have external := inner.weaken fun _ _ _ => Reentrant.external
    have out := (external.invariant (rules.invariant lib tryRecover) start).1
    have back : Upholds (Between fun gas ks _ w => Ledger limit gas ks w)
        (OnFailure fun gas ks _ w => Ledger limit gas ks w) _ []
        ((paymaster lib tryRecover d).resume (.relay p) true answered) :=
      succeed_upholds rules out
    have returned : (paymaster lib tryRecover d).resume (.relay p) true answered =
        .returned world₁ := by
      change (endRelay p true answered).map _ = _
      rw [ended]
      rfl
    rw [returned] at back
    exact ih back

theorem Executes.kept {calls : List DecodedCall} {gas gas' : Nat} {world world' : World}
    (ran : Executes lib tryRecover d decode sender calls gas world gas' world')
    (away : ∀ call ∈ calls, call.target ≠ d.self) : world'.transient = world.transient := by
  induction ran with
  | done => rfl
  | elsewhere _ quiet _ ih =>
    rw [ih fun call member => away call (List.mem_cons_of_mem _ member)]
    exact (elsewhere_kept quiet ⟨rfl,.refl _⟩).1
  | relay own => exact absurd own (away _ List.mem_cons_self)

/-! ### The sponsorship of the accepted list -/

/-- The operation's validation succeeded, and it carries this withdrawal. -/
structure Validated (lib : Eip7702Support) (tryRecover : Bytes32 → Bytes → Option Address)
    (d : Deployment) (sender : Address) (w : Withdrawal) (s s₁ : World) : Prop where
  validates : ∃ chain userOp userOpHash terms sig, userOp.sender = sender ∧
    parsePaymasterAndData userOp.paymasterAndData = .ok (terms,sig) ∧
    TornadoRelayer.withdrawalHash w = .ok terms.withdrawalHash ∧
    validatePaymasterUserOp lib tryRecover d d.entryPoint chain userOp userOpHash s = .returned s₁

theorem Validated.grants {w : Withdrawal} {s₁ : World}
    (validated : Validated lib tryRecover d w.recipient w s s₁) :
    ∃ ctx : Context, ctx.key = withdrawalKey w ∧ s₁ = validatedBy s ctx := by
  obtain ⟨chain,userOp,userOpHash,terms,sig,sender,parsed,hash,returned⟩ := validated.validates
  rw [validatePaymasterUserOp] at returned
  cases valid : validationResult lib tryRecover d chain d.entryPoint userOp userOpHash with
  | error reason =>
    rw [valid] at returned
    simp at returned
  | ok result =>
    obtain ⟨ctx,data⟩ := result
    rw [valid] at returned
    obtain ⟨_,t,sig',_,parsed',_,_,result⟩ := (validationResult_ok_iff lib).mp valid
    have same : t = terms := (Prod.ext_iff.mp (Except.ok.inj (parsed.symm.trans parsed'))).1.symm
    have bound : ctx = ⟨userOpHash,userOp.sender,t⟩ := (Prod.ext_iff.mp result).1
    rw [withdrawalHash_agrees] at hash
    refine ⟨ctx,?_,(Run.returned.inj returned).symm⟩
    rw [Context.key,withdrawalKey,bound,same,Except.ok.inj hash,← sender]

theorem validatedKeys_append (recent h : List Entry) :
    validatedKeys (recent ++ h) = validatedKeys recent ++ validatedKeys h := List.filterMap_append

theorem begunKeys_append (recent h : List Entry) :
    begunKeys (recent ++ h) = begunKeys recent ++ begunKeys h := List.filterMap_append

/-- The sponsoring call leaves the begun relay in the history. -/
theorem Executes.begins {call : DecodedCall} {calls : List DecodedCall} {gas gas' : Nat}
    {world world' : World} {w : Withdrawal}
    (ran : Executes lib tryRecover d decode sender (call :: calls) gas world gas' world')
    (own : call.target = d.self) (decoded : decode call.data = some w) :
    ∃ recent, world'.history = recent ++ world.history ∧ withdrawalKey w ∈ begunKeys recent := by
  cases ran with
  | elsewhere other => exact absurd own other
  | @relay _ _ _ _ _ _ atCall after answered world₁ _ v answer p _ _ decoded' called inner ended rest =>
    obtain rfl := Option.some.inj (decoded.symm.trans decoded')
    have begun : ∃ target, atCall = consumedBy world sender target w ∧ after = atCall := by
      rw [relayWithdraw] at called
      split at called
      · contradiction
      · rcases beginRelay_cases d sender w answer world with ⟨reason,reverted⟩ |
          ⟨target,_,_,_,begins⟩
        · rw [reverted] at called
          contradiction
        · rw [begins] at called
          cases called
          exact ⟨target,rfl,rfl⟩
    obtain ⟨target,rfl,rfl⟩ := begun
    have recorded := endRelay_later p true (reentrant_later inner ⟨.refl _,.refl _⟩)
    rw [ended] at recorded
    obtain ⟨recent,history,_⟩ := rest.later recorded
    refine ⟨recent ++ [.called target w,.begun sender w],?_,?_⟩
    · rw [history,List.append_assoc]
      rfl
    · rw [begunKeys_append]
      exact List.mem_append_right _ (List.mem_singleton_self _)

/-! ### What the validator approves -/

variable (lib) (tryRecover) (d) (decode) (sender)

/-- After the validation the sponsoring call passes its checks when its turn comes, and once
all calls ran no more is open than before. -/
structure LetThrough (calls : List DecodedCall) (w : TornadoWithdrawCall) : Prop where
  passes : ∀ (gasLimit : Word 32) balance tokens gas s s₁ gas₁ world,
    Reachable (paymaster lib tryRecover d) (External d)
      ⟨gasLimit.toNat, World.initial balance tokens, []⟩ ⟨gas + 1, s, []⟩ →
    Validated lib tryRecover d sender w.toWithdrawal s s₁ →
    CollisionFree ((withdrawalKey w.toWithdrawal).string :: slotStrings s.history) →
    Executes lib tryRecover d decode sender (calls.take w.index) gas s₁ gas₁ world →
    ∀ answer, relayWithdraw d sender w.toWithdrawal answer world ≠ .reverted .onlyRecipient ∧
      ∀ a h, relayWithdraw d sender w.toWithdrawal answer world ≠ .reverted (.notSponsored a h)
  closes : ∀ (gasLimit : Word 32) balance tokens gas s s₁ gas₁ world,
    Reachable (paymaster lib tryRecover d) (External d)
      ⟨gasLimit.toNat, World.initial balance tokens, []⟩ ⟨gas + 1, s, []⟩ →
    Validated lib tryRecover d sender w.toWithdrawal s s₁ →
    Executes lib tryRecover d decode sender calls gas s₁ gas₁ world →
    ∀ key : Key, CollisionFree (key.string :: slotStrings world.history) →
      (sponsorshipAllowance world key.1 key.2).toNat ≤ (sponsorshipAllowance s key.1 key.2).toNat

variable {lib} {tryRecover} {d} {decode} {sender}

theorem relayWithdraw_open {w : Withdrawal} {world : World} (recipient : w.recipient = sender)
    (granted : sponsorshipAllowance world w.recipient (withdrawalHash w) ≠ 0) (answer : TokenAnswer) :
    relayWithdraw d sender w answer world ≠ .reverted .onlyRecipient ∧
      ∀ a h, relayWithdraw d sender w answer world ≠ .reverted (.notSponsored a h) := by
  have token : ∀ reason, poolToken answer = .error reason → reason = .other := by
    intro reason failed
    rw [poolToken] at failed
    split at failed
    · split at failed
      · contradiction
      · exact (Except.error.inj failed).symm
    · contradiction
  rw [relayWithdraw,if_neg (by simp [recipient]),beginRelay,consumeSponsorship]
  simp only [if_neg granted]
  cases answered : poolToken answer with
  | error reason => simp [token reason answered]
  | ok token => simp

variable {decoder : Decoder} {calls : List DecodedCall} {rules : SponsorRules}
  {w : TornadoWithdrawCall}

theorem sponsors_passes (sponsors : Sponsors decoder calls rules w) (own : d.self = rules.paymaster)
    {limit gas gas₁ : Nat} {s₁ world : World} (narrow : limit < 2 ^ 256)
    (ledger : Ledger limit (gas + 1) [] s)
    (validated : Validated lib tryRecover d rules.sender w.toWithdrawal s s₁)
    (free : CollisionFree ((withdrawalKey w.toWithdrawal).string :: slotStrings s.history))
    (ran : Executes lib tryRecover d decode rules.sender (calls.take w.index) gas s₁ gas₁ world) :
    sponsorshipAllowance world w.recipient (withdrawalHash w.toWithdrawal) ≠ 0 := by
  rw [← sponsors.recipient] at validated
  obtain ⟨ctx,key,granted⟩ := validated.grants
  have away : ∀ call ∈ calls.take w.index, call.target ≠ d.self := by
    intro call member
    obtain ⟨i,less,same⟩ := List.mem_take_iff_getElem.mp member
    rw [own]
    apply sponsors.alone i call
    · rw [← same]
      exact List.getElem?_eq_getElem _
    · omega
  have before := ledger.counted narrow (by simp [Simulating]) free
  have few := ledger.bounded
  have counted : (validatedKeys s.history).count (withdrawalKey w.toWithdrawal) ≤
      grantCount s.history := Nat.le_add_right_of_le List.count_le_length
  have after : world.transient (withdrawalKey w.toWithdrawal).slot =
      s.transient (withdrawalKey w.toWithdrawal).slot + 1 := by
    rw [ran.kept away,granted,← key]
    exact Storage.set_self _ _ _
  intro zero
  have wrapped : s.transient (withdrawalKey w.toWithdrawal).slot + 1 = 0 := after.symm.trans zero
  have value := congrArg BitVec.toNat wrapped
  rw [BitVec.toNat_add,Nat.mod_eq_of_lt (by simp; omega)] at value
  simp at value

theorem sponsors_closes (sponsors : Sponsors decoder calls rules w) (own : d.self = rules.paymaster)
    (agree : ∀ data v, decoder.paymaster data = some (.relayWithdraw v) → decode data = some v)
    {limit gas gas₁ : Nat} {s₁ world : World} (narrow : limit < 2 ^ 256)
    (ledger : Ledger limit (gas + 1) [] s)
    (validated : Validated lib tryRecover d rules.sender w.toWithdrawal s s₁)
    (ran : Executes lib tryRecover d decode rules.sender calls gas s₁ gas₁ world) {key : Key}
    (free : CollisionFree (key.string :: slotStrings world.history)) :
    (world.transient key.slot).toNat ≤ (s.transient key.slot).toNat := by
  rw [← sponsors.recipient] at validated
  obtain ⟨ctx,opened,rfl⟩ := validated.grants
  obtain ⟨call,at_,target,_,relayed⟩ := sponsors.call
  have rules' := ledger_rules d limit
  have started : Ledger limit gas [] (validatedBy s ctx) :=
    rules'.validate (R := reserve []) ctx ledger
  obtain ⟨recent,history,none⟩ := ran.later (.refl _)
  have begun : withdrawalKey w.toWithdrawal ∈ begunKeys recent := by
    have split : calls = calls.take w.index ++ call :: calls.drop (w.index + 1) := by
      obtain ⟨bound,here⟩ := List.getElem?_eq_some_iff.mp at_
      rw [← here,List.cons_getElem_drop_succ,List.take_append_drop]
    rw [split] at ran
    obtain ⟨_,_,first,rest⟩ := Executes.append_iff.mp ran
    obtain ⟨earlier,since,_⟩ := first.later (.refl _)
    obtain ⟨later,after,member⟩ := rest.begins (target.trans own.symm) (agree _ _ relayed)
    rw [history,since,← List.append_assoc,List.append_left_inj] at after
    rw [after,begunKeys_append]
    exact List.mem_append_left _ member
  have ended := (ran.ledger started).counted narrow (by simp [Simulating]) free
  have before : CollisionFree (key.string :: slotStrings s.history) := by
    apply free.subset
    intro string member
    simp only [List.mem_cons,slotStrings,List.mem_append] at member ⊢
    rcases member with rfl | seed | old
    · exact .inl rfl
    · exact .inr (.inl seed)
    · refine .inr (.inr ?_)
      rw [history,List.flatMap_append]
      exact List.mem_append_right _ (List.mem_append_right _ old)
  have opening := ledger.counted narrow (by simp [Simulating]) before
  have granted : validatedKeys (validatedBy s ctx).history =
      withdrawalKey w.toWithdrawal :: validatedKeys s.history := by
    rw [← opened]
    rfl
  have carried : begunKeys (validatedBy s ctx).history = begunKeys s.history := rfl
  rw [history,validatedKeys_append,none,begunKeys_append,granted,carried,List.count_append] at ended
  simp only [List.nil_append,List.count_cons] at ended
  by_cases same : withdrawalKey w.toWithdrawal = key
  · subst same
    have once := List.count_pos_iff.mpr begun
    simp only [beq_self_eq_true,if_true] at ended
    omega
  · rw [if_neg (by simpa using same)] at ended
    omega

/-- The contract lets exactly what the validator approves through. -/
theorem approved_lets_through
    (agree : ∀ data v, decoder.paymaster data = some (.relayWithdraw v) → decode data = some v)
    (own : d.self = rules.paymaster) :
    (∀ w, findSponsoringWithdraw decoder calls rules = .ok w →
      (calls.filter fun c => c.target = rules.paymaster).length = 1 ∧
      Sponsors decoder calls rules w ∧
      TornadoRelayer.withdrawalHash w.toWithdrawal = .ok (withdrawalHash w.toWithdrawal) ∧
      LetThrough lib tryRecover d decode rules.sender calls w) ∧
    ∀ w, Sponsors decoder calls rules w → findSponsoringWithdraw decoder calls rules = .ok w := by
  refine ⟨?_,fun w => findSponsoringWithdraw_ok_iff.mpr⟩
  intro w found
  have sponsors := findSponsoringWithdraw_ok_iff.mp found
  refine ⟨(findSponsoringWithdraw_found found).2.2.1,sponsors,withdrawalHash_agrees _,?_,?_⟩
  · intro gasLimit balance tokens gas s s₁ gas₁ world reach validated free ran answer
    have granted := sponsors_passes sponsors own gasLimit.isLt (ledger_holds reach) validated free ran
    exact relayWithdraw_open sponsors.recipient granted answer
  · intro gasLimit balance tokens gas s s₁ gas₁ world reach validated ran key free
    exact sponsors_closes sponsors own agree gasLimit.isLt (ledger_holds reach) validated ran free

def sampleDeployment : Deployment := { defaultDeployment with self := samplePaymaster }

def sampleDecode (data : Bytes) : Option Withdrawal :=
  match (samplePlatform [1]).decoder.paymaster data with
  | some (.relayWithdraw w) => some w
  | _ => none

/-- Where its sponsorship is open and its pool pays, the sponsoring call runs through. -/
theorem executes_sponsoring {call : DecodedCall} {w : Withdrawal} {gas paid : Nat} {world : World}
    (own : call.target = d.self) (free : call.value = 0) (decoded : decode call.data = some w)
    (granted : sponsorshipAllowance world w.recipient (withdrawalHash w) ≠ 0) (some : paid ≠ 0) :
    ∃ world₁, Executes lib tryRecover d decode w.recipient [call] (gas + 3) world gas world₁ ∧
      world₁.history = .recorded .eth w.recipient paid :: .entered .eth paid true ::
        .called (if d.router ≠ 0 then d.router else w.pool) w :: .begun w.recipient w ::
          world.history := by
  have silent : poolToken ⟨false,[]⟩ = .ok 0 := rfl
  let target := if d.router ≠ 0 then d.router else w.pool
  let begun := consumedBy world w.recipient target w
  let p := relayPending begun w (d.router ≠ 0) 0
  have begins : relayWithdraw d w.recipient w ⟨false,[]⟩ world = .calling begun begun p := by
    rw [relayWithdraw,if_neg (by simp),beginRelay,consumeSponsorship]
    simp only [if_neg granted,silent]
    rfl
  let answered := (begun.setHolding .eth (begun.balance + paid)).note (.entered .eth paid true)
  have inner : Reachable (paymaster lib tryRecover d) (Reentrant d)
      ⟨gas + 2, begun, [.waiting world begun (.relay p)]⟩
      ⟨gas + 1, answered, [.waiting world begun (.relay p)]⟩ :=
    .step (s := .act (.receive .eth paid)) .start (by simp [Reentrant,live]) rfl
  have measured : answered.balance - p.ethBefore = paid := Nat.add_sub_cancel_left ..
  have ends : endRelay p true answered = .returned ((addReceived answered .eth w.recipient paid).emit
      (.relayed w.pool w.nullifierHash w.relayer w.fee (d.router ≠ 0))) := by
    simp only [endRelay,if_true,measured]
    have enough : ¬answered.balance < p.ethBefore := Nat.not_lt.mpr (Nat.le_add_right ..)
    rw [if_neg enough]
    rfl
  refine ⟨_,.relay own free decoded begins inner ends (.done gas _),?_⟩
  rw [addReceived,if_neg some]
  rfl

/-- The account's operation carries the withdrawal, and the call comes after a transfer. -/
def approvedCall : TornadoWithdrawCall := { sponsoringCall with index := 1 }

theorem approved_lets_through_transfer :
    findSponsoringWithdraw (samplePlatform [1]).decoder [transferCall, sampleCall 1] sampleRules =
      .ok approvedCall ∧
    ∃ s₁ gas₁ middle gas₂ world,
      Validated Eip7702Support.standard (fun _ _ => some 0xa1) sampleDeployment sampleAccount
        (sampleWithdrawal 1) (World.initial 0 fun _ => 0) s₁ ∧
      Executes Eip7702Support.standard (fun _ _ => some 0xa1) sampleDeployment sampleDecode
        sampleAccount [transferCall] 19 s₁ gas₁ middle ∧
      Executes Eip7702Support.standard (fun _ _ => some 0xa1) sampleDeployment sampleDecode
        sampleAccount [transferCall, sampleCall 1] 19 s₁ gas₂ world ∧
      (∀ answer a h, relayWithdraw sampleDeployment sampleAccount (sampleWithdrawal 1) answer middle ≠
        .reverted (.notSponsored a h)) ∧
      sponsorshipAllowance world sampleAccount (withdrawalHash (sampleWithdrawal 1)) = 0 := by
  have found : findSponsoringWithdraw (samplePlatform [1]).decoder [transferCall, sampleCall 1]
      sampleRules = .ok approvedCall := by decide +kernel
  have agree : ∀ data v, (samplePlatform [1]).decoder.paymaster data = some (.relayWithdraw v) →
      sampleDecode data = some v := by
    intro data v decoded
    rw [sampleDecode,decoded]
  let lib := Eip7702Support.standard
  let recover : Bytes32 → Bytes → Option Address := fun _ _ => some 0xa1
  let s : World := World.initial 0 fun _ => 0
  let terms := sponsoring (sampleWithdrawal 1) 0 0
  let ctx : Context := ⟨1,sampleAccount,terms⟩
  have valid : validationResult lib recover sampleDeployment delegatedChain sampleDeployment.entryPoint
      (sponsoredOp terms) 1 = .ok (ctx,⟨false,0,0⟩) := by decide +kernel
  have returned : validatePaymasterUserOp lib recover sampleDeployment sampleDeployment.entryPoint
      delegatedChain (sponsoredOp terms) 1 s = .returned (validatedBy s ctx) := by
    rw [validatePaymasterUserOp,valid]
    rfl
  have validated : Validated lib recover sampleDeployment sampleAccount (sampleWithdrawal 1) s
      (validatedBy s ctx) :=
    ⟨delegatedChain,sponsoredOp terms,1,terms,(sponsoredData terms).signature,rfl,sponsoredOp_parses terms,
      withdrawalHash_agrees (sampleWithdrawal 1),returned⟩
  -- The transfer's recipient sends the paymaster three wei.
  let middle := (validatedBy s ctx |>.setHolding .eth 3).note (.entered .eth 3 false)
  have first : Executes lib recover sampleDeployment sampleDecode sampleAccount [transferCall] 19
      (validatedBy s ctx) 18 middle :=
    .elsewhere (by decide) (.step (s := .act (.receive .eth 3)) .start trivial rfl) (.done 18 middle)
  have granted : sponsorshipAllowance middle sampleAccount (withdrawalHash (sampleWithdrawal 1)) ≠ 0 := by
    decide +kernel
  obtain ⟨world,relayed,history⟩ := @executes_sponsoring lib recover sampleDeployment
    sampleDecode (sampleCall 1) (sampleWithdrawal 1) 15 (10 ^ 16) middle rfl rfl (by decide +kernel)
    granted (by decide)
  have ran : Executes lib recover sampleDeployment sampleDecode sampleAccount
      [transferCall, sampleCall 1] 19 (validatedBy s ctx) 15 world :=
    Executes.append_iff.mpr ⟨18,middle,first,relayed⟩
  have through : LetThrough lib recover sampleDeployment sampleDecode sampleAccount
      [transferCall, sampleCall 1] approvedCall := ((approved_lets_through agree rfl).1 _ found).2.2.2
  have begins : Reachable (paymaster lib recover sampleDeployment) (External sampleDeployment)
      ⟨BitVec.toNat (20 : Word 32),s,[]⟩ ⟨19 + 1,s,[]⟩ := .start
  refine ⟨found,_,_,_,_,_,validated,first,ran,fun answer => ?_,?_⟩
  · exact (through.passes _ _ _ _ _ _ _ _ begins validated (by decide +kernel) first answer).2
  · have closed := through.closes _ _ _ _ _ _ _ _ begins validated ran
      (withdrawalKey (sampleWithdrawal 1)) (by rw [history]; decide +kernel)
    exact BitVec.eq_of_toNat_eq (Nat.le_zero.mp closed)

end TornadoRelayer.Paymaster
