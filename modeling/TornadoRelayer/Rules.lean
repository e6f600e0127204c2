import TornadoRelayer.History

/-! What one step of the paymaster can do, said once. A property of the world, of
the relays in progress and of the amounts still to be paid out is an invariant of
every run when these few moves keep it. -/
namespace TornadoRelayer.Paymaster

open BigEndian CallStack

/-- The move that opens a relay. -/
def consumedBy (s : World) (msgSender target : Address) (w : Withdrawal) : World :=
  ((s.tstore (withdrawalKey w).slot (sponsorshipAllowance s w.recipient (withdrawalHash w) - 1)).note
    (.begun msgSender w)).note (.called target w)

def validatedBy (s : World) (ctx : Context) : World :=
  (grantSponsorship s ctx.sender ctx.terms.withdrawalHash).note (.validated ctx)

def dryRunBy (s : World) (w : Withdrawal) : World :=
  (grantSponsorship s w.recipient (withdrawalHash w)).note (.dryRun w.recipient (withdrawalHash w))

def takenBy (s : World) (sender : Address) : World := (takeReceived s sender).2.2

/-- What a relay keeps of the world it is called in. -/
def relayPending (s : World) (w : Withdrawal) (viaRouter : Bool) (token : Address) : RelayPending :=
  ⟨w, viaRouter, token, s.balance, if token = 0 then 0 else s.tokens token⟩

/-- The move that closes a relay. -/
def recordedBy (s : World) (p : RelayPending) : World :=
  let s := addReceived s .eth p.withdrawal.recipient (s.balance - p.ethBefore)
  if p.token = 0 then s
  else addReceived s (.token p.token) p.withdrawal.recipient (s.tokens p.token - p.tokenBefore)

def Pending.isRelay : Pending → Bool
  | .relay _ | .simulating _ => true
  | _ => false

/-- What a settlement in progress may still pay out if its pending call succeeds. -/
def Pending.rest : Pending → Nat
  | .refundingEth _ _ balance refund => balance - refund
  | _ => 0

def reserve : List Pending → Asset → Nat
  | [], _ => 0
  | k :: ks, a => reserve ks a + if a = .eth then k.rest else 0

def withPurse (R : Asset → Nat) (asset : Asset) (n : Nat) : Asset → Nat :=
  fun a => R a + if a = asset then n else 0

/-! ### The moves and the history -/

structure Replayed (w : World) : Prop where
  storage : w.transient = replay w.history
  consistent : Consistent w.history

theorem Replayed.initial (balance : Nat) (tokens : Address → Nat) :
    Replayed (World.initial balance tokens) := ⟨rfl,trivial⟩

theorem Replayed.emit {w : World} (now : Replayed w) (event : Event) : Replayed (w.emit event) :=
  ⟨now.storage,now.consistent⟩

theorem Replayed.setHolding {w : World} (now : Replayed w) (asset : Asset) (n : Nat) :
    Replayed (w.setHolding asset n) := by
  cases asset with
  | eth => exact ⟨now.storage,now.consistent⟩
  | token a => exact ⟨now.storage,now.consistent⟩

theorem Replayed.pay {w : World} (now : Replayed w) (asset : Asset) (n : Nat) :
    Replayed (w.pay asset n) := by
  have moved := now.setHolding asset (w.holding asset - n)
  exact ⟨moved.storage,moved.consistent⟩

theorem Replayed.receive {w : World} (now : Replayed w) (asset : Asset) (n v : Nat)
    (measured : Bool) : Replayed ((w.setHolding asset n).note (.entered asset v measured)) := by
  have moved := now.setHolding asset n
  exact ⟨moved.storage,moved.consistent⟩

theorem Replayed.validated {w : World} (now : Replayed w) (ctx : Context) :
    Replayed (validatedBy w ctx) := by
  refine ⟨?_,now.consistent⟩
  change Storage.set w.transient _ _ = Entry.apply (replay w.history) _
  rw [← now.storage]
  rfl

theorem Replayed.dryRun {s : World} (now : Replayed s) (w : Withdrawal) :
    Replayed (dryRunBy s w) := by
  refine ⟨?_,now.consistent⟩
  change Storage.set s.transient _ _ = Entry.apply (replay s.history) _
  rw [← now.storage]
  rfl

theorem Replayed.consumed {s : World} (now : Replayed s) (msgSender target : Address)
    {w : Withdrawal} (granted : sponsorshipAllowance s w.recipient (withdrawalHash w) ≠ 0) :
    Replayed (consumedBy s msgSender target w) := by
  have before : replay s.history (withdrawalKey w).slot ≠ 0 := by
    rw [← now.storage]
    exact granted
  refine ⟨?_,before,now.consistent⟩
  change Storage.set s.transient _ _ = Entry.apply (replay s.history) (.begun msgSender w)
  rw [← now.storage]
  rfl

theorem Replayed.addReceived {s : World} (now : Replayed s) (asset : Asset) (sender : Address)
    (n : Nat) : Replayed (addReceived s asset sender n) := by
  rw [Paymaster.addReceived]
  split
  · exact now
  · refine ⟨?_,now.consistent⟩
    change Storage.set s.transient _ _ = Entry.apply (replay s.history) (.recorded asset sender n)
    rw [← now.storage]
    rfl

theorem Replayed.recorded {s : World} (now : Replayed s) (p : RelayPending) :
    Replayed (recordedBy s p) := by
  rw [recordedBy]
  split
  · exact now.addReceived ..
  · exact (now.addReceived ..).addReceived ..

theorem Replayed.taken {s : World} (now : Replayed s) (sender : Address) :
    Replayed (takenBy s sender) := by
  refine ⟨?_,?_,?_,now.consistent⟩
  · change Storage.set (Storage.set s.transient _ _) _ _ = Entry.apply (replay s.history) _
    rw [← now.storage]
    rfl
  · exact congrFun now.storage _
  · change Storage.set s.transient _ _ _ = Storage.set (replay s.history) _ _ _
    rw [now.storage]

/-- `J gas ks R w`: with the pending calls `ks` and the amounts `R` still to be paid. -/
structure Rules (d : Deployment) (allowed : Allowed World Pending Call Act)
    (J : Nat → List Pending → (Asset → Nat) → World → Prop) : Prop where
  external : ∀ {ks w c}, allowed ks w (.call c) → c.msgSender ≠ d.self
  spend : ∀ {g ks R w}, J (g + 1) ks R w → J g ks R w
  lower : ∀ {g ks R R' w}, J g ks R w → (∀ a, R' a ≤ R a) → J g ks R' w
  emit : ∀ {g ks R w} e, J g ks R w → J g ks R (w.emit e)
  settling : ∀ {g k ks R w}, k.isRelay = false → (J g (k :: ks) R w ↔ J g ks R w)
  receive : ∀ {g ks R w a v}, J (g + 1) ks R w → allowed ks w (.act (.receive a v)) →
    J g ks R ((w.setHolding a (w.holding a + v)).note (.entered a v (befores a ks ≠ [])))
  report : ∀ {g ks R w a n}, J (g + 1) ks R w → allowed ks w (.act (.report a n)) →
    J g ks R (w.setHolding (.token a) n)
  validate : ∀ {g ks R w} ctx, J (g + 1) ks R w → J g ks R (validatedBy w ctx)
  begin_ : ∀ {g ks R s w} target viaRouter token, J (g + 1) ks R s →
    sponsorshipAllowance s w.recipient (withdrawalHash w) ≠ 0 →
    J g (.relay (relayPending (consumedBy s w.recipient target w) w viaRouter token) :: ks) R
      (consumedBy s w.recipient target w)
  simulate : ∀ {g ks R s w} target viaRouter token, J (g + 1) ks R s →
    sponsorshipAllowance (dryRunBy s w) w.recipient (withdrawalHash w) ≠ 0 →
    J g (.simulating (relayPending (consumedBy (dryRunBy s w) d.self target w) w viaRouter token) ::
      ks) R (consumedBy (dryRunBy s w) d.self target w)
  record : ∀ {g ks R s p}, J (g + 1) (.relay p :: ks) R s → p.ethBefore ≤ s.balance →
    (p.token ≠ 0 → p.tokenBefore ≤ s.tokens p.token) → J g ks R (recordedBy s p)
  take : ∀ {g ks R w m ctx cost price mode}, J (g + 1) ks R w →
    allowed ks w (.call (.postOp m mode ctx cost price)) → J g ks R (takenBy w ctx.sender)
  settleEth : ∀ {g ks R w m ctx cost price}, J (g + 1) ks R w →
    allowed ks w (.call (.postOp m .opSucceeded ctx cost price)) → ctx.terms.feeToken = 0 →
    J g ks (withPurse R .eth (takeReceived w ctx.sender).1.toNat) (takenBy w ctx.sender)
  settleToken : ∀ {g ks R w m ctx cost price keep}, J (g + 1) ks R w →
    allowed ks w (.call (.postOp m .opSucceeded ctx cost price)) → ctx.terms.feeToken ≠ 0 →
    keepAmount d ctx.terms cost.toNat price.toNat = .ok keep →
    J g ks (withPurse R (.token ctx.terms.feeToken)
      (refundDue ctx.terms keep (takeReceived w ctx.sender).2.1.toNat)) (takenBy w ctx.sender)
  pay : ∀ {g ks R w a n v}, J g ks (withPurse R a n) w → v ≤ n → (a = .eth → v ≤ w.balance) →
    J g ks (withPurse R a (n - v)) (w.pay a v)

variable {d : Deployment} {allowed : Allowed World Pending Call Act}
  {J : Nat → List Pending → (Asset → Nat) → World → Prop}

/-- The property between steps, while others are in control. -/
def Between (J : Nat → List Pending → (Asset → Nat) → World → Prop) (gas : Nat)
    (ks : List Pending) (w : World) : Prop := J gas ks (reserve ks) w

/-- The property of the world saved for a failing call. A relay reverts with it. -/
def OnFailure (J : Nat → List Pending → (Asset → Nat) → World → Prop) (gas : Nat) (k : Pending)
    (ks : List Pending) (w : World) : Prop :=
  match k with
  | .relay _ | .simulating _ => True
  | .refundingEth _ _ balance _ => J gas ks (withPurse (reserve ks) .eth balance) w
  | _ => J gas ks (reserve ks) w

theorem le_withPurse (R : Asset → Nat) (a : Asset) (n : Nat) (b : Asset) :
    R b ≤ withPurse R a n b := Nat.le_add_right ..

theorem reserve_settled {k : Pending} (done : k.rest = 0) (ks : List Pending) :
    reserve (k :: ks) = reserve ks := by
  funext a
  rw [reserve,done]
  simp

theorem reserve_refunding (ctx : Context) (cost balance refund : Nat) (ks : List Pending) :
    reserve (.refundingEth ctx cost balance refund :: ks) =
      withPurse (reserve ks) .eth (balance - refund) := rfl

/-! ### One lemma for each function -/

theorem finish_upholds (rules : Rules d allowed J) {g : Nat} {ks : List Pending} {s : World}
    (ctx : Context) (cost refund : Nat) (now : J g ks (reserve ks) s) :
    Upholds (Between J) (OnFailure J) g ks (finish ctx cost refund s) :=
  rules.emit _ now

theorem depositRest_upholds (rules : Rules d allowed J) {g : Nat} {ks : List Pending} {s : World}
    (ctx : Context) (cost balance refund : Nat)
    (now : J g ks (withPurse (reserve ks) .eth balance) s) :
    Upholds (Between J) (OnFailure J) g ks (depositRest ctx cost balance refund s) := by
  have settled : J g ks (reserve ks) s := rules.lower now (le_withPurse _ _ _)
  rw [depositRest]
  split
  · exact finish_upholds rules ctx cost refund settled
  · split
    · exact finish_upholds rules ctx cost refund (rules.emit _ settled)
    · next _ enough =>
      have paid := rules.pay now (Nat.le_refl _) (fun _ => Nat.le_of_not_lt enough)
      have lowered := rules.lower paid (le_withPurse _ _ _)
      refine ⟨settled,(rules.settling rfl).mpr ?_⟩
      rw [reserve_settled rfl]
      exact lowered

theorem expectFee_keeps (rules : Rules d allowed J) {g : Nat} {ks : List Pending}
    {R : Asset → Nat} {s : World} (ctx : Context) (balance : Nat) (now : J g ks R s) :
    J g ks R (expectFee ctx balance s) := by
  rw [expectFee]
  split
  · exact rules.emit _ now
  · exact now

theorem refundDue_le (terms : Terms) (keep balance : Nat) : refundDue terms keep balance ≤ balance := by
  rw [refundDue]
  split
  · exact Nat.zero_le _
  · split
    · exact Nat.min_le_right ..
    · exact Nat.zero_le _

theorem settleEth_upholds (rules : Rules d allowed J) {g : Nat} {ks : List Pending} {s : World}
    (ctx : Context) (keep cost balance : Nat)
    (now : J g ks (withPurse (reserve ks) .eth balance) s) :
    Upholds (Between J) (OnFailure J) g ks (settleEth ctx keep cost balance s) := by
  have expected := expectFee_keeps rules ctx balance now
  rw [settleEth]
  generalize expectFee ctx balance s = s at *
  split
  · exact depositRest_upholds rules ctx cost balance 0 expected
  · split
    · exact depositRest_upholds rules ctx cost balance 0 (rules.emit _ expected)
    · next _ enough =>
      refine ⟨expected,(rules.settling rfl).mpr ?_⟩
      rw [reserve_refunding]
      exact rules.pay expected (refundDue_le ..) (fun _ => Nat.le_of_not_lt enough)

theorem settleToken_upholds (rules : Rules d allowed J) {g : Nat} {ks : List Pending} {s : World}
    (ctx : Context) (keep cost balance : Nat)
    (now : J g ks (withPurse (reserve ks) (.token ctx.terms.feeToken)
      (refundDue ctx.terms keep balance)) s) :
    Upholds (Between J) (OnFailure J) g ks (settleToken d ctx keep cost balance s) := by
  have expected := expectFee_keeps rules ctx balance now
  rw [settleToken]
  generalize expectFee ctx balance s = s at *
  have settled : J g ks (reserve ks) s := rules.lower expected (le_withPurse _ _ _)
  split
  · exact finish_upholds rules ctx cost 0 settled
  · rw [refundToken,if_neg (by simp)]
    have paid := rules.pay expected (Nat.le_refl _) (fun native => by contradiction)
    refine ⟨settled,(rules.settling rfl).mpr ?_⟩
    rw [reserve_settled rfl]
    exact rules.lower paid (le_withPurse _ _ _)

theorem postOp_upholds (rules : Rules d allowed J) {g : Nat} {ks : List Pending} {s : World}
    {m : Address} {mode : PostOpMode} {ctx : Context} {cost price : Word 32}
    (now : J (g + 1) ks (reserve ks) s)
    (permitted : allowed ks s (.call (.postOp m mode ctx cost price))) :
    Upholds (Between J) (OnFailure J) g ks (postOp d m mode ctx cost price s) := by
  rw [postOp]
  split
  · trivial
  · simp only
    split
    · exact rules.emit _ (rules.take now permitted)
    · next succeeded =>
      obtain rfl := not_not.mp succeeded
      cases kept : keepAmount d ctx.terms cost.toNat price.toNat with
      | error reason => trivial
      | ok keep =>
        simp only
        split
        · next eth => exact settleEth_upholds rules ctx keep _ _ (rules.settleEth now permitted eth)
        · next token =>
          exact settleToken_upholds rules ctx keep _ _ (rules.settleToken now permitted token kept)

/-- A relay that starts has consumed an open sponsorship. -/
theorem beginRelay_cases (d : Deployment) (msgSender : Address) (w : Withdrawal)
    (answer : TokenAnswer) (s : World) :
    (∃ reason, beginRelay d msgSender w answer s = .reverted reason) ∨
    ∃ target viaRouter token,
      sponsorshipAllowance s w.recipient (withdrawalHash w) ≠ 0 ∧
      beginRelay d msgSender w answer s =
        .calling (consumedBy s msgSender target w) (consumedBy s msgSender target w)
          (relayPending (consumedBy s msgSender target w) w viaRouter token) := by
  rw [beginRelay,consumeSponsorship]
  by_cases closed : sponsorshipAllowance s w.recipient (withdrawalHash w) = 0
  · exact .inl ⟨.notSponsored w.recipient (withdrawalHash w),by simp only [if_pos closed]⟩
  · simp only [if_neg closed]
    cases poolToken answer with
    | error reason => exact .inl ⟨reason,rfl⟩
    | ok token => exact .inr ⟨_,_,token,closed,rfl⟩

theorem endRelay_cases (p : RelayPending) (ok : Bool) (s : World) :
    (∃ reason, endRelay p ok s = .reverted reason) ∨
    ∃ event, p.ethBefore ≤ s.balance ∧ (p.token ≠ 0 → p.tokenBefore ≤ s.tokens p.token) ∧
      endRelay p ok s = .returned ((recordedBy s p).emit event) := by
  have untouched (n : Nat) :
      (addReceived s .eth p.withdrawal.recipient n).tokens = s.tokens := by
    rw [addReceived]
    split <;> rfl
  let event := Event.relayed p.withdrawal.pool p.withdrawal.nullifierHash p.withdrawal.relayer
    p.withdrawal.fee p.viaRouter
  rw [endRelay]
  cases ok with
  | false => exact .inl ⟨.other,rfl⟩
  | true =>
    simp only [if_true]
    by_cases fell : s.balance < p.ethBefore
    · exact .inl ⟨.other,if_pos fell⟩
    · rw [if_neg fell]
      by_cases native : p.token = 0
      · refine .inr ⟨event,Nat.le_of_not_lt fell,fun token => absurd native token,?_⟩
        rw [if_pos native,recordedBy]
        simp only [if_pos native,event]
      · rw [if_neg native,untouched]
        by_cases shrank : s.tokens p.token < p.tokenBefore
        · exact .inl ⟨.other,if_pos shrank⟩
        · refine .inr ⟨event,Nat.le_of_not_lt fell,fun _ => Nat.le_of_not_lt shrank,?_⟩
          rw [if_neg shrank,recordedBy]
          simp only [if_neg native,untouched,event]

theorem simulated_upholds {g : Nat} {ks : List Pending} {r : Run World Revert RelayPending}
    (calls : ∀ atCall after p, r = .calling atCall after p → Between J g (.simulating p :: ks) after) :
    Upholds (Between J) (OnFailure J) g ks ((simulated r).map .simulating) := by
  cases r with
  | returned s => trivial
  | reverted reason => trivial
  | calling atCall after p => exact ⟨trivial,calls atCall after p rfl⟩

theorem call_upholds (rules : Rules d allowed J) {lib : Eip7702Support}
    {tryRecover : Bytes32 → Bytes → Option Address} {g : Nat} {ks : List Pending}
    {s : World} {c : Call} (now : Between J (g + 1) ks s) (permitted : allowed ks s (.call c)) :
    Upholds (Between J) (OnFailure J) g ks ((paymaster lib tryRecover d).call c s) := by
  have outsider := rules.external permitted
  cases c with
  | validatePaymasterUserOp msgSender chain userOp userOpHash =>
    change Upholds _ _ _ _ (validatePaymasterUserOp ..)
    rw [validatePaymasterUserOp]
    split
    · trivial
    · next ctx _ _ => exact rules.validate ctx now
  | relayWithdraw msgSender w answer =>
    change Upholds _ _ _ _ ((relayWithdraw ..).map _)
    rw [relayWithdraw]
    split
    · trivial
    · next recipient =>
      obtain rfl := not_not.mp recipient
      rcases beginRelay_cases d w.recipient w answer s with ⟨reason,reverted⟩ |
        ⟨target,viaRouter,token,granted,called⟩
      · rw [reverted]
        trivial
      · rw [called]
        refine ⟨trivial,?_⟩
        rw [Between,reserve_settled rfl]
        exact rules.begin_ target viaRouter token now granted
  | simulateRelayWithdraw msgSender w answer =>
    change Upholds _ _ _ _ ((simulateRelayWithdraw ..).map _)
    rw [simulateRelayWithdraw,relayWithdrawSimulated,if_neg (by simp)]
    apply simulated_upholds
    intro atCall after p calling
    rcases beginRelay_cases d d.self w answer (dryRunBy s w) with ⟨reason,reverted⟩ |
      ⟨target,viaRouter,token,granted,called⟩
    · have same : beginRelay d d.self w answer (dryRunBy s w) = .calling atCall after p := calling
      rw [reverted] at same
      contradiction
    · have same : beginRelay d d.self w answer (dryRunBy s w) = .calling atCall after p := calling
      rw [called] at same
      cases same
      rw [Between,reserve_settled rfl]
      exact rules.simulate target viaRouter token now granted
  | relayWithdrawSimulated msgSender w answer =>
    change Upholds _ _ _ _ ((relayWithdrawSimulated ..).map _)
    rw [relayWithdrawSimulated,if_pos (show msgSender ≠ d.self from outsider)]
    trivial
  | postOp msgSender mode ctx cost price => exact postOp_upholds rules now permitted
  | refundToken msgSender token recipient amount =>
    change Upholds _ _ _ _ ((refundToken ..).map _)
    rw [refundToken,if_pos (show msgSender ≠ d.self from outsider)]
    trivial

theorem succeed_upholds (rules : Rules d allowed J) {lib : Eip7702Support}
    {tryRecover : Bytes32 → Bytes → Option Address} {g : Nat} {k : Pending}
    {ks : List Pending} {s : World} (now : Between J (g + 1) (k :: ks) s) :
    Upholds (Between J) (OnFailure J) g ks ((paymaster lib tryRecover d).resume k true s) := by
  cases k with
  | relay p =>
    rw [Between,reserve_settled rfl] at now
    change Upholds _ _ _ _ ((endRelay p true s).map _)
    rcases endRelay_cases p true s with ⟨reason,reverted⟩ | ⟨event,eth,token,recorded⟩
    · rw [reverted]
      trivial
    · rw [recorded]
      exact rules.emit event (rules.record now eth token)
  | simulating p =>
    change Upholds _ _ _ _ ((simulated (endRelay p true s)).map _)
    rcases endRelay_cases p true s with ⟨reason,reverted⟩ | ⟨event,_,_,recorded⟩
    · rw [reverted]
      trivial
    · rw [recorded]
      trivial
  | refundingEth ctx cost balance refund =>
    have paid := (rules.settling rfl).mp (rules.spend now)
    rw [reserve_refunding] at paid
    exact depositRest_upholds rules ctx cost (balance - refund) refund paid
  | depositing ctx cost balance refund =>
    have paid := (rules.settling rfl).mp (rules.spend now)
    rw [reserve_settled rfl] at paid
    exact finish_upholds rules ctx cost refund paid
  | refundingToken ctx cost refund =>
    have paid := (rules.settling rfl).mp (rules.spend now)
    rw [reserve_settled rfl] at paid
    exact finish_upholds rules ctx cost refund paid
  | transferring =>
    have paid := (rules.settling rfl).mp (rules.spend now)
    rw [reserve_settled rfl] at paid
    exact paid

theorem fail_upholds (rules : Rules d allowed J) {lib : Eip7702Support}
    {tryRecover : Bytes32 → Bytes → Option Address} {g : Nat} {k : Pending}
    {ks : List Pending} {s : World} (saved : OnFailure J (g + 1) k ks s) :
    Upholds (Between J) (OnFailure J) g ks ((paymaster lib tryRecover d).resume k false s) := by
  cases k with
  | relay p => trivial
  | simulating p => trivial
  | refundingEth ctx cost balance refund =>
    exact depositRest_upholds rules ctx cost balance 0 (rules.emit _ (rules.spend saved))
  | depositing ctx cost balance refund =>
    exact finish_upholds rules ctx cost refund (rules.emit _ (rules.spend saved))
  | refundingToken ctx cost refund =>
    exact finish_upholds rules ctx cost 0 (rules.emit _ (rules.spend saved))
  | transferring => trivial

/-- The rule: what the moves keep holds at every point of every run. -/
theorem Rules.invariant (rules : Rules d allowed J) (lib : Eip7702Support)
    (tryRecover : Bytes32 → Bytes → Option Address) :
    Invariant (paymaster lib tryRecover d) allowed (Between J) (OnFailure J) where
  spend := rules.spend
  spendSaved := by
    intro g k ks w saved
    cases k with
    | relay p => trivial
    | simulating p => trivial
    | refundingEth ctx cost balance refund => exact rules.spend saved
    | depositing ctx cost balance refund => exact rules.spend saved
    | refundingToken ctx cost refund => exact rules.spend saved
    | transferring => exact rules.spend saved
  act := by
    intro g ks w a now permitted
    cases a with
    | receive asset amount => exact rules.receive now permitted
    | report token amount => exact rules.report now permitted
  call := call_upholds rules
  succeed := succeed_upholds rules
  fail := fail_upholds rules

theorem Rules.reachable (rules : Rules d allowed J) {lib : Eip7702Support}
    {tryRecover : Bytes32 → Bytes → Option Address} {gas : Nat} {w : World}
    {c : Config World Pending} (initial : J gas [] (reserve []) w)
    (reach : Reachable (paymaster lib tryRecover d) allowed ⟨gas, w, []⟩ c) :
    J c.gas (live c.stack) (reserve (live c.stack)) c.world := by
  have start : Holds (Between J) (OnFailure J) (⟨gas, w, []⟩ : Config World Pending) :=
    ⟨initial,trivial⟩
  exact (reach.invariant (rules.invariant lib tryRecover) start).1

end TornadoRelayer.Paymaster
