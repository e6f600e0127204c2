import TornadoRelayer.EthSettlement

/-! Settling in tokens. All tokens share one slot per sender, so a refund stays within
what relays brought in only while it is paid in the token that was recorded. -/
namespace TornadoRelayer.Paymaster

open BigEndian Keccak CallStack

variable {lib : Eip7702Support} {tryRecover : Bytes32 → Bytes → Option Address} {d : Deployment}

/-- In every run that moves the token by transfers, lets it arrive under at most one relay
at a time and refunds it out of its own receipts, the refunds are at most what relays
brought in, and the collected fees never shrink. -/
theorem settlement_keeps_token {t : Address} {gas balance : Nat} {tokens : Address → Nat}
    {c : Config World Pending}
    (reach : Reachable (paymaster lib tryRecover d) (Fair d (.token t))
      ⟨gas, World.initial balance tokens, []⟩ c) :
    CollisionFree (slotStrings c.world.history) →
      leftTotal (.token t) c.world.history ≤ broughtIn (.token t) c.world.history ∧
      tokens t ≤ c.world.tokens t :=
  (fair_settlement reach).2

instance decidableOfRead {e : Except ε α} {p : α → Prop} [DecidablePred p] : Decidable (∀ x, e = .ok x → p x) :=
  match e with
  | .error _ => isTrue fun _ same => nomatch same
  | .ok x => decidable_of_iff (p x) ⟨fun holds _ same => Except.ok.inj same ▸ holds,fun all => all x rfl⟩

instance (d : Deployment) (a : Asset) (w : World) (c : Call) : Decidable (c.OwnToken d a w) :=
  match c with
  | .postOp _ .opSucceeded ctx cost price =>
    inferInstanceAs (Decidable (.token ctx.terms.feeToken = a → ctx.terms.feeToken ≠ 0 →
      ctx.terms.refundTo ≠ 0 → ∀ keep, keepAmount d ctx.terms cost.toNat price.toNat = .ok keep →
        _ ∨ _))
  | .postOp _ .opReverted .. | .postOp _ .postOpReverted .. | .validatePaymasterUserOp ..
  | .relayWithdraw .. | .simulateRelayWithdraw .. | .relayWithdrawSimulated .. | .refundToken .. =>
    isTrue trivial

instance (d : Deployment) (a : Asset) (ks : List Pending) (w : World) (s : Step Call Act) :
    Decidable (Fair d a ks w s) :=
  match s with
  | .call c => inferInstanceAs (Decidable (c.msgSender ≠ d.self ∧ c.OwnToken d a w))
  | .act (.receive b v) => inferInstanceAs (Decidable (b = a → 0 < v → (befores a ks).length ≤ 1))
  | .act (.report t _) => inferInstanceAs (Decidable (a ≠ .token t))
  | .enter | .leave _ | .answer _ | .exhaust => isTrue trivial

def tokenAnswer (token : Address) : TokenAnswer := ⟨true,abiEncode [token.toNat]⟩

/-- A withdrawal from a token pool, from its validation to its settlement, and a donation. -/
def tokenSteps : List (Step Call Act) :=
  let w := masterWithdrawal 0xb1 (10 ^ 8)
  let terms := sponsoring w 0xda (3 * 10 ^ 9)
  [.call (.validatePaymasterUserOp 0xe1 delegatedChain (sponsoredOp terms) 1),
    .call (.relayWithdraw 0x51 w (tokenAnswer 0xda)),
    .act (.receive (.token 0xda) (10 ^ 8)),
    .answer true,
    .act (.receive (.token 0xda) 40),
    .call (.postOp 0xe1 .opSucceeded ⟨1,0x51,terms⟩ (10 ^ 15) (10 ^ 10)),
    .answer true]

/-- What the withdrawal brought in is refunded but for the gas, out of no fee collected before. -/
theorem settlement_keeps_token_refund :
    ∃ c : Config World Pending,
      (paymaster Eip7702Support.standard (fun _ _ => some 0xa1) defaultDeployment).runWithin
        (Fair defaultDeployment (.token 0xda)) tokenSteps ⟨8,World.initial 0 fun _ => 1000,[]⟩ = some c ∧
      broughtIn (.token 0xda) c.world.history = 10 ^ 8 ∧
      leftTotal (.token 0xda) c.world.history = 10 ^ 8 - 4785000 ∧
      leftTotal (.token 0xda) c.world.history ≤ broughtIn (.token 0xda) c.world.history ∧
      1000 ≤ c.world.tokens 0xda := by
  have ran : ((paymaster Eip7702Support.standard (fun _ _ => some 0xa1) defaultDeployment).runWithin
      (Fair defaultDeployment (.token 0xda)) tokenSteps ⟨8,World.initial 0 fun _ => 1000,[]⟩).map
        (fun c => (decide (CollisionFree (slotStrings c.world.history)),
          broughtIn (.token 0xda) c.world.history,leftTotal (.token 0xda) c.world.history)) =
      some (true,10 ^ 8,10 ^ 8 - 4785000) := by decide +kernel
  obtain ⟨c,ran,figures⟩ := Option.map_eq_some_iff.mp ran
  obtain ⟨free,brought,left⟩ : CollisionFree (slotStrings c.world.history) ∧
      broughtIn (.token 0xda) c.world.history = 10 ^ 8 ∧
      leftTotal (.token 0xda) c.world.history = 10 ^ 8 - 4785000 := by simpa using figures
  exact ⟨c,ran,brought,left,settlement_keeps_token (runWithin_reachable ran) free⟩

/-! ### Two tokens, one slot -/

/-- The terms are those of a withdrawal for the sender. -/
def Terms.Name (tokenOf : Address → Address) (sender : Address) (t : Terms) (w : Withdrawal) : Prop :=
  Paymaster.withdrawalHash w = t.withdrawalHash ∧ w.recipient = sender ∧ w.fee = t.fee ∧
    tokenOf w.pool = t.feeToken

/-- What a bundle of honestly signed operations does: `tokenOf` gives a pool's token, or
zero for an ETH pool. -/
def Bundle (d : Deployment) (tokenOf : Address → Address) : Allowed World Pending Call Act
  | _, w, .call c => c.msgSender ≠ d.self ∧
    match c with
    | .validatePaymasterUserOp _ _ userOp _ => ∀ t sig,
      parsePaymasterAndData userOp.paymasterAndData = .ok (t,sig) →
        ∃ w, t.Name tokenOf userOp.sender w
    | .relayWithdraw _ w answer | .simulateRelayWithdraw _ w answer
    | .relayWithdrawSimulated _ w answer => poolToken answer = .ok (tokenOf w.pool)
    | .postOp _ _ ctx _ _ => .validated ctx ∈ w.history
    | .refundToken .. => True
  | _, _, .act (.report ..) => False
  | _, _, _ => True

/-- A pool of each of two tokens. -/
def twoTokens (pool : Address) : Address := if pool = 0xb1 then 0xda else 0x5d

def fromFirst : Withdrawal := masterWithdrawal 0xb1 100
def fromSecond : Withdrawal := masterWithdrawal 0xb2 90

/-- The account was granted both withdrawals and relays the second one only. -/
def relaySecond : List (Step Call Act) :=
  [.call (.validatePaymasterUserOp 0xe1 delegatedChain
      (sponsoredOp (sponsoring fromFirst 0xda 0)) 1),
    .call (.validatePaymasterUserOp 0xe1 delegatedChain
      (sponsoredOp (sponsoring fromSecond 0x5d 0)) 2),
    .call (.relayWithdraw 0x51 fromSecond (tokenAnswer 0x5d)),
    .act (.receive (.token 0x5d) 90),
    .answer true]

theorem relaySecond_bundle (ks : List Pending) (w : World) :
    ∀ s ∈ relaySecond, Bundle defaultDeployment twoTokens ks w s := by
  have named (w : Withdrawal) (recipient : w.recipient = 0x51) : ∀ t sig,
      parsePaymasterAndData (sponsoredOp (sponsoring w (twoTokens w.pool) 0)).paymasterAndData =
        .ok (t,sig) → ∃ w, t.Name twoTokens 0x51 w := by
    intro t sig parsed
    rw [sponsoredOp_parses] at parsed
    obtain ⟨rfl,rfl⟩ := Prod.mk.inj (Except.ok.inj parsed)
    exact ⟨w,rfl,recipient,rfl,rfl⟩
  have answered : poolToken (tokenAnswer 0x5d) = .ok (twoTokens fromSecond.pool) := by decide +kernel
  simp only [relaySecond,List.forall_mem_cons]
  refine ⟨⟨by decide,named fromFirst rfl⟩,⟨by decide,named fromSecond rfl⟩,⟨by decide,answered⟩,
    trivial,trivial,?_⟩
  simp

/-- An operation that did not run its own relay is refunded in its own token, out of the
amount another relay recorded in another token. -/
theorem other_token_refunded :
    ¬∀ (lib : Eip7702Support) (tryRecover : Bytes32 → Bytes → Option Address) (d : Deployment)
      (tokenOf : Address → Address) (gas balance : Nat) (tokens : Address → Nat)
      (c : Config World Pending) (t : Address),
      Reachable (paymaster lib tryRecover d) (Bundle d tokenOf)
        ⟨gas,World.initial balance tokens,[]⟩ c →
      leftTotal (.token t) c.world.history ≤ broughtIn (.token t) c.world.history := by
  intro always
  let m := paymaster Eip7702Support.standard (fun _ _ => some 0xa1) defaultDeployment
  let ctx : Context := ⟨1,0x51,sponsoring fromFirst 0xda 0⟩
  let settle : Step Call Act := .call (.postOp 0xe1 .opSucceeded ctx (10 ^ 15) (10 ^ 10))
  have ended : ((m.run relaySecond ⟨7,World.initial 0 fun _ => 1000,[]⟩).bind fun middle =>
      (m.run [settle,.answer true] middle).map fun c =>
        (decide (Entry.validated ctx ∈ middle.world.history),
          leftTotal (.token 0xda) c.world.history,broughtIn (.token 0xda) c.world.history)) =
      some (true,90,0) := by decide +kernel
  obtain ⟨middle,relayed,ended⟩ := Option.bind_eq_some_iff.mp ended
  obtain ⟨c,settled,figures⟩ := Option.map_eq_some_iff.mp ended
  obtain ⟨granted,left,brought⟩ : Entry.validated ctx ∈ middle.world.history ∧
      leftTotal (.token 0xda) c.world.history = 90 ∧
      broughtIn (.token 0xda) c.world.history = 0 := by simpa using figures
  obtain ⟨waiting,stepped,answered⟩ := Option.bind_eq_some_iff.mp settled
  have first := run_reachable (fun s member ks w => relaySecond_bundle ks w s member) relayed
  have permitted : Bundle defaultDeployment twoTokens (live middle.stack) middle.world settle :=
    ⟨by decide,granted⟩
  have last : Reachable m (Bundle defaultDeployment twoTokens) waiting c :=
    run_reachable (by simp [Bundle]) answered
  have reach := (first.step permitted stepped).trans last
  have kept := always _ _ _ _ _ _ _ c 0xda reach
  omega

end TornadoRelayer.Paymaster
