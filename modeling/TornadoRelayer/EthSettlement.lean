import TornadoRelayer.Receipts
import TornadoRelayer.Sponsorship

/-! Settling in ETH. While no ETH arrives under two relays at once, settlements spend
what came in during the transaction and leave the earlier balance alone; nested relays
both record what the inner one is paid. -/
namespace TornadoRelayer.Paymaster

open BigEndian Keccak CallStack

/-- ETH arrives while at most one relay is in progress. -/
def Unnested (d : Deployment) : Allowed World Pending Call Act
  | _, _, .call c => c.msgSender ≠ d.self
  | ks, _, .act (.receive .eth v) => 0 < v → (befores .eth ks).length ≤ 1
  | _, _, _ => True

instance (d : Deployment) (ks : List Pending) (w : World) (s : Step Call Act) :
    Decidable (Unnested d ks w s) :=
  match s with
  | .call c => inferInstanceAs (Decidable (c.msgSender ≠ d.self))
  | .act (.receive .eth v) => inferInstanceAs (Decidable (0 < v → (befores .eth ks).length ≤ 1))
  | .act (.receive (.token _) _) | .act (.report ..) | .enter | .leave _ | .answer _ | .exhaust =>
    isTrue trivial

/-- Nothing else is asked of ETH: it is refunded out of a slot of its own. -/
theorem unnested_fair {d : Deployment} {ks : List Pending} {w : World} {s : Step Call Act}
    (permitted : Unnested d ks w s) : Fair d .eth ks w s := by
  cases s with
  | call c =>
    refine ⟨permitted,?_⟩
    cases c with
    | postOp m mode ctx cost price =>
      cases mode with
      | opSucceeded =>
        intro same
        contradiction
      | _ => trivial
    | _ => trivial
  | act a =>
    cases a with
    | receive b v =>
      rintro rfl
      exact permitted
    | report t n =>
      intro same
      contradiction
  | _ => trivial

variable {lib : Eip7702Support} {tryRecover : Bytes32 → Bytes → Option Address} {d : Deployment}

/-- In every run in which ETH arrives under at most one relay at a time, the records add
up to no more than what arrived, settlements pay out no more than that, and the balance
never falls below what it was. -/
theorem settlement_keeps_eth {gas balance : Nat} {tokens : Address → Nat}
    {c : Config World Pending}
    (reach : Reachable (paymaster lib tryRecover d) (Unnested d)
      ⟨gas, World.initial balance tokens, []⟩ c) :
    recordedTotal (· == .eth) c.world.history ≤ enteredTotal .eth c.world.history ∧
    (CollisionFree (slotStrings c.world.history) →
      leftTotal .eth c.world.history ≤ enteredTotal .eth c.world.history ∧
      balance ≤ c.world.balance) := by
  obtain ⟨recorded,settled⟩ := fair_settlement
    (reach.weaken fun _ _ _ permitted => unnested_fair permitted)
  have arrived := broughtIn_le .eth c.world.history
  refine ⟨recorded.trans arrived,fun free => ?_⟩
  exact ⟨(settled free).1.trans arrived,(settled free).2⟩

/-- A donation, then a sponsored withdrawal from its validation to its settlement. -/
def settledSteps : List (Step Call Act) :=
  let terms := sponsoring (masterWithdrawal 0xb1 (10 ^ 17)) 0 0
  .act (.receive .eth 5) :: relayedSteps ++
    [.call (.postOp 0xe1 .opSucceeded ⟨1,0x51,terms⟩ (10 ^ 16) (10 ^ 10)),.answer true,.answer true]

/-- The fee is refunded and deposited to the last wei, and the donation stays. -/
theorem settlement_keeps_eth_settled :
    ∃ c : Config World Pending,
      (paymaster Eip7702Support.standard (fun _ _ => some 0xa1) defaultDeployment).runWithin
        (Unnested defaultDeployment) settledSteps ⟨8,World.initial 7 fun _ => 0,[]⟩ = some c ∧
      recordedTotal (· == .eth) c.world.history = 10 ^ 17 ∧
      leftTotal .eth c.world.history = 10 ^ 17 ∧ c.world.balance = 12 ∧
      recordedTotal (· == .eth) c.world.history ≤ enteredTotal .eth c.world.history ∧
      leftTotal .eth c.world.history ≤ enteredTotal .eth c.world.history ∧ 7 ≤ c.world.balance := by
  have ran : ((paymaster Eip7702Support.standard (fun _ _ => some 0xa1) defaultDeployment).runWithin
      (Unnested defaultDeployment) settledSteps ⟨8,World.initial 7 fun _ => 0,[]⟩).map (fun c =>
        (decide (CollisionFree (slotStrings c.world.history)),
          recordedTotal (· == .eth) c.world.history,leftTotal .eth c.world.history,
          c.world.balance)) = some (true,10 ^ 17,10 ^ 17,12) := by decide +kernel
  obtain ⟨c,ran,figures⟩ := Option.map_eq_some_iff.mp ran
  obtain ⟨free,recorded,left,balance⟩ : CollisionFree (slotStrings c.world.history) ∧
      recordedTotal (· == .eth) c.world.history = 10 ^ 17 ∧
      leftTotal .eth c.world.history = 10 ^ 17 ∧ c.world.balance = 12 := by simpa using figures
  obtain ⟨records,settles⟩ := settlement_keeps_eth (runWithin_reachable ran)
  exact ⟨c,ran,recorded,left,balance,records,settles free⟩

/-! ### Nested relays -/

/-- Paid by the first pool, the recipient relays a withdrawal from the second. -/
def nestedSteps : List (Step Call Act) :=
  let outer := masterWithdrawal 0xb1 (10 ^ 17)
  let inner := masterWithdrawal 0xb2 (10 ^ 16)
  [.call (.validatePaymasterUserOp 0xe1 delegatedChain (sponsoredOp (sponsoring outer 0 0)) 1),
    .call (.validatePaymasterUserOp 0xe1 delegatedChain (sponsoredOp (sponsoring inner 0 0)) 2),
    .call (.relayWithdraw 0x51 outer ⟨false,[]⟩),
    .call (.relayWithdraw 0x51 inner ⟨false,[]⟩),
    .act (.receive .eth (10 ^ 16)),
    .answer true,
    .act (.receive .eth (10 ^ 17)),
    .answer true,
    .call (.postOp 0xe1 .opSucceeded ⟨1,0x51,sponsoring outer 0 0⟩ (10 ^ 16) (10 ^ 10)),
    .answer true,
    .answer true]

def nestedStart : Config World Pending := ⟨11,World.initial (10 ^ 18) fun _ => 0,[]⟩

/-- The inner fee is recorded by both relays, and the settlement pays it out twice. -/
theorem nested_relays_record_twice :
    ¬∀ (lib : Eip7702Support) (tryRecover : Bytes32 → Bytes → Option Address) (d : Deployment)
      (gas balance : Nat) (tokens : Address → Nat) (c : Config World Pending),
      Reachable (paymaster lib tryRecover d) (External d) ⟨gas,World.initial balance tokens,[]⟩ c →
      recordedTotal (· == .eth) c.world.history ≤ enteredTotal .eth c.world.history ∧
      balance ≤ c.world.balance := by
  intro always
  let m := paymaster Eip7702Support.standard (fun _ _ => some 0xa1) defaultDeployment
  have ended : (m.run nestedSteps nestedStart).map (fun c => c.world.balance) =
      some (10 ^ 18 - 10 ^ 16) := by decide +kernel
  obtain ⟨c,ran,left⟩ := Option.map_eq_some_iff.mp ended
  have outsiders : ∀ s ∈ nestedSteps, ∀ ks w, External defaultDeployment ks w s := by
    simp [nestedSteps,External,Call.msgSender,defaultDeployment]
  have kept := (always _ _ _ _ _ _ c (run_reachable outsiders ran)).2
  rw [left] at kept
  omega

end TornadoRelayer.Paymaster
