import TornadoRelayer.Rules
import TornadoRelayer.SignatureBinding
import Mathlib.Data.List.Count

/-! The sponsorship ledger. Outside a dry run the allowance of a sender and a
withdrawal is what validation granted less what relays consumed, whatever was
re-entered and rolled back. -/
namespace TornadoRelayer.Paymaster

open BigEndian Keccak CallStack

def Simulating (ks : List Pending) : Prop := ∃ p, Pending.simulating p ∈ ks

theorem simulating_cons {k : Pending} (ks : List Pending) (other : ∀ p, k ≠ .simulating p) :
    Simulating (k :: ks) ↔ Simulating ks := by
  constructor
  · rintro ⟨p,member⟩
    rcases List.mem_cons.mp member with same | below
    · exact absurd same.symm (other p)
    · exact ⟨p,below⟩
  · rintro ⟨p,member⟩
    exact ⟨p,List.mem_cons_of_mem _ member⟩

/-- Only the dry runs in progress have granted anything besides validation, or relayed
for anyone but the recipient. -/
structure Ledger (limit gas : Nat) (ks : List Pending) (w : World) : Prop where
  replayed : Replayed w
  bounded : grantCount w.history + gas ≤ limit
  dry : dryKeys w.history = [] ∨ Simulating ks
  own : (∀ m w', Entry.begun m w' ∈ w.history → m = w'.recipient) ∨ Simulating ks
  called : calledKeys w.history = begunKeys w.history

/-- Entries that are no grant, no relay and no pool call. -/
def Entry.neutral : Entry → Bool
  | .entered .. | .recorded .. | .took .. | .left .. => true
  | _ => false

theorem keys_neutral {e : Entry} (neutral : e.neutral = true) (h : List Entry) :
    validatedKeys (e :: h) = validatedKeys h ∧ dryKeys (e :: h) = dryKeys h ∧
      begunKeys (e :: h) = begunKeys h ∧ calledKeys (e :: h) = calledKeys h := by
  cases e <;> first | exact ⟨rfl,rfl,rfl,rfl⟩ | contradiction

/-- A neutral entry leaves the ledger as it is. -/
theorem Ledger.note {limit g : Nat} {ks : List Pending} {w w' : World} {e : Entry}
    (now : Ledger limit g ks w) (neutral : e.neutral = true)
    (history : w'.history = e :: w.history) (replayed : Replayed w') : Ledger limit g ks w' := by
  obtain ⟨validated,dry,begun,called⟩ := keys_neutral neutral w.history
  refine ⟨replayed,?_,?_,?_,?_⟩
  · rw [history,grantCount,validated,dry]
    exact now.bounded
  · rw [history,dry]
    exact now.dry
  · rcases now.own with own | running
    · left
      intro m w' member
      rw [history] at member
      rcases List.mem_cons.mp member with same | old
      · subst same
        contradiction
      · exact own m w' old
    · exact .inr running
  · rw [history,called,begun]
    exact now.called

theorem Ledger.addReceived {limit g : Nat} {ks : List Pending} {w : World}
    (now : Ledger limit g ks w) (asset : Asset) (sender : Address) (n : Nat) :
    Ledger limit g ks (addReceived w asset sender n) := by
  have replayed := now.replayed.addReceived asset sender n
  rw [Paymaster.addReceived] at replayed ⊢
  split
  · exact now
  · next positive =>
    rw [if_neg positive] at replayed
    exact now.note (e := .recorded asset sender n) rfl rfl replayed

theorem Ledger.spend {limit g : Nat} {ks : List Pending} {w : World}
    (now : Ledger limit (g + 1) ks w) : Ledger limit g ks w :=
  { now with bounded := Nat.le_of_succ_le now.bounded }

theorem Ledger.stack {limit g : Nat} {ks ks' : List Pending} {w : World}
    (now : Ledger limit g ks w) (running : Simulating ks → Simulating ks') :
    Ledger limit g ks' w :=
  { now with
    dry := now.dry.imp_right running
    own := now.own.imp_right running }

theorem setHolding_history (s : World) (asset : Asset) (n : Nat) :
    (s.setHolding asset n).history = s.history := by
  cases asset <;> rfl

theorem ledger_rules (d : Deployment) (limit : Nat) :
    Rules d (External d) (fun gas ks _ w => Ledger limit gas ks w) where
  external := fun permitted => permitted
  spend := Ledger.spend
  lower := fun now _ => now
  emit := fun event now => { now with replayed := now.replayed.emit event }
  settling := by
    intro g k ks R w settling
    have other : ∀ p, k ≠ .simulating p := by
      rintro p rfl
      contradiction
    have same := simulating_cons ks other
    exact ⟨fun now => now.stack same.mp,fun now => now.stack same.mpr⟩
  receive := by
    intro g ks R w a v now _
    refine now.spend.note (e := .entered a v (befores a ks ≠ [])) rfl ?_ (now.replayed.receive ..)
    rw [World.note,setHolding_history]
  report := by
    intro g ks R w a n now _
    exact { now.spend with replayed := now.replayed.setHolding (.token a) n }
  validate := by
    intro g ks R w ctx now
    have bounded : grantCount (validatedBy w ctx).history = grantCount w.history + 1 :=
      Nat.add_right_comm ..
    refine ⟨now.replayed.validated ctx,?_,now.dry,?_,now.called⟩
    · have before := now.bounded
      omega
    · refine now.own.imp_left ?_
      intro own m w' member
      rcases List.mem_cons.mp member with same | old
      · contradiction
      · exact own m w' old
  begin_ := by
    intro g ks R s w target viaRouter token now granted
    refine ⟨now.replayed.consumed _ target granted,now.spend.bounded,?_,?_,?_⟩
    · exact now.dry.imp_right (simulating_cons ks (by simp)).mpr
    · rcases now.own with own | running
      · left
        intro m w' member
        rcases List.mem_cons.mp member with called | member
        · contradiction
        · rcases List.mem_cons.mp member with begun | old
          · cases begun
            rfl
          · exact own m w' old
      · exact .inr ((simulating_cons ks (by simp)).mpr running)
    · exact congrArg (withdrawalKey w :: ·) now.called
  simulate := by
    intro g ks R s w target viaRouter token now granted
    have running : Simulating (.simulating (relayPending (consumedBy (dryRunBy s w) d.self target w)
        w viaRouter token) :: ks) := ⟨_,List.mem_cons_self⟩
    refine ⟨(now.replayed.dryRun w).consumed _ target granted,?_,.inr running,.inr running,?_⟩
    · have before := now.bounded
      have bounded : grantCount (consumedBy (dryRunBy s w) d.self target w).history =
          grantCount s.history + 1 := rfl
      omega
    · exact congrArg (withdrawalKey w :: ·) now.called
  record := by
    intro g ks R s p now _ _
    have popped := now.spend.stack (simulating_cons ks (by simp)).mp
    rw [recordedBy]
    split
    · exact popped.addReceived ..
    · exact (popped.addReceived ..).addReceived ..
  take := by
    intro g ks R w m ctx cost price mode now _
    exact now.spend.note (e := .took ctx.sender _ _) rfl rfl (now.replayed.taken _)
  settleEth := by
    intro g ks R w m ctx cost price now _ _
    exact now.spend.note (e := .took ctx.sender _ _) rfl rfl (now.replayed.taken _)
  settleToken := by
    intro g ks R w m ctx cost price keep now _ _ _
    exact now.spend.note (e := .took ctx.sender _ _) rfl rfl (now.replayed.taken _)
  pay := by
    intro g ks R w a n v now _ _
    refine now.note (e := .left a v) rfl ?_ (now.replayed.pay ..)
    rw [World.pay,World.note,setHolding_history]

/-! ### Every run of a transaction -/

variable {lib : Eip7702Support} {tryRecover : Bytes32 → Bytes → Option Address} {d : Deployment}

theorem ledger_holds {gasLimit : Word 32} {balance : Nat} {tokens : Address → Nat}
    {c : Config World Pending}
    (reach : Reachable (paymaster lib tryRecover d) (External d)
      ⟨gasLimit.toNat, World.initial balance tokens, []⟩ c) :
    Ledger gasLimit.toNat c.gas (live c.stack) c.world := by
  have initial : Ledger gasLimit.toNat gasLimit.toNat [] (World.initial balance tokens) := by
    refine ⟨.initial balance tokens,Nat.le_of_eq (Nat.zero_add _),.inl rfl,.inl ?_,rfl⟩
    intro m w member
    contradiction
  exact (ledger_rules d gasLimit.toNat).reachable initial reach

/-- Outside a dry run: what was granted less what was begun. -/
theorem Ledger.counted {limit gas : Nat} {ks : List Pending} {w : World}
    (ledger : Ledger limit gas ks w) (narrow : limit < 2 ^ 256) (outside : ¬Simulating ks)
    {key : Key} (free : CollisionFree (key.string :: slotStrings w.history)) :
    (w.transient key.slot).toNat + (begunKeys w.history).count key =
      (validatedKeys w.history).count key := by
  have few : grantCount w.history < 2 ^ 256 :=
    (Nat.le_of_add_right_le ledger.bounded).trans_lt narrow
  have balance := allowance_replay free ledger.replayed.consistent few
  rw [ledger.dry.resolve_right outside,List.count_nil] at balance
  rw [ledger.replayed.storage]
  exact balance

/-- The dry run's code reverts whatever the pool does. -/
theorem simulating_reverts (p : RelayPending) (ok : Bool) (w : World) :
    ∃ reason, (paymaster lib tryRecover d).resume (.simulating p) ok w = .reverted reason := by
  change ∃ reason, (simulated (endRelay p ok w)).map _ = _
  rcases endRelay_cases p ok w with ⟨reason,reverted⟩ | ⟨event,_,_,recorded⟩
  · rw [reverted]
    exact ⟨_,rfl⟩
  · rw [recorded]
    exact ⟨_,rfl⟩

/-- A call of `simulateRelayWithdraw` is over at once, or waits with the world it was
called in saved. -/
theorem simulate_step {c c' : Config World Pending} {m : Address} {w : Withdrawal}
    {answer : TokenAnswer}
    (stepped : (paymaster lib tryRecover d).step (.call (.simulateRelayWithdraw m w answer)) c =
      some c') :
    (c'.world = c.world ∧ c'.stack = c.stack) ∨
    ∃ atCall p, c'.stack = .waiting c.world atCall (.simulating p) :: c.stack := by
  obtain ⟨gas,world,stack⟩ := c
  cases gas with
  | zero => contradiction
  | succ gas =>
    cases stepped
    have ran : (paymaster lib tryRecover d).call (.simulateRelayWithdraw m w answer) world =
      (simulated (relayWithdrawSimulated d d.self w answer (dryRunBy world w))).map .simulating := rfl
    rw [ran]
    cases relayWithdrawSimulated d d.self w answer (dryRunBy world w) with
    | returned s => exact .inl ⟨rfl,rfl⟩
    | reverted reason => exact .inl ⟨rfl,rfl⟩
    | calling atCall after p => exact .inr ⟨atCall,p,rfl⟩

/-- In every run: the allowance of a key is what was granted less what was begun,
dry runs apart nothing was granted but by validation, every surviving relay was
called by its recipient with arguments validation granted, each surviving pool call
has a validation of its own, and a dry run that is over left nothing behind. -/
theorem sponsorship_ledger {gasLimit : Word 32} {balance : Nat} {tokens : Address → Nat}
    {c : Config World Pending}
    (reach : Reachable (paymaster lib tryRecover d) (External d)
      ⟨gasLimit.toNat, World.initial balance tokens, []⟩ c) :
    (∀ sender withdrawal,
      CollisionFree (Key.string (sender,withdrawal) :: slotStrings c.world.history) →
      ¬Simulating (live c.stack) →
      (sponsorshipAllowance c.world sender withdrawal).toNat +
        (begunKeys c.world.history).count (sender,withdrawal) =
        (validatedKeys c.world.history).count (sender,withdrawal)) ∧
    (CollisionFree (slotStrings c.world.history) → ¬Simulating (live c.stack) →
      (∀ m w, Entry.begun m w ∈ c.world.history →
        m = w.recipient ∧ (w.recipient,withdrawalHash w) ∈ validatedKeys c.world.history) ∧
      (calledKeys c.world.history).Subperm (validatedKeys c.world.history) ∧
      (calledKeys c.world.history).length ≤ (validatedKeys c.world.history).length) ∧
    ∀ m w answer c₀ c', (paymaster lib tryRecover d).step
        (.call (.simulateRelayWithdraw m w answer)) c = some c₀ →
      Reachable (paymaster lib tryRecover d) (External d) c₀ c' →
      (∃ above atCall p, c'.stack = above ++ .waiting c.world atCall (.simulating p) :: c.stack) ∨
      ∃ gas, Reachable (paymaster lib tryRecover d) (External d) ⟨gas, c.world, c.stack⟩ c' := by
  have ledger := ledger_holds reach
  have counted (key : Key) (free : CollisionFree (key.string :: slotStrings c.world.history))
      (outside : ¬Simulating (live c.stack)) :
      (c.world.transient key.slot).toNat + (begunKeys c.world.history).count key =
        (validatedKeys c.world.history).count key :=
    ledger.counted gasLimit.isLt outside free
  refine ⟨?_,?_,?_⟩
  · intro sender withdrawal free outside
    exact counted (sender,withdrawal) free outside
  · intro free outside
    have begunLess (key : Key) (member : key ∈ begunKeys c.world.history) :
        (begunKeys c.world.history).count key ≤ (validatedKeys c.world.history).count key := by
      obtain ⟨e,old,begun⟩ := List.mem_filterMap.mp member
      have hashed : key.string ∈ slotStrings c.world.history := by
        apply List.mem_append_right
        refine List.mem_flatMap.mpr ⟨e,old,?_⟩
        cases e <;> try contradiction
        cases begun
        exact List.mem_singleton_self _
      have own : CollisionFree (key.string :: slotStrings c.world.history) := by
        apply free.subset
        intro string found
        rcases List.mem_cons.mp found with rfl | found
        · exact hashed
        · exact found
      have balance := counted key own outside
      omega
    have each : (calledKeys c.world.history).Subperm (validatedKeys c.world.history) := by
      rw [ledger.called]
      exact List.subperm_ext_iff.mpr begunLess
    refine ⟨?_,each,each.length_le⟩
    intro m w member
    refine ⟨ledger.own.resolve_right outside m w member,?_⟩
    have begun : withdrawalKey w ∈ begunKeys c.world.history :=
      List.mem_filterMap.mpr ⟨_,member,rfl⟩
    have positive := List.count_pos_iff.mpr begun
    have less := begunLess _ begun
    exact List.count_pos_iff.mp (positive.trans_le less)
  · intro m w answer c₀ c' stepped later
    rcases simulate_step stepped with ⟨world,stack⟩ | ⟨atCall,p,waiting⟩
    · right
      obtain ⟨gas,world₀,stack₀⟩ := c₀
      cases world
      cases stack
      exact ⟨gas,later⟩
    · have on : c₀.stack = [] ++ .waiting c.world atCall (.simulating p) :: c.stack := waiting
      rcases later.restored (simulating_reverts p) on with ⟨above,still⟩ | ended
      · exact .inl ⟨above,atCall,p,still⟩
      · exact .inr ended

/-- The account's withdrawal is granted, relayed and paid. -/
def relayedSteps : List (Step Call Act) :=
  let w := masterWithdrawal 0xb1 (10 ^ 17)
  [.call (.validatePaymasterUserOp 0xe1 delegatedChain (sponsoredOp (sponsoring w 0 0)) 1),
    .call (.relayWithdraw 0x51 w ⟨false,[]⟩),
    .act (.receive .eth (10 ^ 17)),
    .answer true]

/-- Anyone tries the next withdrawal out. -/
def dryRunSteps : List (Step Call Act) := [.act (.receive .eth (10 ^ 16)),.answer true]

theorem external_steps : (∀ s ∈ relayedSteps, ∀ ks w, External defaultDeployment ks w s) ∧
    ∀ s ∈ dryRunSteps, ∀ ks w, External defaultDeployment ks w s := by
  constructor <;> simp [relayedSteps,dryRunSteps,External,Call.msgSender,defaultDeployment]

/-- The relay has consumed the grant, and the dry run after it is as if it had not been. -/
theorem sponsorship_ledger_dry_run :
    ∃ c c' : Config World Pending,
      (paymaster Eip7702Support.standard (fun _ _ => some 0xa1) defaultDeployment).run relayedSteps
        ⟨20,World.initial 0 fun _ => 0,[]⟩ = some c ∧
      (sponsorshipAllowance c.world 0x51 (withdrawalHash (masterWithdrawal 0xb1 (10 ^ 17)))).toNat +
        1 = 1 ∧
      (calledKeys c.world.history).Subperm (validatedKeys c.world.history) ∧
      (paymaster Eip7702Support.standard (fun _ _ => some 0xa1) defaultDeployment).run
        (.call (.simulateRelayWithdraw 0x77 (masterWithdrawal 0xb2 (10 ^ 16)) ⟨false,[]⟩) ::
          dryRunSteps) c = some c' ∧
      ∃ gas, Reachable (paymaster Eip7702Support.standard (fun _ _ => some 0xa1) defaultDeployment)
        (External defaultDeployment) ⟨gas,c.world,c.stack⟩ c' := by
  let m := paymaster Eip7702Support.standard (fun _ _ => some 0xa1) defaultDeployment
  let key : Key := (0x51,withdrawalHash (masterWithdrawal 0xb1 (10 ^ 17)))
  let attempt : Step Call Act :=
    .call (.simulateRelayWithdraw 0x77 (masterWithdrawal 0xb2 (10 ^ 16)) ⟨false,[]⟩)
  have ran : ((m.run relayedSteps ⟨20,World.initial 0 fun _ => 0,[]⟩).bind fun c =>
      (m.step attempt c).bind fun c₀ => (m.run dryRunSteps c₀).map fun c' =>
        (decide (CollisionFree (key.string :: slotStrings c.world.history)),
          (begunKeys c.world.history).count key,(validatedKeys c.world.history).count key,
          c.stack.length,c'.stack.length)) = some (true,1,1,0,0) := by decide +kernel
  obtain ⟨c,relayed,ran⟩ := Option.bind_eq_some_iff.mp ran
  obtain ⟨c₀,stepped,ran⟩ := Option.bind_eq_some_iff.mp ran
  obtain ⟨c',tried,figures⟩ := Option.map_eq_some_iff.mp ran
  obtain ⟨free,begun,granted,idle,ended⟩ :
      CollisionFree (key.string :: slotStrings c.world.history) ∧
      (begunKeys c.world.history).count key = 1 ∧ (validatedKeys c.world.history).count key = 1 ∧
      c.stack = [] ∧ c'.stack = [] := by simpa using figures
  have reach : Reachable m (External defaultDeployment)
      ⟨BitVec.toNat (20 : Word 32),World.initial 0 fun _ => 0,[]⟩ c :=
    run_reachable external_steps.1 relayed
  obtain ⟨allowance,calls,dry⟩ := sponsorship_ledger reach
  have outside : ¬Simulating (live c.stack) := by simp [idle,live,Simulating]
  refine ⟨c,c',relayed,?_,?_,Option.bind_eq_some_iff.mpr ⟨c₀,stepped,tried⟩,?_⟩
  · have balance := allowance 0x51 key.2 free outside
    rwa [begun,granted] at balance
  · exact (calls (free.subset fun _ member => List.mem_cons_of_mem _ member) outside).2.1
  · rcases dry _ _ _ c₀ c' stepped (run_reachable external_steps.2 tried) with
      ⟨above,atCall,p,still⟩ | kept
    · simp [ended] at still
    · exact kept

end TornadoRelayer.Paymaster
