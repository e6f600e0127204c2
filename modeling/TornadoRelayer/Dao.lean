import TornadoRelayer.InstanceRegistry
import Mathlib.Algebra.BigOperators.Pi
import Mathlib.Algebra.Order.BigOperators.Group.Finset

/-! The sandbox DAO as it is deployed: the staking contract, the fee manager, the two registries
and the router answer each other. TORN is any ERC-20. The ENS, the pools and their tokens answer
as they like, except that a pool's denomination never changes. -/

/-! ### Amounts held by accounts -/

namespace Ledger

variable {α : Type}

def move [DecidableEq α] (held : α → Nat) (payer payee : α) (amount : Nat) : α → Nat :=
  let left := Function.update held payer (held payer - amount)
  Function.update left payee (left payee + amount)

/-- Nobody else pays. -/
theorem move_le [DecidableEq α] {held : α → Nat} {payer payee a : α} {amount : Nat}
    (other : a ≠ payer) : held a ≤ move held payer payee amount a := by
  by_cases received : a = payee
  · subst received
    simp [move,other]
  · simp [move,other,received]

theorem move_payee [DecidableEq α] {held : α → Nat} {payer payee : α} {amount : Nat}
    (other : payee ≠ payer) : move held payer payee amount payee = held payee + amount := by
  simp [move,other]

theorem move_payer [DecidableEq α] {held : α → Nat} {payer payee : α} {amount : Nat}
    (other : payee ≠ payer) : move held payer payee amount payer = held payer - amount := by
  simp [move,other.symm]

variable [Fintype α]

def total (held : α → Nat) : Nat := ∑ a, held a

theorem total_update [DecidableEq α] (held : α → Nat) (a : α) (amount : Nat) :
    total (Function.update held a amount) + held a = total held + amount := by
  have member := Finset.mem_univ a
  have old := Finset.sum_update_of_mem member held (held a)
  rw [Function.update_eq_self] at old
  rw [total,total,Finset.sum_update_of_mem member,old]
  omega

theorem total_le {held owed : α → Nat} (each : ∀ a, held a ≤ owed a) : total held ≤ total owed :=
  Finset.sum_le_sum fun a _ => each a

end Ledger

namespace TornadoRelayer.Dao

open BigEndian RelayerRegistry
open InstanceRegistry (FeeManager calculatePoolFee updateFee updateFees updateAllFees checkedMul)

/-! ### State -/

/-- TORN, known by what an ERC-20 documents. -/
structure Torn where
  /-- Who holds how much of it. -/
  Book : Type
  balanceOf : Book → Address → Nat
  /-- By the payer itself, or by one it allows. -/
  transfer : (payer payee : Address) → (amount : Nat) → Book → Except String Book
  /-- Whatever else it can be called for: transfers by others, approvals, permits, mints, changes
  of its owner. -/
  Call : Type
  call : (msgSender : Address) → Call → Book → Except String Book
  /-- The accounts whose TORN the call takes: they make it, or they allow who does. -/
  payers : (msgSender : Address) → Call → List Address
  fromZero : ∀ payee amount book, (transfer zeroAddress payee amount book).toBool = false
  moves : ∀ {payer payee amount book book'}, transfer payer payee amount book = .ok book' →
    amount ≤ balanceOf book payer ∧
      balanceOf book' = Ledger.move (balanceOf book) payer payee amount
  spares : ∀ {msgSender c book book' a}, call msgSender c book = .ok book' →
    a ∉ payers msgSender c → balanceOf book a ≤ balanceOf book' a

variable {T : Torn}

structure StakingRewards where
  relayerRegistry : Address
  accumulatedRewardPerTorn : Word 32
  accumulatedRewardRateOnLastUpdate : Address → Word 32
  accumulatedRewards : Address → Word 32
  totalBurnRewards : Word 32

/-- What the staking contract was given beside stakes, what governance withdrew of it and
added to its burn rewards, and what each account was set and has claimed so far. -/
structure Tally where
  given : Nat
  withdrawn : Nat
  added : Nat
  set : Address → Nat
  claimed : Address → Nat

def Tally.claim (account : Address) (amount : Nat) (t : Tally) : Tally :=
  { t with claimed := Function.update t.claimed account (t.claimed account + amount) }

structure State (T : Torn) where
  timestamp : Word 32
  torn : T.Book
  staking : StakingRewards
  registry : RelayerRegistry.Registry
  instances : InstanceRegistry.Registry
  fees : FeeManager
  updateFeeTimeLimit : Word 3
  tally : Tally

/-- The addresses of the contracts, and what each pool is a pool of. -/
structure Deployment where
  governance : Address
  torn : Address
  staking : Address
  relayerRegistry : Address
  router : Address
  ratioConstant : Nat
  denomination : Address → Except String (Word 32)
  governance_apart : governance ∉ [staking, relayerRegistry, router]
  router_apart : router ≠ staking

/-- Contracts send only what their code sends. -/
def Deployment.Outsider (d : Deployment) (a : Address) : Prop :=
  a ∉ [d.staking, d.relayerRegistry, d.router]

instance (d : Deployment) (a : Address) : Decidable (d.Outsider a) :=
  inferInstanceAs (Decidable (a ∉ [d.staking, d.relayerRegistry, d.router]))

/-- What the ENS, TORN's allowances, the pools and their tokens answer to a call. -/
structure Outside where
  owner : Bytes32 → Address
  permit : Address → Word 32 → Bool
  /-- The account allows the registry the amount. -/
  allowed : Address → Word 32 → Bool
  token : Address → Except String Address
  allowance : (token owner spender : Address) → Except String (Word 32)
  approveExactToken : (router token spender : Address) → Word 32 → Bool
  withdraw : Address → Bool

inductive Call (T : Torn) where
  | registry (c : RelayerRegistry.Call)
  | instances (c : InstanceRegistry.Call)
  | updateFee (pool : Address)
  | updateFees (pools : List Address)
  | updateAllFees
  | instanceFeeWithUpdate (pool : Address)
  | setTornPerAsset (asset : Address) (tornPerAsset : Word 32)
  | setUpdateFeeTimeLimit (newLimit : Word 3)
  | setRelayerRegistry (relayerRegistry : Address)
  | getReward
  | addBurnRewards (amount : Word 32)
  | updateRewardsOnLockedBalanceChange (account : Address)
  | setReward (account : Address) (amount : Word 32)
  | withdrawTorn (amount : Word 32)
  | withdraw (pool relayer : Address)
  | rescueTokens (token recipient : Address) (amount : Word 32)
  | torn (c : T.Call)
  /-- The next block comes so many seconds later. -/
  | wait (seconds : Nat)

/-! ### TORN -/

/-- TORN that comes to the staking contract other than as a stake is given to it. -/
def State.give (d : Deployment) (torn : T.Book) (s : State T) : State T :=
  let given := T.balanceOf torn d.staking - T.balanceOf s.torn d.staking
  { s with torn, tally := { s.tally with given := s.tally.given + given } }

/-! ### The fee manager -/

def Deployment.pools (d : Deployment) (o : Outside) : InstanceRegistry.Outside where
  token := o.token
  allowance := o.allowance
  approveExactToken := o.approveExactToken
  denomination := d.denomination

def State.updateFee (d : Deployment) (o : Outside) (pool : Address) (s : State T) :
    Except String (State T) := do
  let fees ← InstanceRegistry.updateFee (d.pools o) s.instances s.timestamp s.fees pool
  return { s with fees }

/-- The fee, and the state with that fee refreshed when it is too old. -/
def State.instanceFeeWithUpdate (d : Deployment) (o : Outside) (pool : Address) (s : State T) :
    Except String (Word 20 × State T) := do
  require ((s.fees.instanceFeeUpdated pool).toNat ≤ s.timestamp.toNat) "arithmetic underflow"
  if s.timestamp.toNat - (s.fees.instanceFeeUpdated pool).toNat > s.updateFeeTimeLimit.toNat then
    let s ← s.updateFee d o pool
    return (s.fees.instanceFee pool, s)
  else return (s.fees.instanceFee pool, s)

/-- By how many thousandths each listed pool's fee is off what the formula gives now. -/
def feeDeviations (d : Deployment) (o : Outside) (s : State T) : Except String (List (Address × Int)) :=
  (InstanceRegistry.getAllInstanceAddresses s.instances).mapM fun pool => do
    let marketFee ← calculatePoolFee (d.pools o) s.instances s.fees pool
    if marketFee ≠ 0 then
      let scaled ← checkedMul (s.fees.instanceFee pool).toNat 1000
      return (pool, (scaled / marketFee.toNat : Nat) - 1000)
    else return (pool, 0)

/-! ### The staking contract -/

def checkedAdd (a : Word 32) (b : Nat) : Except String (Word 32) := do
  require (a.toNat + b < 2 ^ 256) "arithmetic overflow"
  return a + BitVec.ofNat 256 b

def _updateReward (account : Address) (r : StakingRewards) : StakingRewards × Word 32 :=
  ({ r with
    accumulatedRewardRateOnLastUpdate :=
      Function.update r.accumulatedRewardRateOnLastUpdate account r.accumulatedRewardPerTorn },
    r.accumulatedRewards account)

def addBurnRewards (d : Deployment) (msgSender : Address) (amount : Nat) (s : State T) :
    Except String (State T) := do
  require (msgSender = d.governance ∨ msgSender = s.staking.relayerRegistry) "unauthorized"
  let totalBurnRewards ← checkedAdd s.staking.totalBurnRewards amount
  let staked := T.balanceOf s.torn d.staking
  if staked > 0 then
    let scaled ← checkedMul amount d.ratioConstant
    let rate ← checkedAdd s.staking.accumulatedRewardPerTorn (scaled / staked)
    return { s with staking := { s.staking with totalBurnRewards, accumulatedRewardPerTorn := rate } }
  else return { s with staking := { s.staking with totalBurnRewards } }

def getReward (d : Deployment) (msgSender : Address) (s : State T) : Except String (State T) := do
  let staking := (_updateReward msgSender s.staking).1
  let rewards := (_updateReward msgSender s.staking).2
  if rewards.toNat > 0 then
    let accumulatedRewards := Function.update staking.accumulatedRewards msgSender 0
    let torn ← T.transfer d.staking msgSender rewards.toNat s.torn
    let tally := s.tally.claim msgSender rewards.toNat
    return { s with torn, staking := { staking with accumulatedRewards }, tally }
  else return { s with staking }

def setReward (account : Address) (amount : Word 32) (s : State T) : State T :=
  let accumulatedRewards := Function.update s.staking.accumulatedRewards account amount
  let set := Function.update s.tally.set account (s.tally.set account + amount.toNat)
  { s with staking := { s.staking with accumulatedRewards }, tally := { s.tally with set } }

def withdrawTorn (d : Deployment) (amount : Word 32) (s : State T) : Except String (State T) := do
  let torn ← T.transfer d.staking d.governance amount.toNat s.torn
  return { s with torn, tally := { s.tally with withdrawn := s.tally.withdrawn + amount.toNat } }

/-! ### The relayer registry and the router -/

/-- What the registry is answered by the contracts it is deployed with. -/
def State.answers (d : Deployment) (o : Outside) (s : State T) : RelayerRegistry.Outside where
  owner := o.owner
  permit := o.permit
  transferFrom payer amount :=
    -- the staking contract allows nobody
    payer ≠ d.staking && o.allowed payer amount &&
      (T.transfer payer d.staking amount.toNat s.torn).toBool
  transferFromZero amount := by rw [T.fromZero,Bool.and_false]
  instanceFeeWithUpdate pool := (s.instanceFeeWithUpdate d o pool).map Prod.fst
  addBurnRewards amount := (addBurnRewards d d.relayerRegistry amount s).toBool
  supported pool := (s.instances.instances pool).state ≠ .DISABLED
  withdraw := o.withdraw

/-- The stake has been moved to the staking contract. -/
def State.staked (d : Deployment) (payer : Address) (stake : Word 32) (s : State T) :
    Except String (State T) := do
  let torn ← T.transfer payer d.staking stake.toNat s.torn
  return { s with torn }

/-- The fee manager and the staking contract have been called for a registered sender. -/
def State.burned (d : Deployment) (o : Outside) (sender pool : Address) (s : State T) :
    Except String (State T) := do
  if s.registry.workers sender = zeroAddress then return s
  else
    let (toBurn, s) ← s.instanceFeeWithUpdate d o pool
    addBurnRewards d d.relayerRegistry toBurn.toNat s

/-- What a call of the registry leaves of the other contracts. -/
def State.called (d : Deployment) (o : Outside) (msgSender : Address) (s : State T) :
    RelayerRegistry.Call → Except String (State T)
  | .register _ stake _ => s.staked d msgSender stake
  | .registerPermit _ stake _ relayer => s.staked d relayer stake
  | .stakeToRelayer _ stake => s.staked d msgSender stake
  | .stakeToRelayerPermit _ stake staker => s.staked d staker stake
  | .burn sender _ pool => s.burned d o sender pool
  | .registerWorker .. | .unregisterWorker .. | .setMinStakeAmount .. | .setTornadoRouter ..
  | .nullifyBalance .. => .ok s

def callRegistry (d : Deployment) (o : Outside) (msgSender : Address) (c : RelayerRegistry.Call)
    (s : State T) : Except String (State T) := do
  let registry ← RelayerRegistry.execute d.governance (s.answers d o) msgSender c s.registry
  let s ← s.called d o msgSender c
  return { s with registry }

/-- The router burns in its caller's name, and then calls the pool. -/
def withdraw (d : Deployment) (o : Outside) (msgSender pool relayer : Address) (s : State T) :
    Except String (State T) := do
  require ((s.instances.instances pool).state ≠ .DISABLED) "The instance is not supported"
  let s ← callRegistry d o d.router (.burn msgSender relayer pool) s
  require (o.withdraw pool) "withdraw"
  return s

/-- ETH and other tokens are in none of these books. -/
def rescueTokens (d : Deployment) (token recipient : Address) (amount : Word 32) (s : State T) :
    Except String (State T) := do
  require (recipient ≠ zeroAddress) "TORN: can not send to zero address"
  if token = d.torn then
    let balance := min amount.toNat (T.balanceOf s.torn d.router)
    require (balance > 0) "TORN: trying to send 0 balance"
    let torn ← T.transfer d.router recipient balance s.torn
    return s.give d torn
  else return s

/-! ### One call -/

def execute (d : Deployment) (o : Outside) (msgSender : Address) (c : Call T) (s : State T) :
    Except String (State T) := do
  match c with
  | .registry c => callRegistry d o msgSender c s
  | .instances c =>
    let instances ← InstanceRegistry.execute d.governance (d.pools o) msgSender c s.instances
    return { s with instances }
  | .updateFee pool => s.updateFee d o pool
  | .updateFees pools =>
    let fees ← updateFees (d.pools o) s.instances s.timestamp pools s.fees
    return { s with fees }
  | .updateAllFees =>
    let fees ← updateAllFees (d.pools o) s.instances s.timestamp s.fees
    return { s with fees }
  | .instanceFeeWithUpdate pool =>
    let (_, s) ← s.instanceFeeWithUpdate d o pool
    return s
  | .setTornPerAsset asset tornPerAsset =>
    require (msgSender = d.governance) "only governance"
    return { s with fees := { s.fees with
      tornPerAsset := Function.update s.fees.tornPerAsset asset tornPerAsset } }
  | .setUpdateFeeTimeLimit newLimit =>
    require (msgSender = d.governance) "only governance"
    return { s with updateFeeTimeLimit := newLimit }
  | .setRelayerRegistry relayerRegistry =>
    require (msgSender = d.governance) "only governance"
    require (s.staking.relayerRegistry = zeroAddress) "already set"
    return { s with staking := { s.staking with relayerRegistry } }
  | .getReward => getReward d msgSender s
  | .addBurnRewards amount =>
    let s ← addBurnRewards d msgSender amount.toNat s
    return { s with tally := { s.tally with added := s.tally.added + amount.toNat } }
  | .updateRewardsOnLockedBalanceChange account =>
    require (msgSender = d.governance) "only governance"
    return { s with staking := (_updateReward account s.staking).1 }
  | .setReward account amount =>
    require (msgSender = d.governance) "only governance"
    return setReward account amount s
  | .withdrawTorn amount =>
    require (msgSender = d.governance) "only governance"
    withdrawTorn d amount s
  | .withdraw pool relayer => withdraw d o msgSender pool relayer s
  | .rescueTokens token recipient amount =>
    require (msgSender = d.governance) "Not authorized"
    rescueTokens d token recipient amount s
  | .torn c =>
    -- the staking contract allows nobody
    require (d.staking ∉ T.payers msgSender c) "ERC20InsufficientAllowance"
    let torn ← T.call msgSender c s.torn
    return s.give d torn
  | .wait seconds =>
    require (s.timestamp.toNat + seconds < 2 ^ 256) "timestamp"
    return { s with timestamp := s.timestamp + BitVec.ofNat 256 seconds }

/-! ### Runs -/

/-- What TORN holds for the staking contract before its deployment is given to it. -/
def State.initial (d : Deployment) (timestamp : Word 32) (updateFeeTimeLimit : Word 3)
    (torn : T.Book) : State T where
  timestamp
  torn
  staking := ⟨zeroAddress, 0, fun _ => 0, fun _ => 0, 0⟩
  registry := .initial
  instances := .initial
  fees := ⟨fun _ => 0, fun _ => 0, fun _ => 0, []⟩
  updateFeeTimeLimit
  tally := ⟨T.balanceOf torn d.staking, 0, 0, fun _ => 0, fun _ => 0⟩

/-- Somebody's call succeeds, at any depth of a transaction; one that reverts restores a
state the run has been in. -/
def Step (d : Deployment) (s s' : State T) : Prop :=
  ∃ o msgSender c, d.Outsider msgSender ∧ execute d o msgSender c s = .ok s'

def Run (d : Deployment) : State T → State T → Prop := Relation.ReflTransGen (Step d)

end TornadoRelayer.Dao
