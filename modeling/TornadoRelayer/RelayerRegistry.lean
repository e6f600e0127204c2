import TornadoRelayer.UserOp
import Mathlib.Algebra.BigOperators.Group.Finset.Basic
import Mathlib.Data.Fintype.Basic
import Mathlib.Logic.Relation

/-! The sandbox's relayer registry: masters and their workers, the stake of each master,
and what the router burns of it. Other contracts answer as they like, except that TORN
never moves from the zero address. -/
namespace TornadoRelayer.RelayerRegistry

open BigEndian Keccak

/-! ### State -/

structure RelayerState where
  balance : Word 32
  ensHash : Bytes32

/-- The storage, and what has been moved to staking, burned and nullified so far. -/
structure Registry where
  tornadoRouter : Address
  minStakeAmount : Word 32
  relayers : Address → RelayerState
  workers : Address → Address
  staked : Nat
  burned : Nat
  nullified : Nat

def Registry.initial : Registry where
  tornadoRouter := zeroAddress
  minStakeAmount := 0
  relayers _ := ⟨0, 0⟩
  workers _ := zeroAddress
  staked := 0
  burned := 0
  nullified := 0

/-- What the ENS, TORN, the fee manager, the staking contract and the pools answer to a call. -/
structure Outside where
  owner : Bytes32 → Address
  permit : Address → Word 32 → Bool
  transferFrom : Address → Word 32 → Bool
  /-- An ERC-20 transfer from the zero address reverts. -/
  transferFromZero : ∀ amount, transferFrom zeroAddress amount = false
  instanceFeeWithUpdate : Address → Except String (Word 20)
  addBurnRewards : Nat → Bool
  /-- The router's instance registry lists the pool. -/
  supported : Address → Bool
  withdraw : Address → Bool

inductive Call where
  | register (ensName : Bytes) (stake : Word 32) (workersToRegister : List Address)
  | registerPermit (ensName : Bytes) (stake : Word 32) (workersToRegister : List Address)
    (relayer : Address)
  | registerWorker (relayer worker : Address)
  | unregisterWorker (worker : Address)
  | stakeToRelayer (relayer : Address) (stake : Word 32)
  | stakeToRelayerPermit (relayer : Address) (stake : Word 32) (staker : Address)
  | burn (sender relayer pool : Address)
  | setMinStakeAmount (minAmount : Word 32)
  | setTornadoRouter (tornadoRouterAddress : Address)
  | nullifyBalance (relayer : Address)

/-! ### The contract -/

def require (condition : Prop) [Decidable condition] (message : String) : Except String Unit :=
  if condition then .ok () else .error message

/-- EIP-137, from the last label to the first. -/
def namehash (domain : Bytes) : Bytes32 :=
  if domain = [] then 0
  else
    let label := domain.takeWhile (· ≠ 0x2e)
    keccak256 ((namehash (domain.drop (label.length + 1))).bytes ++ (keccak256 label).bytes)
termination_by domain.length
decreasing_by
  have some := List.length_pos_iff.mpr ‹_›
  rw [List.length_drop]
  omega

def _registerWorker (relayer : Address) (s : Registry) (worker : Address) :
    Except String Registry := do
  require (s.workers worker = zeroAddress) "can't steal an address"
  return { s with workers := Function.update s.workers worker relayer }

def _register (o : Outside) (relayer : Address) (ensName : Bytes) (stake : Word 32)
    (workersToRegister : List Address) (s : Registry) : Except String Registry := do
  let ensHash := namehash ensName
  require (relayer = o.owner ensHash) "only ens owner"
  require (s.workers relayer = zeroAddress) "cant register again"
  require ((s.relayers relayer).ensHash = 0) "registered already"
  require (stake ≥ s.minStakeAmount) "!min_stake"
  require (o.transferFrom relayer stake) "SafeERC20FailedOperation"
  workersToRegister.foldlM (_registerWorker relayer) { s with
    relayers := Function.update s.relayers relayer ⟨stake, ensHash⟩
    workers := Function.update s.workers relayer relayer
    staked := s.staked + stake.toNat }

def registerWorker (msgSender relayer worker : Address) (s : Registry) : Except String Registry := do
  require (s.workers msgSender = relayer) "only relayer"
  _registerWorker relayer s worker

def unregisterWorker (msgSender worker : Address) (s : Registry) : Except String Registry := do
  require (worker ≠ msgSender → s.workers worker = msgSender) "only owner of worker"
  require (s.workers worker ≠ worker) "cant unregister master"
  return { s with workers := Function.update s.workers worker zeroAddress }

def _stakeToRelayer (o : Outside) (staker relayer : Address) (stake : Word 32) (s : Registry) :
    Except String Registry := do
  require (s.workers relayer = relayer) "!registered"
  require (o.transferFrom staker stake) "SafeERC20FailedOperation"
  let state := s.relayers relayer
  require (stake.toNat + state.balance.toNat < 2 ^ 256) "arithmetic overflow"
  return { s with
    relayers := Function.update s.relayers relayer { state with balance := stake + state.balance }
    staked := s.staked + stake.toNat }

def burn (o : Outside) (msgSender sender relayer pool : Address) (s : Registry) :
    Except String Registry := do
  require (msgSender = s.tornadoRouter) "only proxy"
  let masterAddress := s.workers sender
  if masterAddress = zeroAddress then
    require (s.workers relayer = zeroAddress) "Only custom relayer"
    return s
  else
    require (masterAddress = relayer) "only relayer"
    let toBurn ← o.instanceFeeWithUpdate pool
    let state := s.relayers relayer
    require (toBurn.toNat ≤ state.balance.toNat) "arithmetic underflow"
    require (o.addBurnRewards toBurn.toNat) "unauthorized"
    return { s with
      relayers := Function.update s.relayers relayer
        { state with balance := state.balance - toBurn.setWidth 256 }
      burned := s.burned + toBurn.toNat }

def nullifyBalance (relayer : Address) (s : Registry) : Except String Registry := do
  let masterAddress := s.workers relayer
  require (relayer = masterAddress) "must be master"
  let state := s.relayers masterAddress
  return { s with
    relayers := Function.update s.relayers masterAddress { state with balance := 0 }
    nullified := s.nullified + state.balance.toNat }

def execute (governance : Address) (o : Outside) (msgSender : Address) (c : Call) (s : Registry) :
    Except String Registry := do
  match c with
  | .register ensName stake workersToRegister =>
    _register o msgSender ensName stake workersToRegister s
  | .registerPermit ensName stake workersToRegister relayer =>
    require (o.permit relayer stake) "ERC2612InvalidSigner"
    _register o relayer ensName stake workersToRegister s
  | .registerWorker relayer worker => registerWorker msgSender relayer worker s
  | .unregisterWorker worker => unregisterWorker msgSender worker s
  | .stakeToRelayer relayer stake => _stakeToRelayer o msgSender relayer stake s
  | .stakeToRelayerPermit relayer stake staker =>
    require (o.permit staker stake) "ERC2612InvalidSigner"
    _stakeToRelayer o staker relayer stake s
  | .burn sender relayer pool => burn o msgSender sender relayer pool s
  | .setMinStakeAmount minAmount =>
    require (msgSender = governance) "only governance"
    return { s with minStakeAmount := minAmount }
  | .setTornadoRouter tornadoRouterAddress =>
    require (msgSender = governance) "only governance"
    return { s with tornadoRouter := tornadoRouterAddress }
  | .nullifyBalance relayer =>
    require (msgSender = governance) "only governance"
    nullifyBalance relayer s

/-- `withdraw` of the router at this address: the burn in its caller's name, then the pool. -/
def routerWithdraw (governance router : Address) (o : Outside) (msgSender pool relayer : Address)
    (s : Registry) : Except String Registry := do
  require (o.supported pool) "The instance is not supported"
  let s ← execute governance o router (.burn msgSender relayer pool) s
  require (o.withdraw pool) "withdraw"
  return s

/-! ### Invariants -/

instance wordFintype (n : Nat) : Fintype (BitVec n) :=
  Fintype.ofEquiv (Fin (2 ^ n)) ⟨BitVec.ofFin, BitVec.toFin, fun _ => rfl, fun _ => rfl⟩

def Registry.totalBalance (s : Registry) : Nat := ∑ a : Address, (s.relayers a).balance.toNat

structure Registry.Sound (s : Registry) : Prop where
  resolves : ∀ a, s.workers a ≠ zeroAddress → s.workers (s.workers a) = s.workers a
  unstaked : ∀ a, a ≠ zeroAddress → s.workers a ≠ a → (s.relayers a).balance = 0
  ledger : s.totalBalance + s.burned + s.nullified = s.staked

/-- An entry that is set may only be cleared, not a master's, by its owner or its master. -/
def Registry.Keeps (msgSender : Address) (s s' : Registry) : Prop :=
  ∀ a, s.workers a ≠ zeroAddress → s'.workers a = s.workers a ∨
    (s'.workers a = zeroAddress ∧ s.workers a ≠ a ∧ (msgSender = a ∨ msgSender = s.workers a))

variable {o : Outside} {governance msgSender : Address} {s s' : Registry}

theorem require_ok_iff {condition : Prop} [Decidable condition] {message : String} {u : Unit} :
    require condition message = .ok u ↔ condition := by
  rw [require]
  split <;> simp [*]

theorem sum_update (f : Address → RelayerState) (r : Address) (state : RelayerState) :
    (∑ a : Address, (Function.update f r state a).balance.toNat) + (f r).balance.toNat =
      (∑ a : Address, (f a).balance.toNat) + state.balance.toNat := by
  have others : ∑ a ∈ Finset.univ.erase r, (Function.update f r state a).balance.toNat =
      ∑ a ∈ Finset.univ.erase r, (f a).balance.toNat := by
    apply Finset.sum_congr rfl
    intro a member
    rw [Function.update_of_ne (Finset.ne_of_mem_erase member)]
  rw [← Finset.add_sum_erase _ _ (Finset.mem_univ r),Function.update_self,others,
    ← Finset.add_sum_erase Finset.univ (fun a => (f a).balance.toNat) (Finset.mem_univ r)]
  omega

/-! ### Entries -/

/-- A new entry leads to a master. -/
theorem Registry.Sound.link (sound : s.Sound) {relayer worker : Address}
    (free : s.workers worker = zeroAddress)
    (master : relayer ≠ zeroAddress → worker = relayer ∨ s.workers relayer = relayer) :
    Sound { s with workers := Function.update s.workers worker relayer } := by
  refine ⟨?_,?_,sound.ledger⟩
  · intro a some
    by_cases new : a = worker
    · subst new
      simp only [Function.update_self] at some ⊢
      rcases master some with rfl | resolves
      · exact Function.update_self ..
      · rw [Function.update_apply]
        split
        · rfl
        · exact resolves
    · simp only [Function.update_of_ne new] at some ⊢
      have old := sound.resolves a some
      rw [Function.update_of_ne,old]
      intro same
      rw [same,free] at old
      exact some (same.trans old.symm)
  · intro a nonzero other
    apply sound.unstaked a nonzero
    by_cases new : a = worker
    · rw [new,free]
      exact fun zero => nonzero (new.trans zero.symm)
    · simpa [Function.update_of_ne new] using other

theorem Registry.Sound.unlink (sound : s.Sound) {worker : Address}
    (other : s.workers worker ≠ worker) :
    Sound { s with workers := Function.update s.workers worker zeroAddress } := by
  refine ⟨?_,?_,sound.ledger⟩
  · intro a some
    by_cases gone : a = worker
    · rw [gone] at some
      exact absurd (Function.update_self ..) some
    · simp only [Function.update_of_ne gone] at some ⊢
      have old := sound.resolves a some
      rw [Function.update_of_ne,old]
      rintro same
      rw [same] at old
      exact other old
  · intro a nonzero differs
    apply sound.unstaked a nonzero
    by_cases gone : a = worker
    · exact gone ▸ other
    · simpa [Function.update_of_ne gone] using differs

/-- A balance changes by what the totals account for. -/
theorem Registry.Sound.restake (sound : s.Sound) {relayer : Address} {state : RelayerState}
    {staked burned nullified : Nat} (master : s.workers relayer = relayer)
    (balanced : state.balance.toNat + burned + nullified + s.staked =
      (s.relayers relayer).balance.toNat + s.burned + s.nullified + staked) :
    Sound { s with relayers := Function.update s.relayers relayer state, staked, burned, nullified } := by
  refine ⟨sound.resolves,?_,?_⟩
  · intro a nonzero other
    have apart : a ≠ relayer := by
      rintro rfl
      exact other master
    simp only [Function.update_of_ne apart]
    exact sound.unstaked a nonzero other
  · have total := sum_update s.relayers relayer state
    have before := sound.ledger
    simp only [totalBalance] at before ⊢
    omega

/-! ### One call -/

theorem Registry.Keeps.of_workers (same : s'.workers = s.workers) : s.Keeps msgSender s' :=
  fun a _ => .inl (congrFun same a)

theorem Registry.Keeps.link {relayer worker : Address} (free : s.workers worker = zeroAddress) :
    s.Keeps msgSender { s with workers := Function.update s.workers worker relayer } := by
  intro a some
  left
  apply Function.update_of_ne
  rintro rfl
  exact some free

theorem registerWorker_ok {relayer worker : Address}
    (ok : _registerWorker relayer s worker = .ok s') : s.workers worker = zeroAddress ∧
      s' = { s with workers := Function.update s.workers worker relayer } := by
  obtain ⟨_,free,returned⟩ := bind_ok_iff.mp ok
  cases returned
  exact ⟨require_ok_iff.mp free,rfl⟩

/-- The workers a relayer registers with leave every entry that was set. -/
theorem registerWorkers_sound {relayer : Address} {workersToRegister : List Address}
    (sound : s.Sound) (master : s.workers relayer = relayer) (nonzero : relayer ≠ zeroAddress)
    (ok : workersToRegister.foldlM (_registerWorker relayer) s = .ok s') :
    s'.Sound ∧ ∀ a, s.workers a ≠ zeroAddress → s'.workers a = s.workers a := by
  induction workersToRegister generalizing s with
  | nil =>
    cases ok
    exact ⟨sound,fun _ _ => rfl⟩
  | cons worker rest ih =>
    rw [List.foldlM_cons] at ok
    obtain ⟨next,first,later⟩ := bind_ok_iff.mp ok
    obtain ⟨free,rfl⟩ := registerWorker_ok first
    have kept {a : Address} (some : s.workers a ≠ zeroAddress) :
        Function.update s.workers worker relayer a = s.workers a := by
      apply Function.update_of_ne
      rintro rfl
      exact some free
    have still : Function.update s.workers worker relayer relayer = relayer :=
      (kept (by rwa [master])).trans master
    obtain ⟨after,same⟩ := ih (sound.link free fun _ => .inr master) still later
    refine ⟨after,fun a some => ?_⟩
    rw [← kept some]
    exact same a (by simpa [kept some] using some)

theorem register_sound {relayer : Address} {ensName : Bytes} {stake : Word 32}
    {workersToRegister : List Address} (sound : s.Sound)
    (ok : _register o relayer ensName stake workersToRegister s = .ok s') :
    s'.Sound ∧ s.Keeps msgSender s' := by
  obtain ⟨_,_,ok⟩ := bind_ok_iff.mp ok
  obtain ⟨_,free,ok⟩ := bind_ok_iff.mp ok
  obtain ⟨_,_,ok⟩ := bind_ok_iff.mp ok
  obtain ⟨_,_,ok⟩ := bind_ok_iff.mp ok
  obtain ⟨_,moved,ok⟩ := bind_ok_iff.mp ok
  rw [require_ok_iff] at free moved
  have nonzero : relayer ≠ zeroAddress := by
    rintro rfl
    rw [o.transferFromZero] at moved
    contradiction
  have empty := sound.unstaked relayer nonzero (by rw [free]; exact nonzero.symm)
  have linked : Registry.Sound { s with workers := Function.update s.workers relayer relayer } :=
    sound.link free fun _ => .inl rfl
  have staked : Registry.Sound { s with
      relayers := Function.update s.relayers relayer ⟨stake,namehash ensName⟩
      workers := Function.update s.workers relayer relayer
      staked := s.staked + stake.toNat } :=
    linked.restake (Function.update_self ..) (by simp [empty]; omega)
  obtain ⟨after,same⟩ := registerWorkers_sound staked (Function.update_self ..) nonzero ok
  refine ⟨after,fun a some => .inl ?_⟩
  have kept : Function.update s.workers relayer relayer a = s.workers a := by
    apply Function.update_of_ne
    rintro rfl
    exact some free
  rw [← kept]
  exact same a (by simpa [kept] using some)

theorem registerWorker_sound {relayer worker : Address} (sound : s.Sound)
    (ok : registerWorker msgSender relayer worker s = .ok s') :
    s'.Sound ∧ s.Keeps msgSender s' := by
  obtain ⟨_,named,ok⟩ := bind_ok_iff.mp ok
  rw [require_ok_iff] at named
  obtain ⟨free,rfl⟩ := registerWorker_ok ok
  refine ⟨sound.link free fun nonzero => .inr ?_,.link free⟩
  subst named
  exact sound.resolves msgSender nonzero

theorem unregisterWorker_sound {worker : Address} (sound : s.Sound)
    (ok : unregisterWorker msgSender worker s = .ok s') :
    s'.Sound ∧ s.Keeps msgSender s' := by
  obtain ⟨_,owner,ok⟩ := bind_ok_iff.mp ok
  obtain ⟨_,other,ok⟩ := bind_ok_iff.mp ok
  rw [require_ok_iff] at owner other
  cases ok
  refine ⟨sound.unlink other,fun a _ => ?_⟩
  by_cases gone : a = worker
  · subst gone
    refine .inr ⟨Function.update_self ..,other,?_⟩
    by_cases own : a = msgSender
    · exact .inl own.symm
    · exact .inr (owner own).symm
  · exact .inl (Function.update_of_ne gone ..)

theorem stakeToRelayer_sound {staker relayer : Address} {stake : Word 32} (sound : s.Sound)
    (ok : _stakeToRelayer o staker relayer stake s = .ok s') :
    s'.Sound ∧ s.Keeps msgSender s' := by
  obtain ⟨_,master,ok⟩ := bind_ok_iff.mp ok
  obtain ⟨_,_,ok⟩ := bind_ok_iff.mp ok
  obtain ⟨_,fits,ok⟩ := bind_ok_iff.mp ok
  rw [require_ok_iff] at master fits
  cases ok
  refine ⟨sound.restake master ?_,.of_workers rfl⟩
  simp only [BitVec.toNat_add]
  rw [Nat.mod_eq_of_lt fits]
  omega

theorem nullifyBalance_sound {relayer : Address} (sound : s.Sound)
    (ok : nullifyBalance relayer s = .ok s') : s'.Sound ∧ s.Keeps msgSender s' := by
  obtain ⟨_,master,ok⟩ := bind_ok_iff.mp ok
  rw [require_ok_iff] at master
  cases ok
  refine ⟨sound.restake (master ▸ master.symm) ?_,.of_workers rfl⟩
  simp
  omega

/-- A burn lowers the balance of the master its sender resolves to, by the pool's fee, or
nothing at all when the sender and the named relayer resolve to nobody. -/
inductive Registry.Burns (s : Registry) (o : Outside) (sender relayer pool : Address) :
    Registry → Prop where
  | custom : s.workers sender = zeroAddress → s.workers relayer = zeroAddress →
    Burns s o sender relayer pool s
  | staked (toBurn : Word 20) : o.instanceFeeWithUpdate pool = .ok toBurn →
    relayer ≠ zeroAddress → s.workers sender = relayer →
    toBurn.toNat ≤ (s.relayers relayer).balance.toNat →
    Burns s o sender relayer pool { s with
      relayers := Function.update s.relayers relayer { s.relayers relayer with
        balance := (s.relayers relayer).balance - toBurn.setWidth 256 }
      burned := s.burned + toBurn.toNat }

theorem burn_ok {sender relayer pool : Address}
    (ok : burn o msgSender sender relayer pool s = .ok s') :
    msgSender = s.tornadoRouter ∧ s.Burns o sender relayer pool s' := by
  obtain ⟨_,router,ok⟩ := bind_ok_iff.mp ok
  refine ⟨require_ok_iff.mp router,?_⟩
  simp only at ok
  split at ok
  · next unregistered =>
    obtain ⟨_,custom,ok⟩ := bind_ok_iff.mp ok
    cases ok
    exact .custom unregistered (require_ok_iff.mp custom)
  · next registered =>
    obtain ⟨_,master,ok⟩ := bind_ok_iff.mp ok
    rw [require_ok_iff] at master
    obtain ⟨toBurn,fee,ok⟩ := bind_ok_iff.mp ok
    obtain ⟨_,enough,ok⟩ := bind_ok_iff.mp ok
    obtain ⟨_,_,ok⟩ := bind_ok_iff.mp ok
    rw [require_ok_iff] at enough
    cases ok
    exact .staked toBurn fee (master ▸ registered) master enough

theorem Registry.Burns.sound {sender relayer pool : Address} (sound : s.Sound)
    (burns : s.Burns o sender relayer pool s') : s'.Sound ∧ s.Keeps msgSender s' := by
  cases burns with
  | custom => exact ⟨sound,.of_workers rfl⟩
  | staked toBurn _ nonzero master enough =>
    have resolved := sound.resolves sender (master.symm ▸ nonzero)
    rw [master] at resolved
    refine ⟨sound.restake resolved ?_,.of_workers rfl⟩
    have small := (s.relayers relayer).balance.isLt
    have amount : (toBurn.setWidth 256).toNat = toBurn.toNat := by
      rw [BitVec.toNat_setWidth,Nat.mod_eq_of_lt (enough.trans_lt small)]
    have lowered : ((s.relayers relayer).balance - toBurn.setWidth 256).toNat =
        (s.relayers relayer).balance.toNat - toBurn.toNat := by
      rw [BitVec.toNat_sub_of_le (BitVec.le_def.mpr (amount.symm ▸ enough)),amount]
    simp only [lowered]
    omega

theorem execute_sound {c : Call} (sound : s.Sound)
    (ok : execute governance o msgSender c s = .ok s') : s'.Sound ∧ s.Keeps msgSender s' := by
  cases c with
  | register => exact register_sound sound ok
  | registerPermit =>
    obtain ⟨_,_,ok⟩ := bind_ok_iff.mp ok
    exact register_sound sound ok
  | registerWorker => exact registerWorker_sound sound ok
  | unregisterWorker => exact unregisterWorker_sound sound ok
  | stakeToRelayer => exact stakeToRelayer_sound sound ok
  | stakeToRelayerPermit =>
    obtain ⟨_,_,ok⟩ := bind_ok_iff.mp ok
    exact stakeToRelayer_sound sound ok
  | burn => exact (burn_ok ok).2.sound sound
  | setMinStakeAmount =>
    obtain ⟨_,_,ok⟩ := bind_ok_iff.mp ok
    cases ok
    exact ⟨⟨sound.resolves,sound.unstaked,sound.ledger⟩,.of_workers rfl⟩
  | setTornadoRouter =>
    obtain ⟨_,_,ok⟩ := bind_ok_iff.mp ok
    cases ok
    exact ⟨⟨sound.resolves,sound.unstaked,sound.ledger⟩,.of_workers rfl⟩
  | nullifyBalance =>
    obtain ⟨_,_,ok⟩ := bind_ok_iff.mp ok
    exact nullifyBalance_sound sound ok

/-! ### Every run -/

/-- Somebody's call succeeds; one that reverts changes nothing. -/
def Registry.Step (governance : Address) (s s' : Registry) : Prop :=
  ∃ o msgSender c, execute governance o msgSender c s = .ok s'

def Registry.Reachable (governance : Address) : Registry → Prop :=
  Relation.ReflTransGen (Step governance) .initial

theorem initial_sound : Registry.initial.Sound where
  resolves _ some := absurd rfl some
  unstaked _ _ _ := rfl
  ledger := by
    have none : Registry.initial.totalBalance = 0 := Finset.sum_eq_zero fun _ _ => rfl
    rw [none]
    rfl

theorem Registry.Reachable.sound (reach : s.Reachable governance) : s.Sound := by
  induction reach with
  | refl => exact initial_sound
  | tail _ stepped ih =>
    obtain ⟨_,msgSender,_,ok⟩ := stepped
    exact (execute_sound ih ok).1

/-- A burn that succeeds in a call of the router's `withdraw` is in its caller's name. -/
theorem routerWithdraw_ok {router caller pool relayer : Address}
    (ok : routerWithdraw governance router o caller pool relayer s = .ok s') :
    execute governance o router (.burn caller relayer pool) s = .ok s' := by
  obtain ⟨_,_,ok⟩ := bind_ok_iff.mp ok
  obtain ⟨burned,ran,ok⟩ := bind_ok_iff.mp ok
  obtain ⟨_,_,ok⟩ := bind_ok_iff.mp ok
  cases ok
  exact ran

/-- What holds in a state and of every call in it. -/
structure Registry.Guarantees (governance : Address) (s : Registry) : Prop where
  resolves : ∀ a m, s.workers a = m → m ≠ zeroAddress → s.workers m = m
  ledger : (∑ a : Address, (s.relayers a).balance.toNat) + s.burned + s.nullified = s.staked
  masters : ∀ o msgSender c s', execute governance o msgSender c s = .ok s' →
    ∀ m, m ≠ zeroAddress → s.workers m = m → s'.workers m = m
  entries : ∀ o msgSender c s', execute governance o msgSender c s = .ok s' →
    ∀ a, s.workers a ≠ zeroAddress → s'.workers a ≠ s.workers a →
      s.workers a ≠ a ∧ s'.workers a = zeroAddress ∧ (msgSender = a ∨ msgSender = s.workers a)
  burns : ∀ o msgSender sender relayer pool s',
    execute governance o msgSender (.burn sender relayer pool) s = .ok s' →
      msgSender = s.tornadoRouter ∧ s.Burns o sender relayer pool s'
  withdrawals : ∀ o router caller pool relayer s',
    routerWithdraw governance router o caller pool relayer s = .ok s' →
      router = s.tornadoRouter ∧ s.Burns o caller relayer pool s'
  underflow : ∀ (o : Outside) msgSender sender relayer pool (fee : Word 20),
    o.instanceFeeWithUpdate pool = .ok fee → s.workers sender ≠ zeroAddress →
    (s.relayers relayer).balance.toNat < fee.toNat →
    ∃ reason, execute governance o msgSender (.burn sender relayer pool) s = .error reason

theorem registry_guarantees (reach : s.Reachable governance) : s.Guarantees governance := by
  have sound := reach.sound
  refine ⟨?_,sound.ledger,?_,?_,?_,?_,?_⟩
  · rintro a m rfl nonzero
    exact sound.resolves a nonzero
  · intro o msgSender c s' ok m nonzero master
    rcases (execute_sound sound ok).2 m (master.symm ▸ nonzero) with
      same | ⟨_,other,_⟩
    · exact same.trans master
    · exact absurd master other
  · intro o msgSender c s' ok a some changed
    rcases (execute_sound sound ok).2 a some with same | cleared
    · exact absurd same changed
    · exact ⟨cleared.2.1,cleared.1,cleared.2.2⟩
  · intro o msgSender sender relayer pool s' ok
    exact burn_ok ok
  · intro o router caller pool relayer s' ok
    exact burn_ok (routerWithdraw_ok ok)
  · intro o msgSender sender relayer pool fee read registered short
    cases ran : execute governance o msgSender (.burn sender relayer pool) s with
    | error reason => exact ⟨reason,rfl⟩
    | ok s' =>
      cases (burn_ok ran).2 with
      | custom unregistered => exact absurd unregistered registered
      | staked toBurn answered _ _ enough =>
        rw [read] at answered
        cases answered
        omega

/-! ### A run -/

def sampleOutside : Outside where
  owner _ := 0xa1
  permit _ _ := true
  transferFrom sender _ := sender ≠ zeroAddress
  transferFromZero _ := rfl
  instanceFeeWithUpdate _ := .ok 3
  addBurnRewards _ := true
  supported _ := true
  withdraw _ := true

/-- A master registers with a worker, and a withdrawal of the worker burns some of its stake. -/
def sampleRun : Except String Registry := do
  let s ← execute 0x90 sampleOutside 0x90 (.setTornadoRouter 0x70) .initial
  let s ← execute 0x90 sampleOutside 0xa1 (.register (ascii "relayer.eth") 10 [0xb2]) s
  routerWithdraw 0x90 0x70 sampleOutside 0xb2 0x12d6 0xa1 s

theorem sampleRun_guarantees : ∃ s, sampleRun = .ok s ∧ s.Guarantees 0x90 := by
  obtain ⟨s,ran⟩ : ∃ s, sampleRun = .ok s := ⟨_,rfl⟩
  obtain ⟨s₁,first,rest⟩ := bind_ok_iff.mp ran
  obtain ⟨s₂,second,third⟩ := bind_ok_iff.mp rest
  have reach : s₂.Reachable 0x90 :=
    (Relation.ReflTransGen.refl.tail ⟨_,_,_,first⟩).tail ⟨_,_,_,second⟩
  exact ⟨s,ran,registry_guarantees (reach.tail ⟨_,_,_,routerWithdraw_ok third⟩)⟩

end TornadoRelayer.RelayerRegistry
