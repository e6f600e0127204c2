import TornadoRelayer.Dao

/-! The sandbox DAO over its runs: what one call can change, the runs of each registry by
itself, and the books, in which every TORN that was staked, given, claimed or withdrawn is
accounted for. -/
namespace TornadoRelayer.Dao

open BigEndian RelayerRegistry
open InstanceRegistry (FeeManager calculatePoolFee updateFee updateFees updateAllFees)

variable {T : Torn} {d : Deployment} {o : Outside} {msgSender pool : Address} {s s' : State T}

theorem checkedAdd_ok {a c : Word 32} {b : Nat} (ok : checkedAdd a b = .ok c) :
    c.toNat = a.toNat + b := by
  obtain ⟨_,fits,ok⟩ := bind_ok_iff.mp ok
  cases ok
  rw [require_ok_iff] at fits
  simp [BitVec.toNat_add]
  omega

/-! ### What each contract changes -/

/-- Prices stay, and each fee stays or is computed now. -/
structure Refreshes (d : Deployment) (s : State T) (fees : FeeManager) : Prop where
  prices : fees.tornPerAsset = s.fees.tornPerAsset
  entry : ∀ pool, (fees.instanceFeeUpdated pool = s.fees.instanceFeeUpdated pool ∧
      fees.instanceFee pool = s.fees.instanceFee pool) ∨
    (fees.instanceFeeUpdated pool = s.timestamp ∧
      ∃ o, calculatePoolFee (d.pools o) s.instances s.fees pool = .ok (fees.instanceFee pool))

theorem Refreshes.same : Refreshes d s s.fees := ⟨rfl,fun _ => .inl ⟨rfl,rfl⟩⟩

/-- A fee depends on nothing of the fee manager but its prices. -/
theorem calculatePoolFee_prices {o : InstanceRegistry.Outside} {registry : InstanceRegistry.Registry}
    {m m' : FeeManager} (same : m.tornPerAsset = m'.tornPerAsset) (pool : Address) :
    calculatePoolFee o registry m pool = calculatePoolFee o registry m' pool := by
  simp only [calculatePoolFee,same]

theorem updateFee_ok {fees fees' : FeeManager}
    (ok : updateFee (d.pools o) s.instances s.timestamp fees pool = .ok fees') :
    ∃ fee, calculatePoolFee (d.pools o) s.instances fees pool = .ok fee ∧
      fees'.tornPerAsset = fees.tornPerAsset ∧
      fees'.instanceFee = Function.update fees.instanceFee pool fee ∧
      fees'.instanceFeeUpdated = Function.update fees.instanceFeeUpdated pool s.timestamp := by
  obtain ⟨fee,computed,ok⟩ := bind_ok_iff.mp ok
  cases ok
  exact ⟨fee,computed,rfl,rfl,rfl⟩

theorem Refreshes.updateFee {fees fees' : FeeManager} (before : Refreshes d s fees)
    (ok : updateFee (d.pools o) s.instances s.timestamp fees pool = .ok fees') :
    Refreshes d s fees' := by
  obtain ⟨fee,computed,prices,value,written⟩ := updateFee_ok ok
  constructor
  · exact prices.trans before.prices
  · intro other
    rw [value,written]
    by_cases own : other = pool
    · subst own
      right
      rw [calculatePoolFee_prices before.prices] at computed
      simpa using ⟨o,computed⟩
    · simpa [own] using before.entry other

theorem Refreshes.updateFees {pools : List Address} {fees fees' : FeeManager}
    (before : Refreshes d s fees)
    (ok : updateFees (d.pools o) s.instances s.timestamp pools fees = .ok fees') :
    Refreshes d s fees' := by
  induction pools generalizing fees with
  | nil =>
    cases ok
    exact before
  | cons pool rest ih =>
    obtain ⟨next,first,later⟩ := bind_ok_iff.mp ok
    exact ih (before.updateFee first) later

/-- What is read is the entry left behind, which is young enough. -/
theorem instanceFeeWithUpdate_ok {fee : Word 20}
    (ok : s.instanceFeeWithUpdate d o pool = .ok (fee,s')) :
    ∃ fees, s' = { s with fees } ∧ Refreshes d s fees ∧ fee = fees.instanceFee pool ∧
      s.timestamp.toNat ≤ (fees.instanceFeeUpdated pool).toNat + s.updateFeeTimeLimit.toNat := by
  obtain ⟨_,_,ok⟩ := bind_ok_iff.mp ok
  split at ok
  · obtain ⟨next,refreshed,ok⟩ := bind_ok_iff.mp ok
    cases ok
    obtain ⟨fees,updated,refreshed⟩ := bind_ok_iff.mp refreshed
    cases refreshed
    obtain ⟨_,_,_,_,written⟩ := updateFee_ok updated
    refine ⟨fees,rfl,Refreshes.same.updateFee updated,rfl,?_⟩
    simp [written]
  · cases ok
    exact ⟨s.fees,rfl,.same,rfl,by omega⟩

theorem addBurnRewards_ok {amount : Nat} (ok : addBurnRewards d msgSender amount s = .ok s') :
    ∃ staking : StakingRewards, s' = { s with staking } ∧
      staking.totalBurnRewards.toNat = s.staking.totalBurnRewards.toNat + amount ∧
      staking.accumulatedRewards = s.staking.accumulatedRewards := by
  obtain ⟨_,_,ok⟩ := bind_ok_iff.mp ok
  obtain ⟨total,added,ok⟩ := bind_ok_iff.mp ok
  simp only at ok
  split at ok
  · obtain ⟨_,_,ok⟩ := bind_ok_iff.mp ok
    obtain ⟨_,_,ok⟩ := bind_ok_iff.mp ok
    cases ok
    exact ⟨_,rfl,checkedAdd_ok added,rfl⟩
  · cases ok
    exact ⟨_,rfl,checkedAdd_ok added,rfl⟩

/-! ### Calls of the registry -/

theorem registerWorkers_totals {relayer : Address} {workers : List Address} {r r' : Registry}
    (ok : workers.foldlM (_registerWorker relayer) r = .ok r') :
    r'.staked = r.staked ∧ r'.burned = r.burned := by
  induction workers generalizing r with
  | nil =>
    cases ok
    exact ⟨rfl,rfl⟩
  | cons worker rest ih =>
    rw [List.foldlM_cons] at ok
    obtain ⟨next,first,later⟩ := bind_ok_iff.mp ok
    obtain ⟨_,rfl⟩ := registerWorker_ok first
    have kept := ih later
    exact kept

theorem register_totals {answers : RelayerRegistry.Outside} {relayer : Address} {ensName : Bytes}
    {stake : Word 32} {workers : List Address} {r r' : Registry}
    (ok : _register answers relayer ensName stake workers r = .ok r') :
    answers.transferFrom relayer stake ∧ r'.staked = r.staked + stake.toNat ∧
      r'.burned = r.burned := by
  obtain ⟨_,_,ok⟩ := bind_ok_iff.mp ok
  obtain ⟨_,_,ok⟩ := bind_ok_iff.mp ok
  obtain ⟨_,_,ok⟩ := bind_ok_iff.mp ok
  obtain ⟨_,_,ok⟩ := bind_ok_iff.mp ok
  obtain ⟨_,moved,ok⟩ := bind_ok_iff.mp ok
  exact ⟨require_ok_iff.mp moved,registerWorkers_totals ok⟩

theorem stakeToRelayer_totals {answers : RelayerRegistry.Outside} {staker relayer : Address}
    {stake : Word 32} {r r' : Registry} (ok : _stakeToRelayer answers staker relayer stake r = .ok r') :
    answers.transferFrom staker stake ∧ r'.staked = r.staked + stake.toNat ∧
      r'.burned = r.burned := by
  obtain ⟨_,_,ok⟩ := bind_ok_iff.mp ok
  obtain ⟨_,moved,ok⟩ := bind_ok_iff.mp ok
  obtain ⟨_,_,ok⟩ := bind_ok_iff.mp ok
  cases ok
  exact ⟨require_ok_iff.mp moved,rfl,rfl⟩

/-- What a call of the registry comes to in the other contracts. -/
inductive Calls (d : Deployment) (s : State T) (registry : Registry) : State T → Prop where
  | alone : registry.staked = s.registry.staked → registry.burned = s.registry.burned →
    Calls d s registry { s with registry }
  | stake {payer : Address} {stake : Nat} {torn : T.Book} : payer ≠ d.staking →
    T.transfer payer d.staking stake s.torn = .ok torn →
    registry.staked = s.registry.staked + stake → registry.burned = s.registry.burned →
    Calls d s registry { s with registry, torn }
  | burn {fees : FeeManager} {staking : StakingRewards} {toBurn : Nat} : Refreshes d s fees →
    staking.totalBurnRewards.toNat = s.staking.totalBurnRewards.toNat + toBurn →
    staking.accumulatedRewards = s.staking.accumulatedRewards →
    registry.staked = s.registry.staked → registry.burned = s.registry.burned + toBurn →
    Calls d s registry { s with registry, fees, staking }

theorem Calls.of_stake {payer : Address} {stake : Word 32} {registry : Registry} {next : State T}
    (moved : (s.answers d o).transferFrom payer stake)
    (staked : registry.staked = s.registry.staked + stake.toNat)
    (burned : registry.burned = s.registry.burned) (ran : s.staked d payer stake = .ok next) :
    Calls d s registry { next with registry } := by
  simp only [State.answers,Bool.and_eq_true,decide_eq_true_eq] at moved
  obtain ⟨torn,sent,ran⟩ := bind_ok_iff.mp ran
  cases ran
  exact .stake moved.1.1 sent staked burned

/-- A registered sender's burn: the fee that is read is the one the registry burns. -/
theorem burned_ok {sender relayer : Address} {registry : Registry} {next : State T}
    (burns : s.registry.Burns (s.answers d o) sender relayer pool registry)
    (ran : s.burned d o sender pool = .ok next) :
    (s.registry.workers sender = zeroAddress ∧ registry = s.registry ∧ next = s) ∨
    ∃ (fees : FeeManager) (staking : StakingRewards), next = { s with fees, staking } ∧
      Refreshes d s fees ∧
      s.timestamp.toNat ≤ (fees.instanceFeeUpdated pool).toNat + s.updateFeeTimeLimit.toNat ∧
      (s.answers d o).instanceFeeWithUpdate pool = .ok (fees.instanceFee pool) ∧
      staking.totalBurnRewards.toNat =
        s.staking.totalBurnRewards.toNat + (fees.instanceFee pool).toNat ∧
      staking.accumulatedRewards = s.staking.accumulatedRewards ∧
      s.registry.workers sender = relayer ∧ relayer ≠ zeroAddress := by
  rw [State.burned] at ran
  cases burns with
  | custom unregistered =>
    rw [if_pos unregistered] at ran
    cases ran
    exact .inl ⟨unregistered,rfl,rfl⟩
  | staked toBurn _ nonzero master =>
    rw [if_neg (master ▸ nonzero)] at ran
    obtain ⟨⟨fee,next⟩,read,ran⟩ := bind_ok_iff.mp ran
    obtain ⟨fees,rfl,refreshes,rfl,young⟩ := instanceFeeWithUpdate_ok read
    obtain ⟨staking,rfl,total,rewards⟩ := addBurnRewards_ok ran
    right
    refine ⟨fees,staking,rfl,refreshes,young,?_,total,rewards,master,nonzero⟩
    simp [State.answers,read,Except.map]

theorem callRegistry_ok {c : RelayerRegistry.Call} (ok : callRegistry d o msgSender c s = .ok s') :
    RelayerRegistry.execute d.governance (s.answers d o) msgSender c s.registry = .ok s'.registry ∧
      Calls d s s'.registry s' := by
  obtain ⟨registry,executed,ok⟩ := bind_ok_iff.mp ok
  obtain ⟨next,ran,ok⟩ := bind_ok_iff.mp ok
  cases ok
  refine ⟨executed,?_⟩
  cases c with
  | register ensName stake workers =>
    obtain ⟨moved,staked,burned⟩ := register_totals executed
    exact .of_stake moved staked burned ran
  | registerPermit ensName stake workers relayer =>
    obtain ⟨_,_,executed⟩ := bind_ok_iff.mp executed
    obtain ⟨moved,staked,burned⟩ := register_totals executed
    exact .of_stake moved staked burned ran
  | stakeToRelayer relayer stake =>
    obtain ⟨moved,staked,burned⟩ := stakeToRelayer_totals executed
    exact .of_stake moved staked burned ran
  | stakeToRelayerPermit relayer stake staker =>
    obtain ⟨_,_,executed⟩ := bind_ok_iff.mp executed
    obtain ⟨moved,staked,burned⟩ := stakeToRelayer_totals executed
    exact .of_stake moved staked burned ran
  | burn sender relayer pool =>
    obtain ⟨_,burns⟩ := burn_ok executed
    rcases burned_ok burns ran with ⟨_,rfl,rfl⟩ | ⟨fees,staking,rfl,refreshes,_,read,total,rewards,same,some⟩
    · exact .alone rfl rfl
    · cases burns with
      | custom unregistered => exact absurd (same.symm.trans unregistered) some
      | staked toBurn fee =>
        cases fee.symm.trans read
        exact .burn refreshes total rewards rfl rfl
  | registerWorker relayer worker =>
    cases ran
    obtain ⟨_,_,executed⟩ := bind_ok_iff.mp executed
    obtain ⟨_,linked⟩ := registerWorker_ok executed
    exact .alone (by rw [linked]) (by rw [linked])
  | unregisterWorker worker =>
    cases ran
    obtain ⟨_,_,executed⟩ := bind_ok_iff.mp executed
    obtain ⟨_,_,executed⟩ := bind_ok_iff.mp executed
    cases executed
    exact .alone rfl rfl
  | nullifyBalance relayer =>
    cases ran
    obtain ⟨_,_,executed⟩ := bind_ok_iff.mp executed
    obtain ⟨_,_,executed⟩ := bind_ok_iff.mp executed
    cases executed
    exact .alone rfl rfl
  | setMinStakeAmount minAmount =>
    cases ran
    obtain ⟨_,_,executed⟩ := bind_ok_iff.mp executed
    cases executed
    exact .alone rfl rfl
  | setTornadoRouter tornadoRouterAddress =>
    cases ran
    obtain ⟨_,_,executed⟩ := bind_ok_iff.mp executed
    cases executed
    exact .alone rfl rfl

theorem withdraw_ok {relayer : Address} (ok : withdraw d o msgSender pool relayer s = .ok s') :
    (s.instances.instances pool).state ≠ .DISABLED ∧ o.withdraw pool ∧
      callRegistry d o d.router (.burn msgSender relayer pool) s = .ok s' := by
  obtain ⟨_,supported,ok⟩ := bind_ok_iff.mp ok
  obtain ⟨next,burned,ok⟩ := bind_ok_iff.mp ok
  obtain ⟨_,withdrawn,ok⟩ := bind_ok_iff.mp ok
  cases ok
  exact ⟨require_ok_iff.mp supported,require_ok_iff.mp withdrawn,burned⟩

/-! ### One call -/

/-- All that a call can change. -/
inductive Effect (d : Deployment) (s : State T) : State T → Prop where
  | registry {s' : State T} : s.registry.Step d.governance s'.registry → Calls d s s'.registry s' →
    Effect d s s'
  | instances {instances : InstanceRegistry.Registry} : s.instances.Step d.governance instances →
    Effect d s { s with instances }
  | fees {fees : FeeManager} : Refreshes d s fees → Effect d s { s with fees }
  | prices (tornPerAsset : Address → Word 32) :
    Effect d s { s with fees := { s.fees with tornPerAsset } }
  | limit (updateFeeTimeLimit : Word 3) : Effect d s { s with updateFeeTimeLimit }
  | staking {staking : StakingRewards} (added : Nat) :
    staking.accumulatedRewards = s.staking.accumulatedRewards →
    staking.totalBurnRewards.toNat = s.staking.totalBurnRewards.toNat + added →
    Effect d s { s with staking, tally := { s.tally with added := s.tally.added + added } }
  | set (account : Address) (amount : Word 32) : Effect d s (setReward account amount s)
  | claim {account : Address} {rewards : Nat} {torn : T.Book} {staking : StakingRewards} :
    account ≠ d.staking → (s.staking.accumulatedRewards account).toNat = rewards →
    T.transfer d.staking account rewards s.torn = .ok torn →
    staking.accumulatedRewards = Function.update s.staking.accumulatedRewards account 0 →
    staking.totalBurnRewards = s.staking.totalBurnRewards →
    Effect d s { s with torn, staking, tally := s.tally.claim account rewards }
  | withdrawn {amount : Nat} {torn : T.Book} :
    T.transfer d.staking d.governance amount s.torn = .ok torn →
    Effect d s { s with torn, tally := { s.tally with withdrawn := s.tally.withdrawn + amount } }
  | given {torn : T.Book} : T.balanceOf s.torn d.staking ≤ T.balanceOf torn d.staking →
    Effect d s (s.give d torn)
  | time {timestamp : Word 32} : s.timestamp.toNat ≤ timestamp.toNat →
    Effect d s { s with timestamp }

theorem Effect.rewards {staking : StakingRewards}
    (rewards : staking.accumulatedRewards = s.staking.accumulatedRewards)
    (total : staking.totalBurnRewards = s.staking.totalBurnRewards) :
    Effect d s { s with staking } :=
  .staking 0 rewards (by rw [total,Nat.add_zero])

theorem getReward_effect (apart : msgSender ≠ d.staking) (ok : getReward d msgSender s = .ok s') :
    Effect d s s' := by
  rw [getReward] at ok
  split at ok
  · obtain ⟨torn,sent,ok⟩ := bind_ok_iff.mp ok
    cases ok
    exact .claim apart rfl sent rfl rfl
  · cases ok
    exact .rewards rfl rfl

theorem rescueTokens_effect {token recipient : Address} {amount : Word 32}
    (ok : rescueTokens d token recipient amount s = .ok s') : Effect d s s' := by
  obtain ⟨_,_,ok⟩ := bind_ok_iff.mp ok
  split at ok
  · obtain ⟨_,_,ok⟩ := bind_ok_iff.mp ok
    obtain ⟨torn,sent,ok⟩ := bind_ok_iff.mp ok
    cases ok
    apply Effect.given
    rw [(T.moves sent).2]
    exact Ledger.move_le d.router_apart.symm
  · cases ok
    exact .rewards rfl rfl

theorem execute_effect {c : Call T} (outside : d.Outsider msgSender)
    (ok : execute d o msgSender c s = .ok s') : Effect d s s' := by
  cases c with
  | registry c =>
    obtain ⟨executed,calls⟩ := callRegistry_ok ok
    exact .registry ⟨_,_,_,executed⟩ calls
  | withdraw pool relayer =>
    obtain ⟨executed,calls⟩ := callRegistry_ok (withdraw_ok ok).2.2
    exact .registry ⟨_,_,_,executed⟩ calls
  | instances c =>
    obtain ⟨instances,executed,ok⟩ := bind_ok_iff.mp ok
    cases ok
    exact .instances ⟨_,_,_,executed⟩
  | updateFee pool =>
    obtain ⟨fees,updated,ok⟩ := bind_ok_iff.mp ok
    cases ok
    exact .fees (Refreshes.same.updateFee updated)
  | updateFees pools =>
    obtain ⟨fees,updated,ok⟩ := bind_ok_iff.mp ok
    cases ok
    exact .fees (Refreshes.same.updateFees updated)
  | updateAllFees =>
    obtain ⟨fees,updated,ok⟩ := bind_ok_iff.mp ok
    cases ok
    exact .fees (Refreshes.same.updateFees updated)
  | instanceFeeWithUpdate pool =>
    obtain ⟨⟨fee,next⟩,read,ok⟩ := bind_ok_iff.mp ok
    cases ok
    obtain ⟨fees,rfl,refreshes,_⟩ := instanceFeeWithUpdate_ok read
    exact .fees refreshes
  | setTornPerAsset asset tornPerAsset =>
    obtain ⟨_,_,ok⟩ := bind_ok_iff.mp ok
    cases ok
    exact .prices _
  | setUpdateFeeTimeLimit newLimit =>
    obtain ⟨_,_,ok⟩ := bind_ok_iff.mp ok
    cases ok
    exact .limit _
  | setRelayerRegistry relayerRegistry =>
    obtain ⟨_,_,ok⟩ := bind_ok_iff.mp ok
    obtain ⟨_,_,ok⟩ := bind_ok_iff.mp ok
    cases ok
    exact .rewards rfl rfl
  | getReward =>
    apply getReward_effect _ ok
    rintro rfl
    exact outside (by simp)
  | addBurnRewards amount =>
    obtain ⟨next,added,ok⟩ := bind_ok_iff.mp ok
    cases ok
    obtain ⟨staking,rfl,total,rewards⟩ := addBurnRewards_ok added
    exact .staking amount.toNat rewards total
  | updateRewardsOnLockedBalanceChange account =>
    obtain ⟨_,_,ok⟩ := bind_ok_iff.mp ok
    cases ok
    exact .rewards rfl rfl
  | setReward account amount =>
    obtain ⟨_,_,ok⟩ := bind_ok_iff.mp ok
    cases ok
    exact .set account amount
  | withdrawTorn amount =>
    obtain ⟨_,_,ok⟩ := bind_ok_iff.mp ok
    obtain ⟨torn,sent,ok⟩ := bind_ok_iff.mp ok
    cases ok
    exact .withdrawn sent
  | rescueTokens token recipient amount =>
    obtain ⟨_,_,ok⟩ := bind_ok_iff.mp ok
    exact rescueTokens_effect ok
  | torn c =>
    obtain ⟨_,apart,ok⟩ := bind_ok_iff.mp ok
    obtain ⟨torn,called,ok⟩ := bind_ok_iff.mp ok
    cases ok
    exact .given (T.spares called (require_ok_iff.mp apart))
  | wait seconds =>
    obtain ⟨_,fits,ok⟩ := bind_ok_iff.mp ok
    cases ok
    rw [require_ok_iff] at fits
    apply Effect.time
    simp [BitVec.toNat_add]
    omega

theorem Step.effect (stepped : Step d s s') : Effect d s s' := by
  obtain ⟨o,msgSender,c,outside,ok⟩ := stepped
  exact execute_effect outside ok

/-! ### The registries by themselves -/

theorem Calls.instances {registry : Registry} (calls : Calls d s registry s') :
    s'.instances = s.instances := by
  cases calls <;> rfl

theorem Effect.registry_step (effect : Effect d s s') :
    Relation.ReflTransGen (Registry.Step d.governance) s.registry s'.registry := by
  cases effect with
  | registry stepped => exact .single stepped
  | _ => exact .refl

theorem Effect.instances_step (effect : Effect d s s') :
    Relation.ReflTransGen (InstanceRegistry.Registry.Step d.governance) s.instances s'.instances := by
  cases effect with
  | registry _ calls =>
    rw [calls.instances]
  | instances stepped => exact .single stepped
  | _ => exact .refl

/-- A run of the DAO is, for the relayer registry alone, a run among contracts that answer
as they like. -/
theorem Run.registry (run : Run d s s') :
    Relation.ReflTransGen (Registry.Step d.governance) s.registry s'.registry :=
  Relation.ReflTransGen.lift' State.registry (fun _ _ stepped => Step.effect stepped |>.registry_step) _ _ run

theorem Run.instances (run : Run d s s') :
    Relation.ReflTransGen (InstanceRegistry.Registry.Step d.governance) s.instances s'.instances :=
  Relation.ReflTransGen.lift' State.instances (fun _ _ stepped => Step.effect stepped |>.instances_step) _ _ run

/-! ### The books -/

/-- The staking contract holds what came in less what went out, it has been told of every burn,
and nobody claims more than was set. -/
structure State.Books (d : Deployment) (s : State T) : Prop where
  funds : T.balanceOf s.torn d.staking + Ledger.total s.tally.claimed + s.tally.withdrawn =
    s.registry.staked + s.tally.given
  burns : s.staking.totalBurnRewards.toNat = s.registry.burned + s.tally.added
  rewards : ∀ a, s.tally.claimed a + (s.staking.accumulatedRewards a).toNat ≤ s.tally.set a

theorem Torn.transfer_received {torn torn' : T.Book} {payer payee : Address} {amount : Nat}
    (ok : T.transfer payer payee amount torn = .ok torn') (apart : payee ≠ payer) :
    T.balanceOf torn' payee = T.balanceOf torn payee + amount := by
  rw [(T.moves ok).2]
  exact Ledger.move_payee apart

theorem Torn.transfer_paid {torn torn' : T.Book} {payer payee : Address} {amount : Nat}
    (ok : T.transfer payer payee amount torn = .ok torn') (apart : payee ≠ payer) :
    T.balanceOf torn' payer + amount = T.balanceOf torn payer := by
  obtain ⟨enough,moved⟩ := T.moves ok
  rw [moved,Ledger.move_payer apart]
  omega

theorem Calls.books {registry : Registry} (books : s.Books d) (calls : Calls d s registry s') :
    s'.Books d := by
  have funds := books.funds
  have burns := books.burns
  cases calls with
  | alone staked burned =>
    constructor
    · simpa [staked] using funds
    · simpa [burned] using burns
    · exact books.rewards
  | stake apart sent staked burned =>
    have received := Torn.transfer_received sent apart.symm
    constructor
    · simp only [received,staked]
      omega
    · simpa [burned] using burns
    · exact books.rewards
  | burn _ total rewards staked burned =>
    constructor
    · simpa [staked] using funds
    · simp only [total,burned]
      omega
    · simpa [rewards] using books.rewards

theorem Effect.books (books : s.Books d) (effect : Effect d s s') : s'.Books d := by
  have funds := books.funds
  have burns := books.burns
  cases effect with
  | registry _ calls => exact calls.books books
  | instances | fees | prices | limit | time => exact ⟨funds,burns,books.rewards⟩
  | staking added rewards total =>
    refine ⟨funds,?_,?_⟩
    · simp only [total]
      omega
    · simpa [rewards] using books.rewards
  | set account amount =>
    refine ⟨funds,burns,fun a => ?_⟩
    have before := books.rewards a
    by_cases own : a = account
    · subst own
      simp [setReward]
      omega
    · simpa [setReward,own] using before
  | @claim account rewards torn staking apart read sent zeroed total =>
    have left := Torn.transfer_paid sent apart
    have claimed := Ledger.total_update s.tally.claimed account (s.tally.claimed account + rewards)
    refine ⟨?_,?_,fun a => ?_⟩
    · simp only [Tally.claim]
      omega
    · simpa [total,Tally.claim] using burns
    · have before := books.rewards a
      simp only [Tally.claim,zeroed]
      by_cases own : a = account
      · subst own
        simpa [read] using before
      · simpa [own] using before
  | withdrawn sent =>
    have left := Torn.transfer_paid sent (fun same => d.governance_apart (by simp [same]))
    refine ⟨?_,burns,books.rewards⟩
    simp only
    omega
  | given more =>
    refine ⟨?_,burns,books.rewards⟩
    simp only [State.give]
    omega

theorem initial_books (timestamp : Word 32) (updateFeeTimeLimit : Word 3) (torn : T.Book) :
    (State.initial d timestamp updateFeeTimeLimit torn).Books d where
  funds := by simp [State.initial,Ledger.total,Registry.initial]
  burns := rfl
  rewards _ := le_rfl

theorem Run.books (books : s.Books d) (run : Run d s s') : s'.Books d := by
  induction run with
  | refl => exact books
  | tail _ stepped ih => exact stepped.effect.books ih

/-! ### Every run -/

/-- What holds in a state of the DAO: its books, the registry's own, and that the stakes are
backed exactly as long as no more has left the staking contract than was burned, nullified
or given to it. -/
structure State.Accounted (d : Deployment) (s : State T) : Prop extends s.Books d where
  ledger : s.registry.totalBalance + s.registry.burned + s.registry.nullified = s.registry.staked
  payouts : Ledger.total s.tally.claimed ≤ Ledger.total s.tally.set
  backed : s.registry.totalBalance ≤ T.balanceOf s.torn d.staking ↔
    Ledger.total s.tally.claimed + s.tally.withdrawn ≤
      s.tally.given + s.registry.burned + s.registry.nullified

theorem stakes_backed {timestamp : Word 32} {updateFeeTimeLimit : Word 3} {torn : T.Book}
    (run : Run d (.initial d timestamp updateFeeTimeLimit torn) s) : s.Accounted d := by
  have books := Run.books (initial_books timestamp updateFeeTimeLimit torn) run
  have ledger := (show s.registry.Reachable d.governance from run.registry).sound.ledger
  have funds := books.funds
  refine ⟨books,ledger,?_,?_⟩
  · apply Ledger.total_le
    intro a
    exact Nat.le_of_add_right_le (books.rewards a)
  · omega

/-! ### A run -/

def play (d : Deployment) (o : Outside) : List (Address × Call T) → State T → Except String (State T)
  | [], s => .ok s
  | (msgSender,c) :: rest, s => do
    let s ← execute d o msgSender c s
    play d o rest s

theorem Run.of_play {calls : List (Address × Call T)} (outside : ∀ c ∈ calls, d.Outsider c.1)
    (ran : play d o calls s = .ok s') : Run d s s' := by
  induction calls generalizing s with
  | nil =>
    cases ran
    exact .refl
  | cons c rest ih =>
    obtain ⟨next,first,later⟩ := bind_ok_iff.mp ran
    have stepped : Step d s next := ⟨o,c.1,c.2,outside c (by simp),first⟩
    exact .head stepped (ih (fun c' member => outside c' (by simp [member])) later)

def sampleDeployment : Deployment where
  governance := 0x90
  torn := 0x77
  staking := 0x50
  relayerRegistry := 0x5e
  router := 0x70
  ratioConstant := 10 ^ 25
  denomination _ := .ok (10 ^ 17)
  governance_apart := by decide
  router_apart := by decide

def sampleOutside : Outside where
  owner _ := 0xa1
  permit _ _ := true
  allowed _ _ := true
  token _ := .ok 0x78
  allowance _ _ _ := .ok 0
  approveExactToken _ _ _ _ := true
  withdraw _ := true

/-- Balances that their holders move. -/
def sampleTorn : Torn where
  Book := Address → Nat
  balanceOf book := book
  transfer payer payee amount book := do
    require (payer ≠ zeroAddress) "ERC20InvalidSender"
    require (payee ≠ zeroAddress) "ERC20InvalidReceiver"
    require (amount ≤ book payer) "ERC20InsufficientBalance"
    return Ledger.move book payer payee amount
  Call := Address × Nat
  call msgSender c book := do
    require (c.2 ≤ book msgSender) "ERC20InsufficientBalance"
    return Ledger.move book msgSender c.1 c.2
  payers msgSender _ := [msgSender]
  fromZero payee amount book := by simp [require,bind,Except.bind,Except.toBool]
  moves sent := by
    obtain ⟨_,_,sent⟩ := bind_ok_iff.mp sent
    obtain ⟨_,_,sent⟩ := bind_ok_iff.mp sent
    obtain ⟨_,enough,sent⟩ := bind_ok_iff.mp sent
    cases sent
    exact ⟨require_ok_iff.mp enough,rfl⟩
  spares called other := by
    obtain ⟨_,_,called⟩ := bind_ok_iff.mp called
    cases called
    exact Ledger.move_le (by simpa using other)

/-- A pool is listed and priced, and a master registers with its stake and a worker. -/
def sampleSetup : List (Address × Call sampleTorn) := [
  (0x90, .registry (.setTornadoRouter 0x70)),
  (0x90, .instances (.updateInstance ⟨0x12d6, ⟨false, zeroAddress, .ENABLED, 0, 30⟩⟩)),
  (0x90, .setTornPerAsset zeroAddress (379 * 10 ^ 18)),
  (0x90, .setRelayerRegistry 0x5e),
  (0x90, .torn (0xa1, 5000 * 10 ^ 18)),
  (0xa1, .registry (.register (ascii "relayer.eth") (5000 * 10 ^ 18) [0xb2]))]

/-- The worker withdraws, a staker claims a reward that governance has set, and governance sends
the staking contract some TORN. -/
def sampleCalls : List (Address × Call sampleTorn) := sampleSetup ++ [
  (0xb2, .withdraw 0x12d6 0xa1),
  (0x90, .setReward 0xcc 5),
  (0xcc, .getReward),
  (0x90, .withdrawTorn 7),
  (0x90, .torn (0x50, 100))]

def sampleStart : State sampleTorn :=
  .initial sampleDeployment 1700000000 172800 (Function.update (fun _ => 0) 0x90 (10 ^ 25))

theorem stakes_backed_sample : ∃ s, play sampleDeployment sampleOutside sampleCalls sampleStart = .ok s ∧
    s.Accounted sampleDeployment := by
  have returns : (play sampleDeployment sampleOutside sampleCalls sampleStart).toBool = true := by
    decide +kernel
  obtain ⟨s,ran⟩ := ok_of_toBool returns
  have run : Run sampleDeployment sampleStart s := .of_play (by decide) ran
  exact ⟨s,ran,stakes_backed run⟩

end TornadoRelayer.Dao
