import TornadoRelayer.DaoRuns
import TornadoRelayer.TimedCache

/-! What the sandbox DAO charges for a withdrawal: a fee the formula gave recently in the
run, of which the fee manager keeps a timed cache. -/
namespace TornadoRelayer.Dao

open BigEndian RelayerRegistry
open InstanceRegistry (FeeManager calculatePoolFee)

variable {T : Torn} {d : Deployment} {o : Outside} {msgSender pool : Address} {s s' : State T}

/-! ### The fees as a cache -/

def feeCache (d : Deployment) : TimedCache.Cache (State T) Address (Word 20) where
  clock s := s.timestamp.toNat
  value s pool := s.fees.instanceFee pool
  written s pool := (s.fees.instanceFeeUpdated pool).toNat
  computes s pool fee := ∃ o, calculatePoolFee (d.pools o) s.instances s.fees pool = .ok fee

theorem Refreshes.writes {fees : FeeManager} (refreshes : Refreshes d s fees)
    (same : s'.fees = fees) (pool : Address) :
    ((feeCache d).written s' pool = (feeCache d).written s pool ∧
      (feeCache d).value s' pool = (feeCache d).value s pool) ∨ (feeCache d).Writes s s' pool := by
  subst same
  rcases refreshes.entry pool with ⟨time,fee⟩ | ⟨time,computed⟩
  · exact .inl ⟨congrArg BitVec.toNat time,fee⟩
  · exact .inr ⟨congrArg BitVec.toNat time,computed⟩

theorem Calls.fees {registry : Registry} (calls : Calls d s registry s') :
    Refreshes d s s'.fees ∧ s'.timestamp = s.timestamp := by
  cases calls with
  | burn refreshes => exact ⟨refreshes,rfl⟩
  | alone | stake => exact ⟨.same,rfl⟩

theorem feeCache_keeps (d : Deployment) : (feeCache d).Keeps (Step d : State T → State T → Prop) where
  clock stepped := by
    cases stepped.effect with
    | registry _ calls => exact (congrArg BitVec.toNat calls.fees.2).ge
    | time later => exact later
    | _ => exact le_rfl
  entry pool stepped := by
    cases stepped.effect with
    | registry _ calls => exact calls.fees.1.writes rfl pool
    | fees refreshes => exact refreshes.writes rfl pool
    | _ => exact .inl ⟨rfl,rfl⟩

/-! ### Routed withdrawals -/

/-- The protocol's share of the pool's denomination, in TORN at the price of its asset: what
160 bits hold of it. -/
def PoolFee (d : Deployment) (s : State T) (pool : Address) (fee : Word 20) : Prop :=
  let entry := s.instances.instances pool
  let price := s.fees.tornPerAsset (if entry.isERC20 then entry.token else zeroAddress)
  (entry.protocolFeePercentage = 0 ∧ fee = 0) ∨
  (price ≠ 0 ∧ ∃ denomination, d.denomination pool = .ok denomination ∧ fee.toNat =
    denomination.toNat * entry.protocolFeePercentage.toNat / 10000 * price.toNat / 10 ^ 18 % 2 ^ 160)

theorem checkedMul_ok {a b c : Nat} (ok : InstanceRegistry.checkedMul a b = .ok c) : c = a * b := by
  obtain ⟨_,_,ok⟩ := bind_ok_iff.mp ok
  cases ok
  rfl

theorem calculatePoolFee_ok {fee : Word 20}
    (ok : calculatePoolFee (d.pools o) s.instances s.fees pool = .ok fee) : PoolFee d s pool fee := by
  rw [calculatePoolFee] at ok
  split at ok
  · next free =>
    cases ok
    exact .inl ⟨free,rfl⟩
  · obtain ⟨_,priced,ok⟩ := bind_ok_iff.mp ok
    obtain ⟨denomination,read,ok⟩ := bind_ok_iff.mp ok
    obtain ⟨scaled,first,ok⟩ := bind_ok_iff.mp ok
    obtain ⟨valued,second,ok⟩ := bind_ok_iff.mp ok
    cases ok
    rw [checkedMul_ok second,checkedMul_ok first]
    right
    refine ⟨require_ok_iff.mp priced,denomination,read,?_⟩
    simp [InstanceRegistry.PROTOCOL_FEE_DIVIDER]

/-- A fee read now was computed in a state of the run that is no older than the limit. -/
theorem Refreshes.recent {fees : FeeManager} {timestamp : Word 32}
    {updateFeeTimeLimit : Word 3} {torn : T.Book} (genesis : 2 ^ 24 ≤ timestamp.toNat)
    (run : Run d (.initial d timestamp updateFeeTimeLimit torn) s)
    (refreshes : Refreshes d s fees)
    (young : s.timestamp.toNat ≤ (fees.instanceFeeUpdated pool).toNat + s.updateFeeTimeLimit.toNat) :
    ∃ e, Run d (.initial d timestamp updateFeeTimeLimit torn) e ∧ Run d e s ∧
      s.timestamp.toNat ≤ e.timestamp.toNat + s.updateFeeTimeLimit.toNat ∧
      PoolFee d e pool (fees.instanceFee pool) := by
  rcases refreshes.entry pool with ⟨same,fee⟩ | ⟨_,o,computed⟩
  · have small := s.updateFeeTimeLimit.isLt
    have old : (feeCache d).written (.initial d timestamp updateFeeTimeLimit torn) pool +
        s.updateFeeTimeLimit.toNat < (feeCache d).clock (.initial d timestamp updateFeeTimeLimit torn) := by
      simp [feeCache,State.initial]
      omega
    obtain ⟨time,recent,e,reached,left,clock,o,computed⟩ :=
      (feeCache_keeps d).recent run old (by simpa [feeCache,same] using young)
    refine ⟨e,reached,left,?_,fee ▸ calculatePoolFee_ok computed⟩
    simp only [feeCache] at recent clock
    omega
  · exact ⟨s,run,.refl,by omega,calculatePoolFee_ok computed⟩

/-- A routed withdrawal of a registered caller: the named relayer is the caller's master,
whose stake alone pays, and pays a fee the formula gave recently in the run. -/
structure Charged (d : Deployment) (start s s' : State T) (caller pool relayer : Address) : Prop where
  master : s.registry.workers caller = relayer
  some : relayer ≠ zeroAddress
  fee : ∃ (fee : Word 20) (e : State T), Run d start e ∧ Run d e s ∧
    s.timestamp.toNat ≤ e.timestamp.toNat + s.updateFeeTimeLimit.toNat ∧ PoolFee d e pool fee ∧
    (s'.registry.relayers relayer).balance.toNat + fee.toNat =
      (s.registry.relayers relayer).balance.toNat ∧
    s'.staking.totalBurnRewards.toNat = s.staking.totalBurnRewards.toNat + fee.toNat
  others : ∀ a, a ≠ relayer → s'.registry.relayers a = s.registry.relayers a
  torn : s'.torn = s.torn

theorem withdrawal_burns_recent_fee {timestamp : Word 32} {updateFeeTimeLimit : Word 3}
    {torn : T.Book} {caller relayer : Address} (genesis : 2 ^ 24 ≤ timestamp.toNat)
    (run : Run d (.initial d timestamp updateFeeTimeLimit torn) s)
    (ok : execute d o caller (.withdraw pool relayer) s = .ok s') :
    (s.instances.instances pool).state = .ENABLED ∧
    ((s.registry.workers caller = zeroAddress ∧ s.registry.workers relayer = zeroAddress ∧ s' = s) ∨
      Charged d (.initial d timestamp updateFeeTimeLimit torn) s s' caller pool relayer) := by
  obtain ⟨supported,_,called⟩ := withdraw_ok ok
  constructor
  · cases state : (s.instances.instances pool).state with
    | DISABLED => exact absurd state supported
    | ENABLED => rfl
  obtain ⟨registry,executed,rest⟩ := bind_ok_iff.mp called
  obtain ⟨next,ran,returned⟩ := bind_ok_iff.mp rest
  cases returned
  obtain ⟨_,burns⟩ := burn_ok executed
  rcases burned_ok burns ran with ⟨unregistered,_,rfl⟩ |
    ⟨fees,staking,rfl,refreshes,young,read,total,_,master,some⟩
  · left
    cases burns with
    | custom _ custom => exact ⟨unregistered,custom,rfl⟩
    | staked _ _ nonzero same => exact absurd (same.symm.trans unregistered) nonzero
  · right
    cases burns with
    | custom unregistered => exact absurd (master.symm.trans unregistered) some
    | staked toBurn fee _ _ enough =>
      cases fee.symm.trans read
      obtain ⟨e,reached,left,recent,priced⟩ := refreshes.recent genesis run young
      refine ⟨master,some,⟨_,e,reached,left,recent,priced,?_,total⟩,?_,rfl⟩
      · have small := (s.registry.relayers relayer).balance.isLt
        have amount := BitVec.toNat_setWidth 256 (fees.instanceFee pool)
        rw [Nat.mod_eq_of_lt (by omega)] at amount
        simp only [Function.update_self]
        rw [BitVec.toNat_sub_of_le (BitVec.le_def.mpr (by omega)),amount]
        omega
      · intro a other
        exact Function.update_of_ne other ..

/-- The sample's worker withdraws an hour after the fees were updated. -/
theorem sample_withdraws : ∃ s s', Run sampleDeployment sampleStart s ∧
    execute sampleDeployment sampleOutside 0xb2 (.withdraw 0x12d6 0xa1) s = .ok s' := by
  let before : List (Address × Call sampleTorn) :=
    sampleSetup ++ [(0x90,.updateAllFees),(0xcc,.wait 3600)]
  have returns : (play sampleDeployment sampleOutside before sampleStart >>=
      execute sampleDeployment sampleOutside 0xb2 (.withdraw 0x12d6 0xa1)).toBool = true := by
    decide +kernel
  obtain ⟨s',ran⟩ := ok_of_toBool returns
  obtain ⟨s,reached,ok⟩ := bind_ok_iff.mp ran
  exact ⟨s,s',.of_play (by decide) reached,ok⟩

theorem withdrawal_burns_recent_fee_sample : ∃ s s',
    execute sampleDeployment sampleOutside 0xb2 (.withdraw 0x12d6 0xa1) s = .ok s' ∧
    (s.instances.instances 0x12d6).state = .ENABLED ∧
    ((s.registry.workers 0xb2 = zeroAddress ∧ s.registry.workers 0xa1 = zeroAddress ∧ s' = s) ∨
      Charged sampleDeployment sampleStart s s' 0xb2 0x12d6 0xa1) := by
  obtain ⟨s,s',run,ok⟩ := sample_withdraws
  exact ⟨s,s',ok,withdrawal_burns_recent_fee (by decide) run ok⟩

/-! ### When a withdrawal goes through -/

/-- The fee a withdrawal is charged now: the one kept, or a new one when that is too old. -/
def Due (d : Deployment) (o : Outside) (s : State T) (pool : Address) (fee : Word 20) : Prop :=
  if s.timestamp.toNat - (s.fees.instanceFeeUpdated pool).toNat > s.updateFeeTimeLimit.toNat then
    calculatePoolFee (d.pools o) s.instances s.fees pool = .ok fee
  else fee = s.fees.instanceFee pool

/-- The staking contract knows the registry, and its counters hold the amount. -/
structure Counts (d : Deployment) (s : State T) (amount : Nat) : Prop where
  known : s.staking.relayerRegistry = d.relayerRegistry
  total : s.staking.totalBurnRewards.toNat + amount < 2 ^ 256
  rate : 0 < T.balanceOf s.torn d.staking → amount * d.ratioConstant < 2 ^ 256 ∧
    s.staking.accumulatedRewardPerTorn.toNat +
      amount * d.ratioConstant / T.balanceOf s.torn d.staking < 2 ^ 256

theorem require_bind_iff {condition : Prop} [Decidable condition] {message : String}
    {rest : Except String α} :
    (∃ a, (do require condition message; rest) = .ok a) ↔ condition ∧ ∃ a, rest = .ok a := by
  simp only [bind_ok_iff,require_ok_iff]
  constructor
  · rintro ⟨a,_,holds,ok⟩
    exact ⟨holds,a,ok⟩
  · rintro ⟨holds,a,ok⟩
    exact ⟨a,(),holds,ok⟩

theorem checkedAdd_iff {a c : Word 32} {b : Nat} : checkedAdd a b = .ok c ↔
    a.toNat + b < 2 ^ 256 ∧ a + BitVec.ofNat 256 b = c := by
  simp [checkedAdd,bind_ok_iff,require_ok_iff,pure,Except.pure]

theorem checkedMul_iff {a b c : Nat} : InstanceRegistry.checkedMul a b = .ok c ↔
    a * b < 2 ^ 256 ∧ a * b = c := by
  simp [InstanceRegistry.checkedMul,bind_ok_iff,require_ok_iff,pure,Except.pure]

theorem addBurnRewards_iff {amount : Nat} :
    (∃ s', addBurnRewards d d.relayerRegistry amount s = .ok s') ↔ Counts d s amount := by
  have apart : d.relayerRegistry ≠ d.governance := fun same => d.governance_apart (by simp [same])
  constructor
  · rintro ⟨s',ok⟩
    obtain ⟨_,known,ok⟩ := bind_ok_iff.mp ok
    obtain ⟨total,added,ok⟩ := bind_ok_iff.mp ok
    rw [require_ok_iff] at known
    refine ⟨(known.resolve_left apart).symm,(checkedAdd_iff.mp added).1,fun some => ?_⟩
    simp only [gt_iff_lt,if_pos some] at ok
    obtain ⟨scaled,multiplied,ok⟩ := bind_ok_iff.mp ok
    obtain ⟨rate,raised,ok⟩ := bind_ok_iff.mp ok
    obtain ⟨fits,rfl⟩ := checkedMul_iff.mp multiplied
    exact ⟨fits,(checkedAdd_iff.mp raised).1⟩
  · intro counts
    rw [addBurnRewards,require_bind_iff]
    refine ⟨.inr counts.known.symm,?_⟩
    simp only [bind_ok_iff]
    by_cases some : 0 < T.balanceOf s.torn d.staking
    · obtain ⟨fits,raised⟩ := counts.rate some
      simp only [gt_iff_lt,if_pos some,bind_ok_iff]
      exact ⟨_,_,checkedAdd_iff.mpr ⟨counts.total,rfl⟩,_,checkedMul_iff.mpr ⟨fits,rfl⟩,_,
        checkedAdd_iff.mpr ⟨raised,rfl⟩,rfl⟩
    · simp only [gt_iff_lt,if_neg some]
      exact ⟨_,_,checkedAdd_iff.mpr ⟨counts.total,rfl⟩,rfl⟩

theorem instanceFeeWithUpdate_iff {fee : Word 20}
    (past : (s.fees.instanceFeeUpdated pool).toNat ≤ s.timestamp.toNat) :
    (∃ s', s.instanceFeeWithUpdate d o pool = .ok (fee,s')) ↔ Due d o s pool fee := by
  rw [State.instanceFeeWithUpdate,Due]
  simp only [bind_ok_iff,require_ok_iff]
  split
  · constructor
    · rintro ⟨s',_,_,ok⟩
      obtain ⟨next,updated,ok⟩ := bind_ok_iff.mp ok
      cases ok
      obtain ⟨fees,written,updated⟩ := bind_ok_iff.mp updated
      cases updated
      obtain ⟨fee,computed,_,value,_⟩ := updateFee_ok written
      simpa [value] using computed
    · intro computed
      let fees : FeeManager := { s.fees with
        instanceFee := Function.update s.fees.instanceFee pool fee
        instanceFeeUpdated := Function.update s.fees.instanceFeeUpdated pool s.timestamp
        events := s.fees.events ++ [(pool,fee)] }
      have written : InstanceRegistry.updateFee (d.pools o) s.instances s.timestamp s.fees pool =
          .ok fees := bind_ok_iff.mpr ⟨fee,computed,rfl⟩
      have updated : s.updateFee d o pool = .ok { s with fees } := bind_ok_iff.mpr ⟨_,written,rfl⟩
      have left : fees.instanceFee pool = fee := Function.update_self ..
      refine ⟨{ s with fees },(),past,bind_ok_iff.mpr ⟨_,updated,?_⟩⟩
      simp only [left,pure,Except.pure]
  · constructor
    · rintro ⟨s',_,_,ok⟩
      cases ok
      rfl
    · rintro rfl
      exact ⟨s,(),past,rfl⟩

theorem Counts.of_fees {fees : FeeManager} {amount : Nat} :
    Counts d { s with fees } amount ↔ Counts d s amount :=
  ⟨fun counts => ⟨counts.known,counts.total,counts.rate⟩,
    fun counts => ⟨counts.known,counts.total,counts.rate⟩⟩

/-- The caller and the relayer are nobody's, or the relayer is the caller's master and has
the fee staked. -/
def Payable (d : Deployment) (o : Outside) (s : State T) (caller pool relayer : Address) : Prop :=
  (s.registry.workers caller = zeroAddress ∧ s.registry.workers relayer = zeroAddress) ∨
  (s.registry.workers caller = relayer ∧ relayer ≠ zeroAddress ∧ ∃ fee, Due d o s pool fee ∧
    fee.toNat ≤ (s.registry.relayers relayer).balance.toNat ∧ Counts d s fee.toNat)

theorem callRegistry_burn_payable {caller relayer : Address}
    (past : (s.fees.instanceFeeUpdated pool).toNat ≤ s.timestamp.toNat)
    (ok : callRegistry d o msgSender (.burn caller relayer pool) s = .ok s') :
    msgSender = s.registry.tornadoRouter ∧ Payable d o s caller pool relayer := by
  obtain ⟨registry,executed,rest⟩ := bind_ok_iff.mp ok
  obtain ⟨next,ran,_⟩ := bind_ok_iff.mp rest
  obtain ⟨router,burns⟩ := burn_ok executed
  refine ⟨router,?_⟩
  cases burns with
  | custom unregistered custom => exact .inl ⟨unregistered,custom⟩
  | staked toBurn fee nonzero master enough =>
    right
    simp only [State.called,State.burned,if_neg (master ▸ nonzero)] at ran
    obtain ⟨⟨read,refreshed⟩,updated,counted⟩ := bind_ok_iff.mp ran
    have same : read = toBurn := by simpa [State.answers,updated,Except.map] using fee
    subst same
    obtain ⟨fees,rfl,_⟩ := instanceFeeWithUpdate_ok updated
    refine ⟨master,nonzero,read,(instanceFeeWithUpdate_iff past).mp ⟨_,updated⟩,enough,?_⟩
    exact Counts.of_fees.mp (addBurnRewards_iff.mp ⟨_,counted⟩)

theorem callRegistry_burn_returns {caller relayer : Address}
    (past : (s.fees.instanceFeeUpdated pool).toNat ≤ s.timestamp.toNat)
    (router : msgSender = s.registry.tornadoRouter) (payable : Payable d o s caller pool relayer) :
    ∃ s', callRegistry d o msgSender (.burn caller relayer pool) s = .ok s' := by
  rcases payable with ⟨unregistered,custom⟩ | ⟨master,nonzero,fee,due,enough,counts⟩
  · have executed : RelayerRegistry.execute d.governance (s.answers d o) msgSender
        (.burn caller relayer pool) s.registry = .ok s.registry := by
      simp [RelayerRegistry.execute,burn,require,router,unregistered,custom,bind,Except.bind,pure,
        Except.pure]
    have ran : s.called d o msgSender (.burn caller relayer pool) = .ok s := if_pos unregistered
    exact ⟨_,bind_ok_iff.mpr ⟨_,executed,bind_ok_iff.mpr ⟨_,ran,rfl⟩⟩⟩
  · have registered : s.registry.workers caller ≠ zeroAddress := master ▸ nonzero
    obtain ⟨refreshed,updated⟩ := (instanceFeeWithUpdate_iff past).mpr due
    obtain ⟨fees,rfl,_⟩ := instanceFeeWithUpdate_ok updated
    obtain ⟨next,counted⟩ := addBurnRewards_iff.mpr ((@Counts.of_fees _ _ _ fees _).mpr counts)
    have read : (s.answers d o).instanceFeeWithUpdate pool = .ok fee := by
      simp [State.answers,updated,Except.map]
    have told : (s.answers d o).addBurnRewards fee.toNat = true := by
      obtain ⟨_,added⟩ := addBurnRewards_iff.mpr counts
      simp [State.answers,added,Except.toBool]
    have executed : ∃ registry, RelayerRegistry.execute d.governance (s.answers d o) msgSender
        (.burn caller relayer pool) s.registry = .ok registry := by
      simp [RelayerRegistry.execute,burn,require,router,nonzero,master,read,told,enough,bind,
        Except.bind,pure,Except.pure]
    obtain ⟨registry,executed⟩ := executed
    have ran : s.called d o msgSender (.burn caller relayer pool) = .ok next :=
      (if_neg registered).trans (bind_ok_iff.mpr ⟨_,updated,counted⟩)
    exact ⟨_,bind_ok_iff.mpr ⟨_,executed,bind_ok_iff.mpr ⟨_,ran,rfl⟩⟩⟩

/-- In a run nothing but this stands in a routed withdrawal's way; in particular the age of
a fee never underflows. -/
theorem routed_withdrawal_iff {timestamp : Word 32} {updateFeeTimeLimit : Word 3}
    {torn : T.Book} {caller relayer : Address} (run : Run d (.initial d timestamp updateFeeTimeLimit torn) s) :
    (∃ s', execute d o caller (.withdraw pool relayer) s = .ok s') ↔
      (s.instances.instances pool).state ≠ .DISABLED ∧ d.router = s.registry.tornadoRouter ∧
      Payable d o s caller pool relayer ∧ o.withdraw pool := by
  have past : (s.fees.instanceFeeUpdated pool).toNat ≤ s.timestamp.toNat :=
    @TimedCache.Cache.Keeps.written_le _ _ _ _ _ _ _ pool (feeCache_keeps d) run (Nat.zero_le _)
  constructor
  · rintro ⟨s',ok⟩
    obtain ⟨supported,withdrawn,called⟩ := withdraw_ok ok
    obtain ⟨router,payable⟩ := callRegistry_burn_payable past called
    exact ⟨supported,router,payable,withdrawn⟩
  · rintro ⟨supported,router,payable,withdrawn⟩
    obtain ⟨next,called⟩ := callRegistry_burn_returns past router payable
    refine ⟨next,bind_ok_iff.mpr ⟨(),require_ok_iff.mpr supported,?_⟩⟩
    exact bind_ok_iff.mpr ⟨next,called,bind_ok_iff.mpr ⟨(),require_ok_iff.mpr withdrawn,rfl⟩⟩

theorem routed_withdrawal_iff_sample : ∃ s : State sampleTorn,
    (s.instances.instances 0x12d6).state ≠ .DISABLED ∧
    sampleDeployment.router = s.registry.tornadoRouter ∧
    Payable sampleDeployment sampleOutside s 0xb2 0x12d6 0xa1 ∧ sampleOutside.withdraw 0x12d6 := by
  obtain ⟨s,s',run,ok⟩ := sample_withdraws
  exact ⟨s,(routed_withdrawal_iff run).mp ⟨s',ok⟩⟩

/-! ### Deviations -/

/-- A step that leaves the list of pools, their table and the prices as they are. -/
structure QuietStep (d : Deployment) (s s' : State T) : Prop where
  step : Step d s s'
  table : s'.instances.instances = s.instances.instances
  list : s'.instances.instanceIds = s.instances.instanceIds
  prices : s'.fees.tornPerAsset = s.fees.tornPerAsset

/-- Each listed pool's fee is what the formula gives. -/
def Settled (d : Deployment) (s : State T) : Prop :=
  ∀ pool ∈ s.instances.instanceIds, ∀ o,
    calculatePoolFee (d.pools o) s.instances s.fees pool = .ok (s.fees.instanceFee pool)

/-- Pools are asked for their denominations, which never change. -/
theorem calculatePoolFee_outside (o o' : Outside) (registry : InstanceRegistry.Registry)
    (m : FeeManager) (pool : Address) :
    calculatePoolFee (d.pools o) registry m pool = calculatePoolFee (d.pools o') registry m pool := rfl

theorem calculatePoolFee_table {o : InstanceRegistry.Outside} {m : FeeManager}
    {registry registry' : InstanceRegistry.Registry} (same : registry.instances = registry'.instances)
    (pool : Address) : calculatePoolFee o registry m pool = calculatePoolFee o registry' m pool := by
  simp only [calculatePoolFee,same]

/-- A fee that is computed anew is what it was. -/
theorem Refreshes.settled (settled : Settled d s) (refreshes : Refreshes d s s'.fees)
    (quiet : QuietStep d s s') : Settled d s' := by
  intro pool listed o
  rw [quiet.list] at listed
  rw [calculatePoolFee_table quiet.table,calculatePoolFee_prices refreshes.prices]
  have before := settled pool listed o
  rcases refreshes.entry pool with ⟨_,kept⟩ | ⟨_,o',computed⟩
  · rw [kept]
    exact before
  · rw [calculatePoolFee_outside o o',computed]

theorem updateFees_settles {pools : List Address} {fees fees' : FeeManager}
    (refreshes : Refreshes d s fees)
    (ok : InstanceRegistry.updateFees (d.pools o) s.instances s.timestamp pools fees = .ok fees')
    {pool : Address} (visited : pool ∈ pools ∨
      calculatePoolFee (d.pools o) s.instances s.fees pool = .ok (fees.instanceFee pool)) :
    calculatePoolFee (d.pools o) s.instances s.fees pool = .ok (fees'.instanceFee pool) := by
  induction pools generalizing fees with
  | nil =>
    cases ok
    exact visited.resolve_left List.not_mem_nil
  | cons first rest ih =>
    obtain ⟨next,updated,later⟩ := bind_ok_iff.mp ok
    apply ih (refreshes.updateFee updated) later
    obtain ⟨fee,computed,_,value,_⟩ := updateFee_ok updated
    rw [calculatePoolFee_prices refreshes.prices] at computed
    by_cases own : pool = first
    · subst own
      right
      simpa [value] using computed
    · simpa [value,own] using visited

theorem QuietStep.settled (settled : Settled d s) (quiet : QuietStep d s s') : Settled d s' := by
  have refreshed : Refreshes d s s'.fees ∨ s'.fees.instanceFee = s.fees.instanceFee := by
    cases quiet.step.effect with
    | registry _ calls => exact .inl calls.fees.1
    | fees refreshes => exact .inl refreshes
    | _ => exact .inr rfl
  rcases refreshed with refreshes | kept
  · exact refreshes.settled settled quiet
  · intro pool listed o
    rw [quiet.list] at listed
    rw [calculatePoolFee_table quiet.table,calculatePoolFee_prices quiet.prices,kept]
    exact settled pool listed o

/-- A kept fee that the formula still gives deviates by nothing. -/
theorem Settled.deviations (settled : Settled d s) (o : Outside) :
    feeDeviations d o s = .ok (s.instances.instanceIds.map fun pool => (pool,0)) := by
  apply mapM_ok_iff.mpr
  apply List.forall₂_map_right_iff.mpr
  apply List.forall₂_same.mpr
  intro pool listed
  refine bind_ok_iff.mpr ⟨_,settled pool listed o,?_⟩
  split
  · next some =>
    have positive : 0 < (s.fees.instanceFee pool).toNat :=
      Nat.pos_of_ne_zero fun zero => some (BitVec.eq_of_toNat_eq zero)
    have small := (s.fees.instanceFee pool).isLt
    refine bind_ok_iff.mpr ⟨_,checkedMul_iff.mpr ⟨by omega,rfl⟩,?_⟩
    rw [Nat.mul_div_cancel_left _ positive]
    rfl
  · rfl

/-- After all fees are updated no fee deviates, whoever updates which again, until
governance changes a pool or a price. -/
theorem deviations_settled {s₁ s₂ : State T} (ok : execute d o msgSender .updateAllFees s = .ok s₁)
    (quiet : Relation.ReflTransGen (QuietStep d) s₁ s₂) (o' : Outside) :
    feeDeviations d o' s₂ = .ok (s₂.instances.instanceIds.map fun pool => (pool,0)) := by
  apply Settled.deviations
  obtain ⟨fees,updated,ok⟩ := bind_ok_iff.mp ok
  cases ok
  induction quiet with
  | refl =>
    intro pool listed o'
    have prices := (Refreshes.same.updateFees updated).prices
    rw [calculatePoolFee_prices prices,calculatePoolFee_outside o' o]
    exact updateFees_settles .same updated (.inl listed)
  | tail _ stepped ih => exact stepped.settled ih

/-- All fees are updated, and then one of them by somebody else. -/
theorem deviations_settled_sample : ∃ s₁ s₂ : State sampleTorn,
    Relation.ReflTransGen (QuietStep sampleDeployment) s₁ s₂ ∧
    feeDeviations sampleDeployment sampleOutside s₂ =
      .ok (s₂.instances.instanceIds.map fun pool => (pool,0)) := by
  have returns : (do
      let s ← play sampleDeployment sampleOutside sampleSetup sampleStart
      let s ← execute sampleDeployment sampleOutside 0x90 .updateAllFees s
      execute sampleDeployment sampleOutside 0xcc (.updateFee 0x12d6) s).toBool = true := by
    decide +kernel
  obtain ⟨s₂,ran⟩ := ok_of_toBool returns
  obtain ⟨s,_,rest⟩ := bind_ok_iff.mp ran
  obtain ⟨s₁,all,one⟩ := bind_ok_iff.mp rest
  obtain ⟨fees,updated,returned⟩ := bind_ok_iff.mp one
  cases returned
  have quiet : QuietStep sampleDeployment s₁ { s₁ with fees } :=
    ⟨⟨_,_,_,by decide,one⟩,rfl,rfl,(Refreshes.same.updateFee updated).prices⟩
  exact ⟨s₁,_,.single quiet,deviations_settled all (.single quiet) sampleOutside⟩

end TornadoRelayer.Dao
