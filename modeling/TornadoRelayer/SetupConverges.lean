import TornadoRelayer.FundedPaymaster

/-! When a setup converges: it stakes and funds its paymaster up to the configured amounts, sends
no more than what is missing, and leaves nothing to send for the next one. -/
namespace TornadoRelayer.Setup

open BigEndian EventLoop JavaScript

variable {cfg : PaymasterSetupConfig} {account paymaster : Address} {c c' : Chain} {polls : Nat}
  {info : DepositInfo} {w : Worker}

/-! ### What a top-up changes -/

theorem Known.carry (known : Known cfg c paymaster) (same : SameContracts c c') :
    Known cfg c' paymaster := by
  obtain ⟨named,worker⟩ := known
  exact ⟨by rw [same.file]; exact named,by rw [same.worker]; exact worker⟩

theorem Compatible.carry (fits : Compatible cfg c paymaster w) (same : SameContracts c c') :
    Compatible cfg c' paymaster w := by
  obtain ⟨worker,chainId,layout,entryPoint,signer,router,master⟩ := fits
  refine ⟨by rw [same.worker,worker],by rw [same.chainId,chainId],layout,entryPoint,signer,router,?_⟩
  rw [same.relayerRegistry,same.workers]
  exact master

theorem settle_same {tx : Transaction} (funds : tx.Funds) : SameContracts c (c.settle tx true) := by
  obtain ⟨file,chainId,worker,relayerRegistry,workers⟩ := apply_same (c := c) c.nextAddress funds
  exact ⟨file,chainId,worker,relayerRegistry,workers⟩

theorem updateInfo_info {change : DepositInfo → DepositInfo} (worker : c.worker paymaster = some w) :
    (c.updateInfo paymaster change).info w.entryPoint paymaster =
      change (c.info w.entryPoint paymaster) := by
  simp [Chain.updateInfo,worker]

theorem settle_addStake (worker : c.worker paymaster = some w) (delay : JsNumber) (value : Int) :
    (c.settle (.call paymaster (.addStake delay) value) true).info w.entryPoint paymaster =
      { c.info w.entryPoint paymaster with
        staked := true
        stake := ((c.info w.entryPoint paymaster).stake + value).toNat } :=
  updateInfo_info worker

theorem settle_deposit (worker : c.worker paymaster = some w) (value : Int) :
    (c.settle (.call paymaster .deposit value) true).info w.entryPoint paymaster =
      { c.info w.entryPoint paymaster with
        deposit := ((c.info w.entryPoint paymaster).deposit + value).toNat } :=
  updateInfo_info worker

/-! ### One setup of a checked paymaster -/

/-- The EntryPoint holds too little stake, or none that is locked. -/
def Short (cfg : PaymasterSetupConfig) (info : DepositInfo) : Prop :=
  0 < cfg.stakeWei ∧ (info.staked = false ∨ info.stake < cfg.stakeWei)

instance : Decidable (Short cfg info) := inferInstanceAs (Decidable (_ ∧ _))

def stakeTx (cfg : PaymasterSetupConfig) (paymaster : Address) (info : DepositInfo) : Transaction :=
  .call paymaster (.addStake cfg.unstakeDelaySec) (cfg.stakeWei - info.stake)

def depositTx (cfg : PaymasterSetupConfig) (paymaster : Address) (info : DepositInfo) :
    Transaction := .call paymaster .deposit (cfg.depositWei - info.deposit)

def stakeKept (cfg : PaymasterSetupConfig) (paymaster : Address) (info : DepositInfo) (c : Chain) :
    Chain :=
  if Short cfg info then c.settle (stakeTx cfg paymaster info) true else c

def depositKept (cfg : PaymasterSetupConfig) (paymaster : Address) (info : DepositInfo)
    (c : Chain) : Chain :=
  if info.deposit < cfg.depositWei then c.settle (depositTx cfg paymaster info) true else c

theorem sendAndWait_fine {call : SetupCall} {value : Int} (nonnegative : 0 ≤ value) :
    (sendAndWait paymaster call value).play (host account) (.always .fine) c =
      ⟨some (.ok ()), c.settle (.call paymaster call value) true, .always .fine⟩ := by
  have sent : c.answer account .fine (.writeContract paymaster call value) =
      (.ok c.nextHash,c.accept (.call paymaster call value)) := by
    have positive : ¬(Transaction.call paymaster call value).value < 0 := nonnegative.not_gt
    simp only [Chain.answer,Chain.sendingValue,if_neg positive]
    rfl
  rw [sendAndWait,play_returned (play_await rfl sent),
    play_returned (play_await rfl Chain.accept_fine)]
  rfl

theorem keepStake_fine {canAdmin : Prop} [Decidable canAdmin] (auto : cfg.autoSetup = true)
    (admin : canAdmin) (enough : Short cfg info → 0 ≤ cfg.stakeWei - info.stake) :
    (keepStake cfg paymaster info canAdmin).play (host account) (.always .fine) c =
      ⟨some (.ok ()), stakeKept cfg paymaster info c, .always .fine⟩ := by
  unfold keepStake stakeKept
  by_cases short : cfg.stakeWei > 0 ∧ (info.staked = false ∨ info.stake < cfg.stakeWei)
  · rw [if_pos short,if_pos (show Short cfg info from short)]
    simp only [auto,admin,and_self,if_true]
    exact sendAndWait_fine (enough short)
  · rw [if_neg short,if_neg (show ¬Short cfg info from short)]
    rfl

theorem keepDeposit_fine (auto : cfg.autoSetup = true) :
    (keepDeposit cfg paymaster info).play (host account) (.always .fine) c =
      ⟨some (.ok ()), depositKept cfg paymaster info c, .always .fine⟩ := by
  unfold keepDeposit depositKept
  by_cases low : info.deposit < cfg.depositWei
  · rw [if_pos low,if_pos low]
    simp only [auto,if_true]
    exact sendAndWait_fine (by omega)
  · rw [if_neg low,if_neg low]
    rfl

/-- The check passes, and the paymaster is the relayer key's. -/
structure Ready (cfg : PaymasterSetupConfig) (c : Chain) (paymaster : Address) (w : Worker) : Prop
    extends Compatible cfg c paymaster w where
  owner : w.owner = cfg.signer

theorem Ready.carry (ready : Ready cfg c paymaster w) (same : SameContracts c c') :
    Ready cfg c' paymaster w := ⟨ready.toCompatible.carry same,ready.owner⟩

/-- Up to the stake, a setup of a ready paymaster only reads. -/
theorem Ready.prepare_reads (ready : Ready cfg c paymaster w) :
    ((prepare polls cfg paymaster).play (host account) (.always .fine) c) =
      (do
        keepStake cfg paymaster (c.info cfg.entryPoint paymaster) (cfg.signer = cfg.signer)
        keepDeposit cfg paymaster (c.info cfg.entryPoint paymaster)
        register polls cfg paymaster
        pure paymaster : Setup Address).play (host account) (.always .fine) c := by
  have infoRead : Answers c (.getDepositInfo cfg.entryPoint paymaster)
      (.ok (c.info cfg.entryPoint paymaster)) := ⟨fun _ _ => rfl⟩
  have ownerRead : Answers c (.readAddress paymaster .owner) (.ok cfg.signer) :=
    ⟨fun _ _ => by simp [Chain.answer,Chain.getter,Chain.ofWorker,ready.worker,ready.owner]⟩
  rw [prepare,play_returned ready.toCompatible.play,play_returned (infoRead.play rfl),
    play_returned (ownerRead.play rfl)]
  rfl

theorem Ready.kept (ready : Ready cfg c paymaster w) (auto : cfg.autoSetup = true)
    (info_eq : c.info cfg.entryPoint paymaster = info)
    (enough : Short cfg info → 0 ≤ cfg.stakeWei - info.stake) :
    ((prepare polls cfg paymaster).play (host account) (.always .fine) c).world =
      depositKept cfg paymaster info (stakeKept cfg paymaster info c) := by
  rw [ready.prepare_reads,info_eq,play_returned (keepStake_fine auto rfl enough),
    play_returned (keepDeposit_fine auto)]
  exact play_reads (confined_bind register_reads fun _ => trivial)

/-! ### What it leaves -/

/-- The EntryPoint holds what is configured. -/
structure Held (cfg : PaymasterSetupConfig) (info : DepositInfo) : Prop where
  stake : 0 < cfg.stakeWei → info.staked = true ∧ cfg.stakeWei ≤ info.stake
  deposit : cfg.depositWei ≤ info.deposit

theorem Held.not_short (held : Held cfg info) : ¬Short cfg info := by
  rintro ⟨wanted,unstaked | low⟩
  · exact absurd (held.stake wanted).1 (by simp [unstaked])
  · exact absurd (held.stake wanted).2 low.not_ge

theorem Held.nothing_kept (held : Held cfg info) :
    depositKept cfg paymaster info (stakeKept cfg paymaster info c) = c := by
  rw [stakeKept,if_neg held.not_short,depositKept,if_neg held.deposit.not_gt]

theorem settle_txs (tx : Transaction) (success : Bool) : (c.settle tx success).txs = tx :: c.txs := by
  rw [Chain.txs,Chain.settle_sent]
  rfl

theorem stakeKept_same : SameContracts c (stakeKept cfg paymaster info c) := by
  unfold stakeKept
  split
  · exact settle_same trivial
  · exact .refl c

theorem depositKept_same : SameContracts c (depositKept cfg paymaster info c) := by
  unfold depositKept
  split
  · exact settle_same trivial
  · exact .refl c

theorem stakeKept_info (fits : Compatible cfg c paymaster w)
    (info_eq : c.info cfg.entryPoint paymaster = info)
    (enough : Short cfg info → 0 ≤ cfg.stakeWei - info.stake) :
    let kept := (stakeKept cfg paymaster info c).info cfg.entryPoint paymaster
    (0 < cfg.stakeWei → kept.staked = true ∧ cfg.stakeWei ≤ kept.stake) ∧
      kept.deposit = info.deposit := by
  intro kept
  by_cases short : Short cfg info
  · have changed : kept = { info with
        staked := true
        stake := (info.stake + (cfg.stakeWei - info.stake)).toNat } := by
      change (stakeKept cfg paymaster info c).info cfg.entryPoint paymaster = _
      rw [stakeKept,if_pos short,stakeTx,← fits.entryPoint,settle_addStake fits.worker,
        fits.entryPoint,info_eq]
    rw [changed]
    refine ⟨fun wanted => ⟨rfl,?_⟩,rfl⟩
    have whole := enough short
    simp only
    omega
  · have same : kept = info := by
      change (stakeKept cfg paymaster info c).info cfg.entryPoint paymaster = _
      rw [stakeKept,if_neg short,info_eq]
    rw [same]
    refine ⟨fun wanted => ?_,rfl⟩
    rw [Short] at short
    have locked : info.staked = true := by
      by_contra unlocked
      exact short ⟨wanted,.inl (by simpa using unlocked)⟩
    exact ⟨locked,by_contra fun low => short ⟨wanted,.inr (by omega)⟩⟩

theorem kept_held (fits : Compatible cfg c paymaster w)
    (info_eq : c.info cfg.entryPoint paymaster = info)
    (enough : Short cfg info → 0 ≤ cfg.stakeWei - info.stake) :
    Held cfg ((depositKept cfg paymaster info (stakeKept cfg paymaster info c)).info
      cfg.entryPoint paymaster) := by
  obtain ⟨stake,deposit⟩ := stakeKept_info fits info_eq enough
  have fits' : Compatible cfg (stakeKept cfg paymaster info c) paymaster w :=
    fits.carry stakeKept_same
  by_cases low : info.deposit < cfg.depositWei
  · rw [depositKept,if_pos low,depositTx,← fits'.entryPoint,settle_deposit fits'.worker,
      fits'.entryPoint]
    refine ⟨stake,?_⟩
    simp only [deposit]
    omega
  · rw [depositKept,if_neg low]
    exact ⟨stake,by rw [deposit]; omega⟩

/-- The transactions of one setup: none negative, and together no more than is missing. -/
structure Spent (cfg : PaymasterSetupConfig) (info : DepositInfo) (txs : List Transaction) : Prop where
  nonnegative : ∀ tx ∈ txs, 0 ≤ tx.value
  stake : (txs.map Transaction.staking).sum ≤ max 0 (cfg.stakeWei - info.stake)
  deposit : (txs.map Transaction.depositing).sum ≤ max 0 (cfg.depositWei - info.deposit)

/-- Transactions that carry nothing. -/
structure Free (txs : List Transaction) : Prop where
  value : ∀ tx ∈ txs, tx.value = 0
  staking : (txs.map Transaction.staking).sum = 0
  depositing : (txs.map Transaction.depositing).sum = 0

theorem kept_spent (enough : Short cfg info → 0 ≤ cfg.stakeWei - info.stake)
    {before txs : List Transaction} (free : Free before) (sent : c.txs = before ++ txs) :
    ∃ all, (depositKept cfg paymaster info (stakeKept cfg paymaster info c)).txs = all ++ txs ∧
      Spent cfg info all := by
  obtain ⟨value,staking,depositing⟩ := free
  have staked : ∃ all, (stakeKept cfg paymaster info c).txs = all ++ txs ∧
      (∀ tx ∈ all, 0 ≤ tx.value) ∧
      (all.map Transaction.staking).sum ≤ max 0 (cfg.stakeWei - info.stake) ∧
      (all.map Transaction.depositing).sum = 0 := by
    unfold stakeKept
    by_cases short : Short cfg info
    · rw [if_pos short,settle_txs,sent]
      refine ⟨stakeTx cfg paymaster info :: before,rfl,?_,?_,?_⟩
      · intro tx member
        rcases List.mem_cons.mp member with rfl | member
        · exact enough short
        · exact (value tx member).ge
      · rw [List.map_cons,List.sum_cons,staking,add_zero]
        exact le_max_right ..
      · rw [List.map_cons,List.sum_cons,depositing]
        rfl
    · rw [if_neg short]
      exact ⟨before,sent,fun tx member => (value tx member).ge,staking ▸ le_max_left ..,depositing⟩
  obtain ⟨all,sent,nonnegative,stake,none⟩ := staked
  unfold depositKept
  by_cases low : info.deposit < cfg.depositWei
  · rw [if_pos low,settle_txs,sent]
    refine ⟨depositTx cfg paymaster info :: all,rfl,?_,?_,?_⟩
    · intro tx member
      rcases List.mem_cons.mp member with rfl | member
      · exact (show 0 ≤ cfg.depositWei - info.deposit by omega)
      · exact nonnegative tx member
    · rw [List.map_cons,List.sum_cons]
      exact (zero_add _).trans_le stake
    · rw [List.map_cons,List.sum_cons,none,add_zero]
      exact le_max_right ..
  · rw [if_neg low]
    exact ⟨all,sent,nonnegative,stake,none ▸ le_max_left ..⟩

/-! ### A setup and the next one -/

def afterSetup (polls : Nat) (cfg : PaymasterSetupConfig) (c : Chain) : Chain :=
  ((ensurePaymasterSetup polls cfg).play (host cfg.signer) (.always .fine) c).world

/-- With every request met, the setup comes to a contract that is ready; the setup is automatic,
and the next one can find that contract. -/
structure Setting (cfg : PaymasterSetupConfig) (c : Chain) (paymaster : Address) (c₁ : Chain)
    (w : Worker) : Prop where
  standalone : cfg.mode = .standalone
  auto : cfg.autoSetup = true
  located : cfg.paymaster ≠ none ∨ cfg.statePath ≠ none
  found : (ensureStandaloneContract cfg).play (host cfg.signer) (.always .fine) c =
    ⟨some (.ok paymaster), c₁, .always .fine⟩
  ready : Ready cfg c₁ paymaster w

/-- What is asked of the setup, for the deposit information it starts from. -/
structure Converges (polls : Nat) (cfg : PaymasterSetupConfig) (c : Chain) (paymaster : Address)
    (info : DepositInfo) : Prop where
  spent : ∃ txs, (afterSetup polls cfg c).txs = txs ++ c.txs ∧ Spent cfg info txs
  held : Held cfg ((afterSetup polls cfg c).info cfg.entryPoint paymaster)
  again : (afterSetup polls cfg (afterSetup polls cfg c)).funded = (afterSetup polls cfg c).funded

variable {c₁ : Chain}

theorem Setting.after (setting : Setting cfg c paymaster c₁ w) : afterSetup polls cfg c =
    ((prepare polls cfg paymaster).play (host cfg.signer) (.always .fine) c₁).world := by
  rw [afterSetup,ensurePaymasterSetup,setting.standalone]
  exact congrArg Played.world (play_returned setting.found)

/-- What the deployment sends carries nothing, and the deposit information is as it was. -/
theorem Setting.before (setting : Setting cfg c paymaster c₁ w) :
    c₁.info = c.info ∧ ∃ before, c₁.txs = before ++ c.txs ∧ Free before := by
  rcases (standalone_ok setting.located setting.found).2 with rfl | rfl
  · exact ⟨rfl,[],rfl,by simp,rfl,rfl⟩
  · have txs : (recorded cfg c).txs = (wired cfg c).txs := rfl
    have info : (recorded cfg c).info = (wired cfg c).info := rfl
    rw [txs,info]
    unfold wired
    cases cfg.daoRouter with
    | none =>
      refine ⟨rfl,[deployment cfg],settle_txs ..,?_,rfl,rfl⟩
      intro tx member
      rw [List.mem_singleton.mp member]
      rfl
    | some router =>
      refine ⟨rfl,[.call c.nextAddress (.setRouter router) 0,deployment cfg],?_,?_,rfl,rfl⟩
      · simp only [settle_txs]
        rfl
      · intro tx member
        rcases List.mem_pair.mp member with rfl | rfl <;> rfl

/-- The next setup starts from what this one left. -/
theorem Setting.next (setting : Setting cfg c paymaster c₁ w) (same : SameContracts c₁ c') :
    Setting cfg c' paymaster c' w :=
  ⟨setting.standalone,setting.auto,setting.located,
    ((standalone_ok setting.located setting.found).1.carry same).found,setting.ready.carry same⟩

theorem Setting.kept (setting : Setting cfg c paymaster c₁ w)
    (info_eq : c₁.info cfg.entryPoint paymaster = info)
    (enough : Short cfg info → 0 ≤ cfg.stakeWei - info.stake) :
    afterSetup polls cfg c = depositKept cfg paymaster info (stakeKept cfg paymaster info c₁) := by
  rw [setting.after]
  exact setting.ready.kept setting.auto info_eq enough

theorem Setting.converges (setting : Setting cfg c paymaster c₁ w)
    (info_eq : c.info cfg.entryPoint paymaster = info)
    (enough : Short cfg info → 0 ≤ cfg.stakeWei - info.stake) :
    Converges polls cfg c paymaster info := by
  obtain ⟨sameInfo,before,sent,free⟩ := setting.before
  rw [← sameInfo] at info_eq
  have kept : afterSetup polls cfg c =
      depositKept cfg paymaster info (stakeKept cfg paymaster info c₁) :=
    setting.kept info_eq enough
  have held := kept_held setting.ready.toCompatible info_eq enough
  have same : SameContracts c₁ (depositKept cfg paymaster info (stakeKept cfg paymaster info c₁)) :=
    stakeKept_same.trans depositKept_same
  rw [← kept] at held same
  have again : afterSetup polls cfg (afterSetup polls cfg c) = afterSetup polls cfg c :=
    ((setting.next same).kept rfl fun short => absurd short held.not_short).trans held.nothing_kept
  refine ⟨?_,held,congrArg Chain.funded again⟩
  rw [kept]
  exact kept_spent enough free sent

/-- More stake than wanted, all of it unlocked: the shortfall is negative, and the wallet either
throws or sends it. -/
theorem Setting.diverges (setting : Setting cfg c paymaster c₁ w)
    (info_eq : c.info cfg.entryPoint paymaster = info) (wanted : 0 < cfg.stakeWei)
    (unlocked : info.staked = false) (above : cfg.stakeWei < info.stake) :
    ¬Converges polls cfg c paymaster info := by
  rintro ⟨⟨txs,grown,spent⟩,held,_⟩
  obtain ⟨sameInfo,before,sent,_⟩ := setting.before
  rw [← sameInfo] at info_eq
  rw [setting.after,setting.ready.prepare_reads,info_eq] at grown held
  have negative : (stakeTx cfg paymaster info).value < 0 := by
    change cfg.stakeWei - info.stake < 0
    omega
  have asked : keepStake cfg paymaster info (cfg.signer = cfg.signer) =
      sendAndWait paymaster (.addStake cfg.unstakeDelaySec) (cfg.stakeWei - info.stake) := by
    rw [keepStake,if_pos ⟨wanted,.inl unlocked⟩]
    simp only [setting.auto,and_self,if_true]
  rw [asked] at grown held
  cases refuses : c₁.refusesNegative (stakeTx cfg paymaster info).value with
  | some e =>
    have threw : c₁.answer cfg.signer .fine
        (.writeContract paymaster (.addStake cfg.unstakeDelaySec) (cfg.stakeWei - info.stake)) =
        (.error e,c₁) := by
      change c₁.sendingValue (stakeTx cfg paymaster info) .fine = _
      rw [Chain.sendingValue,if_pos negative,refuses]
    have met : Script.always Fate.fine 0 = some .fine := rfl
    rw [sendAndWait,play_threw (play_threw (play_await met threw)),info_eq] at held
    exact absurd (held.stake wanted).1 (by simp [unlocked])
  | none =>
    have accepted : c₁.answer cfg.signer .fine
        (.writeContract paymaster (.addStake cfg.unstakeDelaySec) (cfg.stakeWei - info.stake)) =
        (.ok c₁.nextHash,c₁.accept (stakeTx cfg paymaster info)) := by
      change c₁.sendingValue (stakeTx cfg paymaster info) .fine = _
      rw [Chain.sendingValue,if_pos negative,refuses]
      rfl
    have first : stakeTx cfg paymaster info :: c₁.txs <:+
        ((sendAndWait paymaster (.addStake cfg.unstakeDelaySec) (cfg.stakeWei - info.stake)).play
          (host cfg.signer) (.always .fine) c₁).world.txs := by
      rw [sendAndWait,play_returned (play_await rfl accepted)]
      change (c₁.accept (stakeTx cfg paymaster info)).txs <:+ _
      exact play_grows _
    obtain ⟨later,all⟩ := first.trans play_bind_grows
    rw [grown,sent] at all
    have mine : later ++ stakeTx cfg paymaster info :: before = txs :=
      List.append_cancel_right (by simpa using all)
    have member : stakeTx cfg paymaster info ∈ txs := by simp [← mine]
    exact absurd (spent.nonnegative _ member) negative.not_ge

/-- The stake that is there can be topped up: none is wanted, or it is locked, or it is not more
than what is wanted. -/
def ToppedUp (cfg : PaymasterSetupConfig) (info : DepositInfo) : Prop :=
  cfg.stakeWei ≤ 0 ∨ info.staked = true ∨ info.stake ≤ cfg.stakeWei

theorem ToppedUp.enough (fine : ToppedUp cfg info) (short : Short cfg info) :
    0 ≤ cfg.stakeWei - info.stake := by
  obtain ⟨wanted,unlocked | low⟩ := short
  · rcases fine with none | locked | below
    · exact absurd wanted none.not_gt
    · simp [unlocked] at locked
    · omega
  · omega

/-- Every setup converges and spends on nothing it has not checked, exactly when the stake of the
paymaster it comes to can be topped up. -/
theorem setup_converges_iff (polls : Nat) (cfg : PaymasterSetupConfig) (c : Chain) :
    ((∀ paymaster c₁ w, Setting cfg c paymaster c₁ w →
        Converges polls cfg c paymaster (c.info cfg.entryPoint paymaster)) ∧
      ∀ script, ¬Vetted cfg c script →
        ((ensurePaymasterSetup polls cfg).play (host cfg.signer) script c).world.funded = c.funded) ↔
    ∀ paymaster c₁ w, Setting cfg c paymaster c₁ w →
      ToppedUp cfg (c.info cfg.entryPoint paymaster) := by
  constructor
  · rintro ⟨converges,_⟩ paymaster c₁ w setting
    by_contra otherwise
    rw [ToppedUp] at otherwise
    push Not at otherwise
    obtain ⟨wanted,unlocked,above⟩ := otherwise
    exact setting.diverges rfl wanted (by simpa using unlocked) above (converges _ _ _ setting)
  · intro fine
    refine ⟨fun paymaster c₁ w setting => ?_,fun script unvetted => ?_⟩
    · exact setting.converges rfl (fine _ _ _ setting).enough
    · exact not_not.mp fun moved => unvetted (funded_vetted moved)

/-! ### A paymaster whose stake was unlocked -/

def sampleConfig (stakeWei : Int) : PaymasterSetupConfig where
  chainId := 1
  entryPoint := 0x4337084D9E255Ff0702461CF8895CE9E3b5Ff108
  signer := 0x11
  mode := .standalone
  paymaster := some 0x22
  autoSetup := true
  stakeWei := stakeWei
  unstakeDelaySec := 86400
  depositWei := 0
  router := none
  gasMarginBps := none
  postOpGasOverhead := none
  stateFile := some "./.paymaster-1.json"
  rewardAccount := none
  requireRegistration := some false
  waitForRegistration := some true

theorem sampleCode_deployed : ([0x60] : Bytes) ≠ [] := by decide

def sampleWorker : Worker :=
  ⟨[0x60], sampleCode_deployed, 0x11, 0x11, 0x4337084D9E255Ff0702461CF8895CE9E3b5Ff108, zeroAddress,
    Paymaster.PAYMASTER_AND_DATA_LENGTH⟩

/-- The worker is at its address; the wallet throws on negative values. -/
def sampleChain (info : DepositInfo) : Chain where
  file := none
  chainId := 1
  worker address := if address = 0x22 then some sampleWorker else none
  info _ _ := info
  relayerRegistry _ := none
  workers _ _ := zeroAddress
  sent := []
  createAddress n := BitVec.ofNat 160 (0x100 + n)
  txHash n := BitVec.ofNat 256 n
  runtimeCode := ⟨[0x60], sampleCode_deployed⟩
  refusesNegative _ := some (.viem "IntegerOutOfRangeError")

theorem sampleSetting (stakeWei : Int) (info : DepositInfo) :
    Setting (sampleConfig stakeWei) (sampleChain info) 0x22 (sampleChain info) sampleWorker := by
  have known : Known (sampleConfig stakeWei) (sampleChain info) 0x22 := ⟨rfl,sampleWorker,rfl,rfl⟩
  have fits : Compatible (sampleConfig stakeWei) (sampleChain info) 0x22 sampleWorker :=
    ⟨rfl,rfl,rfl,rfl,rfl,by simp [sampleConfig,PaymasterSetupConfig.daoRouter],
      by simp [sampleConfig,expectedMaster,PaymasterSetupConfig.daoRouter]⟩
  exact ⟨rfl,rfl,.inl (by simp [sampleConfig]),known.found,fits,rfl⟩

/-- A fifth of an ether is staked and unlocked, and a tenth is wanted. -/
theorem unlocked_stake_diverges :
    Setting (sampleConfig 100000000000000000) (sampleChain ⟨0,false,200000000000000000⟩) 0x22
      (sampleChain ⟨0,false,200000000000000000⟩) sampleWorker ∧
    ¬Converges 0 (sampleConfig 100000000000000000) (sampleChain ⟨0,false,200000000000000000⟩) 0x22
      ⟨0,false,200000000000000000⟩ :=
  ⟨sampleSetting _ _,(sampleSetting _ _).diverges rfl (by decide) rfl (by decide)⟩

end TornadoRelayer.Setup
