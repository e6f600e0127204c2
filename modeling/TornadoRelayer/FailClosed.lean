import TornadoRelayer.Signing
import TornadoRelayer.SimulatedOperation

/-! A request that gets a signature has passed every check on an answer that says so: what
the log of its run then holds, and that no answer in it is an error. -/
namespace TornadoRelayer

open BigEndian EventLoop JavaScript RelayerService

/-! ### What start-up finds -/

structure RegistryInfo where
  mode : RegistryMode
  relayerRegistry : Address
  master : Address

/-- What `probeRegistry` makes of its reads; without a router there are none. -/
def probeRegistry (paymaster router relayerRegistry master : Address) : RegistryInfo :=
  if router = zeroAddress then ⟨.noRouter,zeroAddress,zeroAddress⟩
  else
    let mode := if master = zeroAddress then .unregistered else if master = paymaster then .master
      else .worker
    ⟨mode,relayerRegistry,master⟩

/-- What `create` says of the registration. -/
def checkRegistration (config : RelayerConfig) (allowUnregistered : Bool) (registry : RegistryInfo) :
    Except Thrown Unit :=
  let rewardAccount := config.rewardAccount.getD config.paymaster
  match registry.mode with
  | .noRouter =>
    if rewardAccount ≠ config.paymaster then .error (.error
      "REWARD_ACCOUNT other than the paymaster needs the paymaster to be a registry worker (router required)")
    else .ok ()
  | .unregistered =>
    if allowUnregistered then .ok () else .error (.error
      s!"paymaster {addressText config.paymaster} is not registered in RelayerRegistry {addressText registry.relayerRegistry}: register it as a master (ENS name + TORN stake, see registerAsRelayer) or as a worker of your relayer")
  | .master | .worker =>
    if registry.master ≠ rewardAccount then .error (.error
      s!"the registry resolves the paymaster to master {addressText registry.master} but REWARD_ACCOUNT is {addressText rewardAccount}: the proof must name the master or Router.withdraw reverts with \"only relayer\"")
    else .ok ()

/-- The service was created with these reads. -/
structure Created (service : RelayerService) (allowUnregistered : Bool)
    (router relayerRegistry master : Address) : Prop where
  mode : service.registryMode =
    (probeRegistry service.config.paymaster router relayerRegistry master).mode
  registry : service.relayerRegistry =
    (probeRegistry service.config.paymaster router relayerRegistry master).relayerRegistry
  accepted : checkRegistration service.config allowUnregistered
    (probeRegistry service.config.paymaster router relayerRegistry master) = .ok ()

/-! ### What each check says when it passes -/

variable {platform : Platform} {service : RelayerService} {op : RpcUserOperation}
  {log : ServiceLog}

theorem checkCap_ok {maxGasCostWei : Int} (ok : service.checkCap maxGasCostWei = .ok ()) :
    ∀ cap, service.config.maxSponsorshipGasWei = some cap → maxGasCostWei ≤ cap := by
  intro cap limited
  rw [checkCap,limited] at ok
  simp only at ok
  split at ok
  · contradiction
  · next within => exact not_lt.mp within

theorem checkResolved_ok {resolved : Address} (ok : service.checkResolved resolved = .ok ()) :
    resolved = service.rewardAccount := by
  rw [checkResolved] at ok
  split at ok
  · contradiction
  · next same => exact not_not.mp same

theorem checkSpentAndKnown_ok {read : Bool × Bool} (ok : checkSpentAndKnown read = .ok ()) :
    read = (false,true) := by
  obtain ⟨spent,known⟩ := read
  rw [checkSpentAndKnown] at ok
  cases spent <;> cases known <;> simp_all

theorem checkSimulation_ok {outcome : RelaySimulation}
    (ok : checkSimulation platform outcome = .ok ()) :
    ∃ result, outcome = .simulationResult true result := by
  cases outcome with
  | returned => contradiction
  | reverted errorName => contradiction
  | simulationResult success result =>
    cases success with
    | true => exact ⟨result,rfl⟩
    | false => contradiction

/-- A usable answer of the bundler. -/
structure Answers (res : HttpResponse) (result : Json) : Prop where
  ok : res.ok = true
  body : ∃ body, res.body = some body ∧ body.field "result" = some result ∧
    ∀ error, body.field "error" = some error → truthy error = false
  given : result ≠ .null

theorem readResult_ok {method : String} {body result : Json}
    (ok : bundlerResult.readResult method body = .ok result) :
    body.field "result" = some result ∧ result ≠ .null := by
  rw [bundlerResult.readResult] at ok
  split at ok
  · contradiction
  · contradiction
  · next given found =>
    cases ok
    exact ⟨found,given⟩

theorem bundlerResult_ok {method : String} {res : HttpResponse} {result : Json}
    (ok : bundlerResult platform method res = .ok result) : Answers res result := by
  rw [bundlerResult] at ok
  split at ok
  · contradiction
  next status =>
    cases parsed : res.body with
    | none =>
      rw [parsed] at ok
      contradiction
    | some body =>
      rw [parsed] at ok
      simp only at ok
      have status : res.ok = true := by simpa using status
      cases reported : body.field "error" with
      | none =>
        rw [reported] at ok
        obtain ⟨found,given⟩ := readResult_ok ok
        exact ⟨status,⟨body,parsed,found,by simp [reported]⟩,given⟩
      | some error =>
        rw [reported] at ok
        simp only at ok
        split at ok
        · contradiction
        next falsy =>
          obtain ⟨found,given⟩ := readResult_ok ok
          refine ⟨status,⟨body,parsed,found,?_⟩,given⟩
          rintro _ same
          rw [reported] at same
          cases same
          simpa using falsy

/-- The limits of the operation, by the names the bundler uses. -/
def gasLimits (gas : UserOpGas) : List (String × Nat) :=
  [("callGasLimit",gas.callGasLimit),("verificationGasLimit",gas.verificationGasLimit),
    ("preVerificationGas",gas.preVerificationGas),
    ("paymasterVerificationGasLimit",gas.paymasterVerificationGasLimit),
    ("paymasterPostOpGasLimit",gas.paymasterPostOpGasLimit)]

/-- Every limit is there, as a quantity, and within the operation's. -/
def Fits (result : Json) (gas : UserOpGas) : Prop :=
  ∀ field limit, (field,limit) ∈ gasLimits gas →
    ∃ v n, result.field field = some v ∧ quantity v = some n ∧ n ≤ limit

theorem gasField_ok {result : Json} {field : String} {n : Nat}
    (ok : gasField platform result field = .ok n) :
    ∃ v, result.field field = some v ∧ quantity v = some n := by
  rw [gasField] at ok
  split at ok
  · contradiction
  next v found =>
    split at ok
    · next read =>
      cases ok
      exact ⟨v,found,read⟩
    · contradiction

theorem tooSmall_nil {estimate : GasEstimate} {sent : UserOpGas} (none : tooSmall estimate sent = []) :
    estimate.callGasLimit ≤ sent.callGasLimit ∧
    estimate.verificationGasLimit ≤ sent.verificationGasLimit ∧
    estimate.preVerificationGas ≤ sent.preVerificationGas ∧
    estimate.paymasterVerificationGasLimit ≤ sent.paymasterVerificationGasLimit ∧
    estimate.paymasterPostOpGasLimit ≤ sent.paymasterPostOpGasLimit := by
  simpa [tooSmall,List.filterMap_eq_nil_iff] using none

theorem asGasEstimate_ok {result : Json} {estimate : GasEstimate}
    (ok : asGasEstimate platform result = .ok estimate) {gas : UserOpGas}
    (none : tooSmall estimate gas = []) : Fits result gas := by
  obtain ⟨call,verification,preVerification,paymasterVerification,postOp⟩ := tooSmall_nil none
  unfold asGasEstimate at ok
  split at ok
  · obtain ⟨_,read₁,ok⟩ := bind_ok_iff.mp ok
    obtain ⟨_,read₂,ok⟩ := bind_ok_iff.mp ok
    obtain ⟨_,read₃,ok⟩ := bind_ok_iff.mp ok
    obtain ⟨_,read₄,ok⟩ := bind_ok_iff.mp ok
    obtain ⟨_,read₅,ok⟩ := bind_ok_iff.mp ok
    cases ok
    intro field limit member
    simp only [gasLimits,List.mem_cons,Prod.mk.injEq,List.not_mem_nil,or_false] at member
    rcases member with ⟨rfl,rfl⟩ | ⟨rfl,rfl⟩ | ⟨rfl,rfl⟩ | ⟨rfl,rfl⟩ | ⟨rfl,rfl⟩
    · obtain ⟨v,found,read⟩ := gasField_ok read₁
      exact ⟨v,_,found,read,call⟩
    · obtain ⟨v,found,read⟩ := gasField_ok read₂
      exact ⟨v,_,found,read,verification⟩
    · obtain ⟨v,found,read⟩ := gasField_ok read₃
      exact ⟨v,_,found,read,preVerification⟩
    · obtain ⟨v,found,read⟩ := gasField_ok read₄
      exact ⟨v,_,found,read,paymasterVerification⟩
    · obtain ⟨v,found,read⟩ := gasField_ok read₅
      exact ⟨v,_,found,read,postOp⟩
  · contradiction

theorem checkEstimate_ok {result : Json} {gas : UserOpGas} (read : readGas op = .ok gas)
    (ok : checkEstimate platform op result = .ok ()) : Fits result gas := by
  rw [checkEstimate] at ok
  split at ok
  · contradiction
  next estimate parsed =>
    obtain ⟨_,again,ok⟩ := bind_ok_iff.mp ok
    cases read.symm.trans again
    simp only at ok
    split at ok
    · contradiction
    next none =>
      exact asGasEstimate_ok parsed (List.length_eq_zero_iff.mp (Nat.eq_zero_of_not_pos none))

/-! ### What a run that passes has read -/

theorem runs_releasing {p : Async α} {k token : String} {wrap : Thrown → Thrown} {a : α}
    (ran : ServiceRuns (releasing k token wrap p) log (.ok a)) : ServiceRuns p log (.ok a) :=
  runs_catching_ok ran fun _ => fails_bind fun _ => fails_error _

theorem assertDepositCovers_runs {cost : Int} {now : JsNumber}
    (ran : ServiceRuns (service.assertDepositCovers platform cost now) log (.ok ())) :
    service.checkCap cost = .ok () ∧ ∃ deposit notes,
      log = [.answered Query.getDeposit (.ok deposit),.performed (Op.outstanding now) notes] ∧
      service.checkBudget platform deposit notes = .ok () := by
  obtain ⟨_,_,_,capping,reading,rfl⟩ := runs_bind_ok ran
  obtain ⟨rfl,capped⟩ := runs_done capping
  obtain ⟨deposit,_,_,asked,listing,rfl⟩ := runs_bind_ok reading
  rw [runs_ask (runs_catching_ok asked fun _ => fails_error _)]
  obtain ⟨notes,_,_,listed,checking,rfl⟩ := runs_bind_ok listing
  obtain ⟨_,same,rfl⟩ := runs_act listed
  cases same
  obtain ⟨rfl,covered⟩ := runs_done checking
  exact ⟨capped.symm,deposit,notes,rfl,covered.symm⟩

theorem assertRegistrationCurrent_runs
    (ran : ServiceRuns service.assertRegistrationCurrent log (.ok ())) :
    service.registryMode = .noRouter ∨ service.registryMode = .unregistered ∨
      .answered (Query.workers service.relayerRegistry service.config.paymaster)
        (.ok service.rewardAccount) ∈ log := by
  rw [assertRegistrationCurrent] at ran
  split at ran
  · next unread => exact unread.imp_right .inl
  · obtain ⟨resolved,_,_,asked,checking,rfl⟩ := runs_bind_ok ran
    rw [runs_ask (runs_catching_ok asked fun _ => fails_error _)]
    obtain ⟨rfl,current⟩ := runs_done checking
    rw [← checkResolved_ok current.symm]
    exact .inr (.inr (by simp))

theorem assertWithdrawSimulates_runs {w : Withdrawal}
    (ran : ServiceRuns (assertWithdrawSimulates platform w) log (.ok ())) : ∃ result,
      log = [.answered (Query.isSpentAndIsKnownRoot w.pool w.nullifierHash w.root) (.ok (false,true)),
        .answered (Query.simulateRelayWithdraw w) (.ok (.simulationResult true result))] := by
  obtain ⟨read,_,_,asked,checking,rfl⟩ := runs_bind_ok ran
  rw [runs_ask asked]
  obtain ⟨_,_,_,checked,trying,rfl⟩ := runs_bind_ok checking
  obtain ⟨rfl,unspent⟩ := runs_done checked
  obtain ⟨outcome,_,_,tried,judging,rfl⟩ := runs_bind_ok trying
  rw [runs_ask (runs_catching_ok tried fun _ => fails_error _)]
  obtain ⟨rfl,passed⟩ := runs_done judging
  obtain ⟨result,rfl⟩ := checkSimulation_ok passed.symm
  rw [checkSpentAndKnown_ok unspent.symm]
  exact ⟨result,rfl⟩

theorem assertBundlerSimulates_runs {refundTo : Option Address}
    (ran : ServiceRuns (service.assertBundlerSimulates platform op refundTo) log (.ok ())) :
    ∃ simulated override res result,
      .answered (Query.estimateUserOperationGas simulated service.config.entryPoint override)
        (.ok res) ∈ log ∧ Answers res result ∧ checkEstimate platform op result = .ok () := by
  obtain ⟨_,_,_,_,clocked,rfl⟩ := runs_bind_ok ran
  obtain ⟨now,_,_,_,stubbed,rfl⟩ := runs_bind_ok clocked
  obtain ⟨paymasterData,_,_,_,simulating,rfl⟩ := runs_bind_ok stubbed
  obtain ⟨simulated,_,_,_,overriding,rfl⟩ := runs_bind_ok simulating
  obtain ⟨override,_,_,_,estimating,rfl⟩ := runs_bind_ok overriding
  obtain ⟨result,_,_,estimated,checking,rfl⟩ := runs_bind_ok estimating
  obtain ⟨res,_,_,asked,reading,rfl⟩ :=
    runs_bind_ok (runs_catching_ok estimated fun _ => fails_error _)
  rw [runs_ask (runs_catching_ok asked fun _ => fails_error _)]
  obtain ⟨rfl,answered⟩ := runs_done reading
  obtain ⟨rfl,fits⟩ := runs_done checking
  refine ⟨simulated,override,res,result,?_,
    bundlerResult_ok answered.symm,fits.symm⟩
  simp only [List.mem_append,List.mem_singleton,true_or,or_true]

/-! ### No failed answer gets through -/

abbrev ServiceStrict (p : Async α) : Prop := Program.Strict (I := serviceInterface) p

theorem rateFor_strict (info : InstanceInfo) : ServiceStrict (rateFor info) := by
  rw [rateFor]
  split
  · exact strict_done _
  · exact strict_catching (strict_ask _) fun _ => fails_error _

theorem nowSeconds_strict : ServiceStrict nowSeconds :=
  strict_bind (strict_act _) fun _ => strict_done _

theorem resolveSenderImplementation_strict :
    ServiceStrict (service.resolveSenderImplementation op) := by
  rw [resolveSenderImplementation]
  split
  · exact strict_done _
  · exact strict_bind (strict_ask _) fun _ => strict_bind (strict_done _) fun _ => strict_done _

theorem assertDepositCovers_strict {cost : Int} {now : JsNumber} :
    ServiceStrict (service.assertDepositCovers platform cost now) :=
  strict_bind (strict_done _) fun _ =>
    strict_bind (strict_catching (strict_ask _) fun _ => fails_error _) fun _ =>
    strict_bind (strict_act _) fun _ => strict_done _

theorem assertRegistrationCurrent_strict : ServiceStrict service.assertRegistrationCurrent := by
  rw [assertRegistrationCurrent]
  split
  · exact strict_done _
  · exact strict_bind (strict_catching (strict_ask _) fun _ => fails_error _) fun _ => strict_done _

theorem assertWithdrawSimulates_strict {w : Withdrawal} :
    ServiceStrict (assertWithdrawSimulates platform w) :=
  strict_bind (strict_ask _) fun _ => strict_bind (strict_done _) fun _ =>
    strict_bind (strict_catching (strict_ask _) fun _ => fails_error _) fun _ => strict_done _

theorem stateOverride_strict : ServiceStrict (stateOverride op) := by
  rw [stateOverride]
  split
  · exact strict_done _
  · exact strict_bind (strict_ask _) fun _ => strict_done _

theorem assertBundlerSimulates_strict {refundTo : Option Address} :
    ServiceStrict (service.assertBundlerSimulates platform op refundTo) := by
  have estimate (simulated : RpcUserOperation) (override : Option (Address × Bytes)) :
      ServiceStrict (service.estimateUserOperationGas platform simulated override) :=
    strict_bind (strict_catching (strict_ask _) fun _ => fails_error _) fun _ => strict_done _
  exact strict_bind (strict_done _) fun _ => strict_bind nowSeconds_strict fun _ =>
    strict_bind (strict_done _) fun _ => strict_bind (strict_done _) fun _ =>
    strict_bind stateOverride_strict fun _ =>
    strict_bind (strict_catching (estimate _ _) fun _ => fails_error _) fun _ => strict_done _

theorem checkReserved_strict {r : CheckedRequest} {now : JsNumber} :
    ServiceStrict (service.checkReserved platform op r now) :=
  strict_bind resolveSenderImplementation_strict fun _ =>
    strict_bind assertDepositCovers_strict fun _ =>
    strict_bind assertRegistrationCurrent_strict fun _ =>
    strict_bind assertWithdrawSimulates_strict fun _ =>
    strict_bind assertBundlerSimulates_strict fun _ => strict_done _

theorem releasing_strict {p : Async α} {k token : String} {wrap : Thrown → Thrown}
    (strict : ServiceStrict p) : ServiceStrict (releasing k token wrap p) :=
  strict_catching strict fun _ => fails_bind fun _ => fails_error _

theorem commit_strict {store : StoreKind} {k token : String} :
    ServiceStrict (commit store k token) := by
  have persist (next : SponsoredNote) : ServiceStrict (persistSigned store k next) := by
    cases store with
    | memory => exact strict_done _
    | file path =>
      exact strict_bind (strict_act _) fun _ => strict_bind (strict_act _) fun _ =>
        strict_bind (strict_done _) fun _ => strict_bind (strict_act _) fun _ => strict_done _
  refine strict_bind (strict_act _) fun held => ?_
  split
  · split
    · exact strict_bind (persist _) fun _ => strict_act _
    · exact strict_done _
  · exact strict_done _

theorem signReserved_strict {r : CheckedRequest} {tokenPerEth : Int} {now : JsNumber}
    {token : String} : ServiceStrict (service.signReserved platform op r tokenPerEth now token) :=
  strict_bind (releasing_strict checkReserved_strict) fun _ => strict_bind (strict_done _) fun _ =>
    strict_bind (strict_done _) fun _ => strict_bind (releasing_strict (strict_ask _)) fun _ =>
    strict_bind (releasing_strict commit_strict) fun _ => strict_bind (strict_done _) fun _ =>
    strict_done _

theorem sign_strict {context : SponsorContext} :
    ServiceStrict (service.sign platform op context) := by
  refine strict_bind (strict_done _) fun _ => strict_bind (rateFor_strict _) fun _ =>
    strict_bind (strict_done _) fun _ => strict_bind nowSeconds_strict fun _ =>
    strict_bind (strict_act _) fun _ => strict_bind (strict_done _) fun _ =>
    strict_bind (strict_act _) fun reserved => ?_
  cases reserved with
  | error held => exact strict_done _
  | ok token => exact signReserved_strict

/-! ### What a signature has been through -/

/-- What the checks that need no reading establish. -/
structure CheckedFrom (platform : Platform) (service : RelayerService) (op : RpcUserOperation)
    (r : CheckedRequest) : Prop where
  sponsoring : ∃ calls, decodeAccountCalls platform.decoder op.callData = .ok calls ∧
    findSponsoringWithdraw platform.decoder calls (service.rules op.sender) = .ok r.w
  info : service.instanceOf r.w.pool = .ok r.info
  fee : r.w.fee.toNat ≤ r.info.denomination
  gas : readGas op = .ok r.gas
  maxFeePerGas : q op.maxFeePerGas "maxFeePerGas" = .ok r.maxFeePerGas
  priority : ∃ priority, q op.maxPriorityFeePerGas "maxPriorityFeePerGas" = .ok priority ∧
    priority ≤ r.maxFeePerGas

theorem throw_or_ok {c : Prop} [Decidable c] {e : Thrown} {f : α → Except Thrown β}
    {x : Except Thrown β} {b : β} (ok : (if c then throw e >>= f else x) = .ok b) :
    ¬c ∧ x = .ok b := by
  split at ok
  · cases ok
  · next passed => exact ⟨passed,ok⟩

theorem checkRequest_ok {context : SponsorContext} {r : CheckedRequest}
    (ok : service.checkRequest platform op context = .ok r) :
    CheckedFrom platform service op r := by
  unfold checkRequest at ok
  obtain ⟨_,ok⟩ := throw_or_ok ok
  split at ok
  all_goals
    obtain ⟨_,_,ok⟩ := bind_ok_iff.mp ok
    obtain ⟨calls,decoded,ok⟩ := bind_ok_iff.mp ok
    obtain ⟨w,found,ok⟩ := bind_ok_iff.mp ok
    obtain ⟨info,served,ok⟩ := bind_ok_iff.mp ok
    obtain ⟨within,ok⟩ := throw_or_ok ok
    obtain ⟨gas,read,ok⟩ := bind_ok_iff.mp ok
    obtain ⟨maxFeePerGas,price,ok⟩ := bind_ok_iff.mp ok
    obtain ⟨priority,tip,ok⟩ := bind_ok_iff.mp ok
    obtain ⟨least,ok⟩ := throw_or_ok ok
    cases ok
    exact ⟨⟨calls,decoded,found⟩,served,not_lt.mp within,read,price,priority,tip,not_lt.mp least⟩

theorem checkFee_ok {r : CheckedRequest} {rate : Int} (ok : service.checkFee r rate = .ok ()) :
    service.floorFee r rate ≤ r.w.fee.toNat := by
  rw [checkFee] at ok
  split at ok
  · contradiction
  · next enough => exact not_lt.mp enough

/-- The checks that a log shows as passed. -/
structure Vouched (service : RelayerService) (allowUnregistered : Bool) (router master : Address)
    (op : RpcUserOperation) (r : CheckedRequest) (log : ServiceLog) : Prop where
  deposit : ∃ deposit now notes committed, .answered Query.getDeposit (.ok deposit) ∈ log ∧
    .performed (Op.outstanding now) notes ∈ log ∧ committedGasCost notes = .known committed ∧
    committed + service.config.minDepositWei.getD 0 ≤ deposit
  cap : ∀ cap, service.config.maxSponsorshipGasWei = some cap → (r.maxGasCostWei : Int) ≤ cap
  registered : router = zeroAddress ∨ (master = zeroAddress ∧ allowUnregistered = true) ∨
    .answered (Query.workers service.relayerRegistry service.config.paymaster)
      (.ok service.rewardAccount) ∈ log
  unspent : .answered (Query.isSpentAndIsKnownRoot r.w.pool r.w.nullifierHash r.w.root)
    (.ok (false,true)) ∈ log
  dryRun : ∃ result, .answered (Query.simulateRelayWithdraw r.w.toWithdrawal)
    (.ok (.simulationResult true result)) ∈ log
  bundler : ∃ simulated override res result,
    .answered (Query.estimateUserOperationGas simulated service.config.entryPoint override)
      (.ok res) ∈ log ∧ Answers res result ∧ Fits result r.gas

variable {allowUnregistered : Bool} {router relayerRegistry master : Address} {r : CheckedRequest}

/-- The registry goes unread only as start-up left it. -/
theorem Created.unread (created : Created service allowUnregistered router relayerRegistry master)
    (mode : service.registryMode = .noRouter ∨ service.registryMode = .unregistered) :
    router = zeroAddress ∨ (master = zeroAddress ∧ allowUnregistered = true) := by
  have accepted := created.accepted
  rw [created.mode] at mode
  by_cases direct : router = zeroAddress
  · exact .inl direct
  simp only [probeRegistry,if_neg direct] at mode accepted
  by_cases none : master = zeroAddress
  · simp only [none,if_true,checkRegistration] at accepted
    split at accepted
    · next allowed => exact .inr ⟨none,allowed⟩
    · contradiction
  · rw [if_neg none] at mode
    split at mode <;> simp at mode

theorem Vouched.mono {later : ServiceLog}
    (vouched : Vouched service allowUnregistered router master op r log) (sub : log ⊆ later) :
    Vouched service allowUnregistered router master op r later := by
  obtain ⟨deposit,now,notes,committed,read,listed,known,enough⟩ := vouched.deposit
  obtain ⟨result,dryRun⟩ := vouched.dryRun
  obtain ⟨simulated,override,res,estimate,asked,answered,fits⟩ := vouched.bundler
  exact ⟨⟨deposit,now,notes,committed,sub read,sub listed,known,enough⟩,vouched.cap,
    vouched.registered.imp_right (Or.imp_right fun member => sub member),sub vouched.unspent,
    ⟨result,sub dryRun⟩,⟨simulated,override,res,estimate,sub asked,answered,fits⟩⟩

/-- The bundler's estimate was usable and within the limits. -/
def Estimated (platform : Platform) (service : RelayerService) (op : RpcUserOperation)
    (log : ServiceLog) : Prop :=
  ∃ simulated override res result,
    .answered (Query.estimateUserOperationGas simulated service.config.entryPoint override)
      (.ok res) ∈ log ∧ Answers res result ∧ checkEstimate platform op result = .ok ()

/-- The checks of a reserved note, each with the part of the log that is its own. -/
theorem checkReserved_parts {now : JsNumber} {implementation : Address}
    (ran : ServiceRuns (service.checkReserved platform op r now) log (.ok implementation)) :
    ∃ log₁ log₂ log₃ log₄ log₅, log = log₁ ++ (log₂ ++ (log₃ ++ (log₄ ++ log₅))) ∧
      ServiceRuns (service.resolveSenderImplementation op) log₁ (.ok implementation) ∧
      ServiceRuns (service.assertDepositCovers platform r.maxGasCostWei now) log₂ (.ok ()) ∧
      ServiceRuns service.assertRegistrationCurrent log₃ (.ok ()) ∧
      ServiceRuns (assertWithdrawSimulates platform r.w.toWithdrawal) log₄ (.ok ()) ∧
      Estimated platform service op log₅ := by
  obtain ⟨resolved,log₁,_,resolves,covering,rfl⟩ := runs_bind_ok ran
  obtain ⟨_,log₂,_,covers,registering,rfl⟩ := runs_bind_ok covering
  obtain ⟨_,log₃,_,registers,relaying,rfl⟩ := runs_bind_ok registering
  obtain ⟨_,log₄,_,relays,bundling,rfl⟩ := runs_bind_ok relaying
  obtain ⟨_,log₅,_,bundles,returns,rfl⟩ := runs_bind_ok bundling
  obtain ⟨rfl,returned⟩ := runs_done returns
  cases returned
  rw [List.append_nil]
  exact ⟨log₁,log₂,log₃,log₄,log₅,rfl,resolves,covers,registers,relays,
    assertBundlerSimulates_runs bundles⟩

theorem checkReserved_runs {now : JsNumber} {implementation : Address}
    (created : Created service allowUnregistered router relayerRegistry master)
    (gas : readGas op = .ok r.gas)
    (ran : ServiceRuns (service.checkReserved platform op r now) log (.ok implementation)) :
    Vouched service allowUnregistered router master op r log := by
  obtain ⟨log₁,_,log₃,_,log₅,rfl,_,covers,registers,relays,bundler⟩ := checkReserved_parts ran
  obtain ⟨capped,deposit,notes,rfl,covered⟩ := assertDepositCovers_runs covers
  obtain ⟨committed,known,enough⟩ := checkBudget_ok covered
  obtain ⟨dryRun,rfl⟩ := assertWithdrawSimulates_runs relays
  obtain ⟨simulated,override,res,result,asked,answered,fits⟩ := bundler
  refine ⟨⟨deposit,now,notes,committed,by simp,by simp,known,enough⟩,checkCap_ok capped,?_,by simp,
    ⟨dryRun,by simp⟩,⟨simulated,override,res,result,by simp [asked],answered,checkEstimate_ok gas fits⟩⟩
  rcases assertRegistrationCurrent_runs registers with direct | unregistered | read
  · exact (created.unread (.inl direct)).imp_right .inl
  · exact (created.unread (.inr unregistered)).imp_right .inl
  · exact .inr (.inr (by simp [read]))

theorem signedTerms_fee {tokenPerEth : Int} {validUntil : JsNumber} {implementation : Address}
    {terms : FeeTerms}
    (built : service.signedTerms r tokenPerEth validUntil implementation = .ok terms) :
    terms.fee = r.w.fee.toNat := by
  obtain ⟨_,_,returned⟩ := bind_ok_iff.mp built
  cases returned
  rfl

/-- What is returned after the reservation has passed its checks, and names the operation and
the request's terms. -/
theorem signReserved_runs {tokenPerEth : Int} {now : JsNumber} {token : String} {issued : Issued}
    (ran : ServiceRuns (service.signReserved platform op r tokenPerEth now token) log (.ok issued)) :
    ∃ checks implementation, checks ⊆ log ∧
      ServiceRuns (service.checkReserved platform op r now) checks (.ok implementation) ∧
      issued.op = op ∧ ∃ validUntil,
        service.signedTerms r tokenPerEth validUntil implementation = .ok issued.terms := by
  obtain ⟨implementation,_,_,checks,building,rfl⟩ := runs_bind_ok ran
  obtain ⟨terms,_,_,builds,hashing,rfl⟩ := runs_bind_ok building
  obtain ⟨hash,_,_,_,signing,rfl⟩ := runs_bind_ok hashing
  obtain ⟨signature,_,_,_,committing,rfl⟩ := runs_bind_ok signing
  obtain ⟨_,_,_,_,encoding,rfl⟩ := runs_bind_ok committing
  obtain ⟨paymasterData,_,_,_,returns,rfl⟩ := runs_bind_ok encoding
  obtain ⟨_,built⟩ := runs_done builds
  obtain ⟨_,returned⟩ := runs_done returns
  obtain rfl := Except.ok.inj returned
  exact ⟨_,implementation,List.subset_append_left ..,runs_releasing checks,rfl,_,built.symm⟩

theorem rateFor_runs {info : InstanceInfo} {rate : Int}
    (ran : ServiceRuns (rateFor info) log (.ok rate)) :
    (info.token = zeroAddress ∧ rate = 0) ∨
      .answered (Query.tokenPerEth info.token info.decimals) (.ok rate) ∈ log := by
  rw [rateFor] at ran
  split at ran
  · next eth =>
    obtain ⟨_,same⟩ := runs_done ran
    cases same
    exact .inl ⟨eth,rfl⟩
  · rw [runs_ask (runs_catching_ok ran fun _ => fails_error _)]
    exact .inr (by simp)

/-- A request that returns a signature has passed the checks before its reservation and after. -/
theorem sign_runs {context : SponsorContext} {issued : Issued}
    (ran : ServiceRuns (service.sign platform op context) log (.ok issued)) :
    ∃ r rate now prices checks implementation validUntil, prices ⊆ log ∧ checks ⊆ log ∧
      service.checkRequest platform op context = .ok r ∧
      ServiceRuns (rateFor r.info) prices (.ok rate) ∧ service.checkFee r rate = .ok () ∧
      ServiceRuns (service.checkReserved platform op r now) checks (.ok implementation) ∧
      issued.op = op ∧ service.signedTerms r rate validUntil implementation = .ok issued.terms := by
  obtain ⟨r,_,_,checking,pricing,rfl⟩ := runs_bind_ok ran
  obtain ⟨rate,prices,_,priced,weighing,rfl⟩ := runs_bind_ok pricing
  obtain ⟨_,_,_,weighs,timing,rfl⟩ := runs_bind_ok weighing
  obtain ⟨now,_,_,_,pruning,rfl⟩ := runs_bind_ok timing
  obtain ⟨_,_,_,_,numbering,rfl⟩ := runs_bind_ok pruning
  obtain ⟨nonce,_,_,_,reserving,rfl⟩ := runs_bind_ok numbering
  obtain ⟨reserved,_,_,_,signing,rfl⟩ := runs_bind_ok reserving
  obtain ⟨_,checked⟩ := runs_done checking
  obtain ⟨_,weighed⟩ := runs_done weighs
  cases reserved with
  | error held =>
    obtain ⟨_,thrown⟩ := runs_done signing
    cases thrown
  | ok token =>
    obtain ⟨checks,implementation,sub,passes,same,validUntil,built⟩ := signReserved_runs signing
    refine ⟨r,rate,now,prices,checks,implementation,validUntil,?_,?_,checked.symm,priced,weighed.symm,
      passes,same,built⟩
    · exact fun e member => by simp [member]
    · exact fun e member => by simp [sub member]

/-- Whatever the node, the bundler, the signer and the store answer: a request that returns a
signature was answered without an error throughout, by answers that pass every check, and the
fee it signs lies between the floor and the denomination. -/
theorem signing_fails_closed {context : SponsorContext} {issued : Issued}
    (created : Created service allowUnregistered router relayerRegistry master)
    (ran : ServiceRuns (service.sign platform op context) log (.ok issued)) :
    issued.op = op ∧ (∀ query e, .answered query (.error e) ∉ log) ∧
    ∃ r rate, CheckedFrom platform service op r ∧
      Vouched service allowUnregistered router master op r log ∧
      ((r.info.token = zeroAddress ∧ rate = 0) ∨
        .answered (Query.tokenPerEth r.info.token r.info.decimals) (.ok rate) ∈ log) ∧
      issued.terms.fee = r.w.fee.toNat ∧ service.floorFee r rate ≤ issued.terms.fee ∧
      issued.terms.fee ≤ r.info.denomination := by
  obtain ⟨r,rate,now,prices,checks,implementation,validUntil,priceLog,checkLog,checked,priced,weighed,
    passes,same,built⟩ := sign_runs ran
  have request := checkRequest_ok checked
  have fee := signedTerms_fee built
  refine ⟨same,sign_strict log issued ran,r,rate,request,?_,?_,fee,?_,?_⟩
  · exact (checkReserved_runs created request.gas passes).mono checkLog
  · exact (rateFor_runs priced).imp_right fun member => priceLog member
  · exact fee ▸ checkFee_ok weighed
  · exact fee ▸ Int.ofNat_le.mpr request.fee

/-- The service of a registered master, and a request that it signs. -/
def masterService : RelayerService :=
  { sampleService .memory [SIMPLE_7702_ACCOUNT] with registryMode := .master, relayerRegistry := 7 }

theorem master_signs : ∃ log issued,
    ServiceRuns (masterService.sign (samplePlatform [1]) (sampleOp 1 SIMPLE_7702_ACCOUNT) ⟨none⟩) log
      (.ok issued) := by
  have ran := runs_trace (I := serviceInterface) (sampleAnswers (10 ^ 15)) sampleResults
    (masterService.sign (samplePlatform [1]) (sampleOp 1 SIMPLE_7702_ACCOUNT) ⟨none⟩)
  have signs : ((masterService.sign (samplePlatform [1]) (sampleOp 1 SIMPLE_7702_ACCOUNT)
      ⟨none⟩).eval (I := serviceInterface) (sampleAnswers (10 ^ 15)) sampleResults).toBool = true := by
    decide +kernel
  obtain ⟨issued,returned⟩ := ok_of_toBool signs
  rw [returned] at ran
  exact ⟨_,issued,ran⟩

theorem signing_fails_closed_master : ∃ log issued,
    ServiceRuns (masterService.sign (samplePlatform [1]) (sampleOp 1 SIMPLE_7702_ACCOUNT) ⟨none⟩) log
      (.ok issued) ∧
    ∃ r, Vouched masterService false 8 samplePaymaster (sampleOp 1 SIMPLE_7702_ACCOUNT) r log := by
  obtain ⟨log,issued,ran⟩ := master_signs
  have created : Created masterService false 8 7 samplePaymaster := ⟨by decide,by decide,by decide⟩
  obtain ⟨_,_,r,_,_,vouched,_⟩ := signing_fails_closed created ran
  exact ⟨log,issued,ran,r,vouched⟩

end TornadoRelayer
