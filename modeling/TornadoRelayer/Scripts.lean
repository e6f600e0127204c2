import TornadoRelayer.RelayerProcess

/-! Runs written out move by move. A move is checked as it is made, so that what a script
reaches is reachable, and a script can be evaluated. -/
namespace TornadoRelayer

open BigEndian EventLoop JavaScript RelayerService

/-! ### Scripts -/

inductive Move where
  | boot (service : RelayerService)
  | sign (op : RpcUserOperation)
  | status
  /-- The next operation or await of the request that runs. -/
  | advance
  | answer (i : Nat) (r : (query : Query) → Except Thrown query.Answer)
  | pass (e : Surroundings)

variable (platform : Platform) (kind : StoreKind) (budgeted : Prop) [Decidable budgeted]

abbrev RelayerConfiguration := Config serviceInterface Reply World

abbrev RelayerStep := Step serviceInterface Reply Surroundings Restart

/-- Whether this answers the query: a deposit must be that of some moment since, the
present one when the reading must be settled. -/
def answers (asked returned : World) (query : Query) (r : Except Thrown query.Answer) : Bool :=
  match query, r with
  | .getDeposit, .ok deposit => returned.chain.tails.any fun moment =>
      asked.chain.isSuffixOf moment && deposit == depositAfter returned.opening moment &&
        (decide ¬budgeted || moment == returned.chain)
  | _, _ => true

/-- Whether the issued operation may land now. -/
def mayInclude (w : World) (n charge : Nat) : Bool :=
  (w.chain.all fun e => match e with | .included m _ => m != n | .topUp _ => true) &&
    match w.issued[n]? with
    | some s => decide (w.now ≤ s.validUntil) && decide (charge ≤ s.maxGasCostWei)
    | none => false

def Move.toStep (c : RelayerConfiguration) : Move → Option RelayerStep
  | .boot service =>
    if c.world.service.isNone ∧ service.config.sponsorshipStore = kind ∧ kind ≠ .memory ∧
        (budgeted → 0 ≤ service.config.minDepositWei.getD 0) then
      some (.reset (.boot service false false))
    else none
  | .sign op => c.world.service.map fun service =>
    .call (do return .signed (← service.sign platform op ⟨none⟩))
  | .status => c.world.service.map fun service => .call (do return .status (← service.status))
  | .advance => some (.advance false)
  | .answer i r => (c.waiting i).bind fun t =>
    if answers budgeted t.asked c.world t.query (r t.query) then some (.resume i r) else none
  | .pass e =>
    match e with
    | .inclusion n charge => if mayInclude c.world n charge then some (.env e) else none
    | _ => some (.env e)

def play : List Move → RelayerConfiguration → Option RelayerConfiguration
  | [], c => some c
  | m :: moves, c => (m.toStep platform kind budgeted c).bind fun s =>
    (relayer.step s c).bind (play moves)

variable {platform : Platform} {kind : StoreKind} {budgeted : Prop} [Decidable budgeted]
  {c c' : RelayerConfiguration}

theorem answers_permitted {asked returned : World} {query : Query}
    {r : Except Thrown query.Answer} (answered : answers budgeted asked returned query r = true) :
    (permits platform kind budgeted).answer query asked returned r := by
  cases query with
  | getDeposit =>
    cases r with
    | error e => trivial
    | ok deposit =>
      obtain ⟨moment,tail,matching⟩ := List.any_eq_true.mp answered
      rw [Bool.and_eq_true,Bool.and_eq_true,List.isSuffixOf_iff_suffix,beq_iff_eq,Bool.or_eq_true,
        decide_eq_true_iff,beq_iff_eq] at matching
      obtain ⟨⟨since,value⟩,settled⟩ := matching
      obtain ⟨recent,split⟩ := (List.mem_tails _ _).mp tail
      refine ⟨recent,moment,split.symm,since,value,fun b n charge landed => ?_⟩
      have none : recent = [] := by
        rw [settled.resolve_left (not_not.mpr b)] at split
        exact List.append_left_eq_self.mp split
      rw [none] at landed
      contradiction
  | _ => trivial

theorem mayInclude_permitted {w : World} {n charge : Nat} (may : mayInclude w n charge = true) :
    w.MayInclude n charge := by
  rw [mayInclude,Bool.and_eq_true,List.all_eq_true] at may
  obtain ⟨fresh,valid⟩ := may
  refine ⟨fun charge' landed => ?_,?_⟩
  · simpa using fresh _ landed
  · split at valid
    · next s found =>
      rw [Bool.and_eq_true,decide_eq_true_iff,decide_eq_true_iff] at valid
      exact ⟨s,found,valid⟩
    · contradiction

theorem Move.toStep_permitted {m : Move} {s : RelayerStep} (made : m.toStep platform kind budgeted c = some s) :
    (permits platform kind budgeted).step c s := by
  cases m with
  | boot service =>
    rw [Move.toStep] at made
    split at made
    · next may =>
      cases made
      exact ⟨Option.isNone_iff_eq_none.mp may.1,may.2.1,fun memory => absurd memory may.2.2.1,
        may.2.2.2⟩
    · contradiction
  | sign op =>
    obtain ⟨service,up,rfl⟩ := Option.map_eq_some_iff.mp made
    exact ⟨service,up,.sign op _⟩
  | status =>
    obtain ⟨service,up,rfl⟩ := Option.map_eq_some_iff.mp made
    exact ⟨service,up,.status⟩
  | advance =>
    cases made
    trivial
  | answer i r =>
    obtain ⟨t,waiting,given⟩ := Option.bind_eq_some_iff.mp made
    split at given
    · next answered =>
      cases given
      intro t' waiting'
      cases waiting.symm.trans waiting'
      exact answers_permitted answered
    · contradiction
  | pass e =>
    cases e with
    | inclusion n charge =>
      simp only [Move.toStep] at made
      split at made
      · next may =>
        cases made
        exact mayInclude_permitted may
      · contradiction
    | tick =>
      cases made
      trivial
    | topUp =>
      cases made
      trivial

theorem play_reachable {start : RelayerConfiguration} {moves : List Move}
    (reach : Reachable relayer (permits platform kind budgeted) start c)
    (played : play platform kind budgeted moves c = some c') :
    Reachable relayer (permits platform kind budgeted) start c' := by
  induction moves generalizing c with
  | nil =>
    cases played
    exact reach
  | cons m moves ih =>
    obtain ⟨s,made,rest⟩ := Option.bind_eq_some_iff.mp played
    obtain ⟨after,stepped,rest⟩ := Option.bind_eq_some_iff.mp rest
    exact ih (.step reach (Move.toStep_permitted made) stepped) rest

/-! ### A service and two withdrawals -/

/-- An operand of an ABI call, with its length before it and zeros after it. -/
def abiBytes (data : Bytes) : Bytes :=
  toBytes 32 data.length ++ data ++ List.replicate ((32 - data.length % 32) % 32) 0

/-- `relayWithdraw(pool, proof, root, nullifierHash, recipient, relayer, fee)`. -/
def relayWithdrawCall (w : Withdrawal) : Bytes :=
  [0x27, 0x2b, 0x87, 0xb9] ++ toBytes 32 w.pool.toNat ++ toBytes 32 224 ++ w.root.bytes ++
    w.nullifierHash.bytes ++ toBytes 32 w.recipient.toNat ++ toBytes 32 w.relayer.toNat ++
    w.fee.bytes ++ abiBytes w.proof

/-- `execute(target, value, data)`. -/
def executeCall (call : DecodedCall) : Bytes :=
  [0xb6, 0x1d, 0x27, 0xf6] ++ toBytes 32 call.target.toNat ++ toBytes 32 call.value ++
    toBytes 32 96 ++ abiBytes call.data

def samplePaymaster : Address := 0x9a7e

def samplePool : Address := 0x12d6

def sampleAccount : Address := 0xacc0

/-- The withdrawal of the note with this nullifier hash. -/
def sampleWithdrawal (nullifierHash : Bytes32) : Withdrawal :=
  { pool := samplePool, proof := [], root := 1, nullifierHash, recipient := sampleAccount
    relayer := samplePaymaster, fee := 0x2386f26fc10000 }

def sampleCall (nullifierHash : Bytes32) : DecodedCall :=
  ⟨samplePaymaster, 0, relayWithdrawCall (sampleWithdrawal nullifierHash)⟩

/-- What the decoders make of the calls of these notes. -/
def samplePlatform (notes : List Bytes32) : Platform where
  decoder := {
    baseAccount := fun data => (notes.find? fun n => data = executeCall (sampleCall n)).map
      fun n => .execute (sampleCall n)
    paymaster := fun data => (notes.find? fun n => data = (sampleCall n).data).map
      fun n => .relayWithdraw (sampleWithdrawal n)
    tornadoInstance := fun _ => none }
  hashText := wholeBytesOnly
  decodeErrorString _ := none
  decodePaymasterError _ := none
  stringify _ := ""
  toISOString _ := .ok ""

def sampleService (store : StoreKind) (allowed : List Address) : RelayerService where
  config := {
    chainId := 1
    bundlerUrl := "http://localhost:4337"
    bundlerTimeoutMs := 20000
    entryPoint := 0x4337
    paymaster := samplePaymaster
    rewardAccount := none
    sponsorshipStore := store
    allowedSenderImplementations := allowed
    instances := [samplePool]
    serviceFeeBps := 30
    signatureTtlSec := 300
    minDepositWei := some 0
    maxSponsorshipGasWei := none }
  gasMarginBps := 1000
  instances := [⟨samplePool, 10 ^ 17, zeroAddress, 18, "ETH"⟩]
  registryMode := .noRouter
  relayerRegistry := zeroAddress

/-- A million gas at one gwei, from an account its authorization delegates. -/
def sampleOp (nullifierHash : Bytes32) (implementation : Address) : RpcUserOperation where
  sender := sampleAccount
  nonce := .value 0
  factory := none
  factoryData := none
  initCode := none
  callData := executeCall (sampleCall nullifierHash)
  callGasLimit := .value 600000
  verificationGasLimit := .value 150000
  preVerificationGas := .value 100000
  maxFeePerGas := .value (10 ^ 9)
  maxPriorityFeePerGas := .value (10 ^ 9)
  paymaster := none
  paymasterVerificationGasLimit := .value 60000
  paymasterPostOpGasLimit := .value 90000
  paymasterData := none
  signature := none
  eip7702Auth := some ⟨some (.valid implementation),none⟩

def sampleEstimate : Json := .object [("result", .object [("callGasLimit", .string "0x0"),
  ("verificationGasLimit", .string "0x0"), ("preVerificationGas", .string "0x0"),
  ("paymasterVerificationGasLimit", .string "0x0"), ("paymasterPostOpGasLimit", .string "0x0")])]

/-- Every check passes, at this deposit. -/
def sampleAnswers (deposit : Int) : (query : Query) → Except Thrown query.Answer
  | .tokenPerEth .. => .ok 0
  | .getCode _ => .ok (some (delegationCode SIMPLE_7702_ACCOUNT))
  | .getDeposit => .ok deposit
  | .workers .. => .ok samplePaymaster
  | .isSpentAndIsKnownRoot .. => .ok (false,true)
  | .simulateRelayWithdraw _ => .ok (.simulationResult true [])
  | .estimateUserOperationGas .. => .ok ⟨true,200,some sampleEstimate⟩
  | .signMessage _ => .ok DUMMY_SIGNATURE
  | .liveReads => .ok ⟨.ok 0,.ok deposit,.ok 0,.ok samplePaymaster⟩

/-- A request for a signature, up to its reading of the deposit. -/
def askDeposit (op : RpcUserOperation) : List Move :=
  .sign op :: List.replicate 4 .advance

/-- The rest of it, up to its return. -/
def passChecks (i : Nat) (deposit : Int) : List Move :=
  [.answer i (sampleAnswers deposit),.advance,.advance,
   .answer i (sampleAnswers deposit),.advance,.answer i (sampleAnswers deposit),.advance,.advance,
   .answer i (sampleAnswers deposit),.advance,.answer i (sampleAnswers deposit),.advance,
   .answer i (sampleAnswers deposit)]

end TornadoRelayer
