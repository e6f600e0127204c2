import TornadoRelayer.Paymaster
import TornadoRelayer.Service

/-! The relayer's `setup.ts`: before the service starts, the worker contract is deployed or found,
checked, staked, funded and registered. Reads, transactions and their receipts are awaited; the
state file is read and written at once. -/
namespace TornadoRelayer

open BigEndian EventLoop JavaScript
open RelayerService (truthy)

/-! ### Configuration -/

inductive PaymasterMode where
  | standalone
  | eip7702
  deriving DecidableEq, Repr

structure PaymasterSetupConfig where
  chainId : Int
  entryPoint : Address
  /-- The account of `signerKey`. -/
  signer : Address
  mode : PaymasterMode
  paymaster : Option Address
  autoSetup : Bool
  stakeWei : Int
  unstakeDelaySec : JsNumber
  depositWei : Int
  router : Option Address
  gasMarginBps : Option Int
  postOpGasOverhead : Option Int
  stateFile : Option String
  rewardAccount : Option Address
  requireRegistration : Option Bool
  waitForRegistration : Option Bool
  deriving DecidableEq

/-- `cfg.router && cfg.router !== zeroAddress`. -/
def PaymasterSetupConfig.daoRouter (cfg : PaymasterSetupConfig) : Option Address :=
  cfg.router.filter (· ≠ zeroAddress)

/-- The empty text is no path. -/
def PaymasterSetupConfig.statePath (cfg : PaymasterSetupConfig) : Option String :=
  cfg.stateFile.filter (· ≠ "")

/-! ### What the setup awaits and does -/

structure ConstructorArgs where
  entryPoint : Address
  verifyingSigner : Address
  gasMarginBps : Int
  postOpGasOverhead : Int
  deriving DecidableEq, Repr

inductive SetupCall where
  | setRouter (router : Address)
  | addStake (unstakeDelaySec : JsNumber)
  | deposit
  deriving DecidableEq, Repr

structure DepositInfo where
  deposit : Nat
  staked : Bool
  stake : Nat
  deriving DecidableEq, Repr

structure Receipt where
  success : Bool
  contractAddress : Option Address
  deriving DecidableEq, Repr

inductive AddressGetter where
  | entryPoint
  | verifyingSigner
  | router
  | owner
  | relayerRegistry
  deriving DecidableEq, Repr

inductive SetupQuery where
  | getCode (account : Address)
  | getChainId
  | PAYMASTER_AND_DATA_LENGTH (paymaster : Address)
  | readAddress (address : Address) (functionName : AddressGetter)
  | workers (registry paymaster : Address)
  | getDepositInfo (entryPoint paymaster : Address)
  | deployContract (args : ConstructorArgs)
  | writeContract (address : Address) (call : SetupCall) (value : Int)
  | waitForTransactionReceipt (hash : Bytes32)
  | setTimeout (ms : Nat)

@[reducible] def SetupQuery.Answer : SetupQuery → Type
  | .getCode _ => Option Bytes
  | .getChainId | .PAYMASTER_AND_DATA_LENGTH _ => Nat
  | .readAddress .. | .workers .. => Address
  | .getDepositInfo .. => DepositInfo
  | .deployContract _ | .writeContract .. => Bytes32
  | .waitForTransactionReceipt _ => Receipt
  | .setTimeout _ => Unit

inductive SetupOp where
  | existsSync (path : String)
  | readFileSync (path : String)
  | writeFileSync (path : String) (value : Json)

@[reducible] def SetupOp.Result : SetupOp → Type
  | .existsSync _ => Bool
  | .readFileSync _ => Except Thrown FileContent
  | .writeFileSync .. => Except Thrown Unit

@[reducible] def setupInterface : Interface :=
  ⟨SetupQuery, SetupQuery.Answer, SetupOp, SetupOp.Result, Thrown⟩

abbrev Setup (α : Type) := Program setupInterface α

namespace Setup

def await (query : SetupQuery) : Setup query.Answer := ask (I := setupInterface) query

def perform (op : SetupOp) : Setup op.Result := act (I := setupInterface) op

/-! ### The worker contract -/

def parseState : FileContent → Except Thrown Json
  | .malformed => .error (.error "Unexpected end of JSON input")
  | .json value => .ok value

/-- The file's contents, or the empty object. -/
def readState (cfg : PaymasterSetupConfig) : Setup Json :=
  match cfg.statePath with
  | none => pure (.object [])
  | some path => do
    let found : Bool ← perform (.existsSync path)
    if found then
      let text : Except Thrown FileContent ← perform (.readFileSync path)
      let content ← (text : Except Thrown FileContent)
      parseState content
    else pure (.object [])

/-- `state.paymaster`; a value that is no address fails where the chain is first asked for it. -/
def statePaymaster (state : Json) : Except Thrown (Option Address) :=
  match state with
  | .null => .error (.error "Cannot read properties of null (reading 'paymaster')")
  | state =>
    match state.field "paymaster" with
    | none => .ok none
    | some value =>
      if truthy value then
        match value with
        | .string text => (getAddress text).map some
        | _ => .error (.viem "InvalidAddressError")
      else .ok none

/-- `cfg.paymaster ?? state.paymaster`. -/
def candidate (cfg : PaymasterSetupConfig) (state : Json) : Except Thrown (Option Address) :=
  match cfg.paymaster with
  | some paymaster => .ok (some paymaster)
  | none => statePaymaster state

def checkCandidate (cfg : PaymasterSetupConfig) (candidate : Address) : Setup Address := do
  let code : Option Bytes ← await (.getCode candidate)
  if code.getD [] = [] then
    throw (.error s!"no contract at paymaster address {addressText candidate}")
  else do
    let signerOnChain : Address ← await (.readAddress candidate .verifyingSigner)
    if signerOnChain ≠ cfg.signer then
      throw (.error s!"paymaster {addressText candidate} expects signatures from {addressText signerOnChain}, this key is {addressText cfg.signer}")
    else pure candidate

def constructorArgs (cfg : PaymasterSetupConfig) : ConstructorArgs :=
  ⟨cfg.entryPoint, cfg.signer, cfg.gasMarginBps.getD 1000, cfg.postOpGasOverhead.getD 45000⟩

/-- The address a deployment's receipt reports. -/
def deployedAddress (hash : Bytes32) (receipt : Receipt) : Except Thrown Address :=
  match receipt.success, receipt.contractAddress with
  | true, some address => .ok address
  | _, _ => .error (.error s!"paymaster deployment {toHex hash.bytes} failed")

def wireRouter (cfg : PaymasterSetupConfig) (paymaster : Address) : Setup Unit :=
  match cfg.daoRouter with
  | none => pure ()
  | some router => do
    let tx : Bytes32 ← await (.writeContract paymaster (.setRouter router) 0)
    let _receipt : Receipt ← await (.waitForTransactionReceipt tx)
    pure ()

def stateJson (paymaster : Address) (deployTx : Bytes32) : Json :=
  .object [("paymaster", .string (addressText paymaster)), ("deployTx", .string (toHex deployTx.bytes))]

def writeState (cfg : PaymasterSetupConfig) (paymaster : Address) (deployTx : Bytes32) :
    Setup Unit :=
  match cfg.statePath with
  | none => pure ()
  | some path => do
    let written : Except Thrown Unit ←
      perform (.writeFileSync path (stateJson paymaster deployTx))
    liftM written

def deployWorker (cfg : PaymasterSetupConfig) : Setup Address := do
  let hash : Bytes32 ← await (.deployContract (constructorArgs cfg))
  let receipt : Receipt ← await (.waitForTransactionReceipt hash)
  let paymaster ← deployedAddress hash receipt
  wireRouter cfg paymaster
  writeState cfg paymaster hash
  pure paymaster

def ensureStandaloneContract (cfg : PaymasterSetupConfig) : Setup Address := do
  let state ← readState cfg
  let candidate ← candidate cfg state
  match candidate with
  | some candidate => checkCandidate cfg candidate
  | none =>
    if cfg.autoSetup then deployWorker cfg
    else throw (.error "no PAYMASTER_ADDRESS and AUTO_SETUP is off: deploy TornadoRelayerPaymaster (contracts/script/Deploy.s.sol) or enable AUTO_SETUP")

/-! ### Compatibility -/

/-- The first line of a message; the errors of viem are known by their names. -/
def describeError : Thrown → String
  | .error message | .validation message _ =>
    String.ofList (message.toList.takeWhile (· ≠ '\n'))
  | .viem name => name

/-- `read`: a getter that does not answer is reported as a paymaster of another kind. -/
def readPaymaster (paymaster : Address) (functionName : String) (query : SetupQuery) :
    Setup query.Answer :=
  tryCatch (await query) fun err => throw (.error s!"paymaster {addressText paymaster} does not answer {functionName}(): it is not a TornadoRelayerPaymaster this software can drive ({describeError err})")

def readMaster (paymaster router : Address) : Setup Address :=
  tryCatch (do
    let registry : Address ← await (.readAddress router .relayerRegistry)
    await (.workers registry paymaster))
  fun err => throw (.error s!"cannot read the worker -> master relationship of {addressText paymaster} from router {addressText router}: {describeError err} (nothing has been staked or deposited)")

/-- The master the registry has to name, when there is a registry to ask. -/
def expectedMaster (cfg : PaymasterSetupConfig) : Option Address :=
  cfg.daoRouter.bind fun _ => cfg.rewardAccount

def checkMaster (cfg : PaymasterSetupConfig) (paymaster router : Address) : Setup Unit :=
  match expectedMaster cfg with
  | none => pure ()
  | some rewardAccount => do
    let master : Address ← readMaster paymaster router
    if master ≠ zeroAddress ∧ master ≠ rewardAccount then
      throw (.error s!"the registry resolves paymaster {addressText paymaster} to master {addressText master}, but REWARD_ACCOUNT is {addressText rewardAccount}")
    else pure ()

/-- What the paymaster's getters must have answered. -/
def checkGetters (cfg : PaymasterSetupConfig) (paymaster : Address) (onChainLength : Nat)
    (entryPoint verifyingSigner router : Address) : Except Thrown Unit :=
  if onChainLength ≠ Paymaster.PAYMASTER_AND_DATA_LENGTH then
    .error (.error s!"paymaster {addressText paymaster} encodes paymasterAndData as {onChainLength} bytes, this software produces {Paymaster.PAYMASTER_AND_DATA_LENGTH}: it was deployed by a different release. Deploy a new worker contract (unset PAYMASTER_ADDRESS and remove the state file) and have your master register it.")
  else if entryPoint ≠ cfg.entryPoint then
    .error (.error s!"paymaster {addressText paymaster} is bound to EntryPoint {addressText entryPoint}, configured {addressText cfg.entryPoint}")
  else if verifyingSigner ≠ cfg.signer then
    .error (.error s!"paymaster {addressText paymaster} expects signatures from {addressText verifyingSigner}, this key is {addressText cfg.signer}")
  else match cfg.daoRouter with
    | none => .ok ()
    | some configured =>
      if router ≠ configured then
        .error (.error s!"paymaster {addressText paymaster} routes withdrawals through {addressText router}, configured TORNADO_ROUTER is {addressText configured}: a mismatch would burn the wrong relayer stake or bypass the registry")
      else .ok ()

def assertPaymasterCompatible (cfg : PaymasterSetupConfig) (paymaster : Address) : Setup Unit := do
  let code : Option Bytes ← await (.getCode paymaster)
  if code.getD [] = [] then
    throw (.error s!"no contract at paymaster address {addressText paymaster}")
  else do
    let chainId : Nat ← await .getChainId
    if (chainId : Int) ≠ cfg.chainId then
      throw (.error s!"RPC chain id {chainId} does not match configured {cfg.chainId}")
    else do
      -- The four reads of `Promise.all`; which of several failures is reported is left open.
      let onChainLength : Nat ← readPaymaster paymaster "PAYMASTER_AND_DATA_LENGTH"
        (.PAYMASTER_AND_DATA_LENGTH paymaster)
      let entryPoint : Address ← readPaymaster paymaster "entryPoint"
        (.readAddress paymaster .entryPoint)
      let verifyingSigner : Address ← readPaymaster paymaster "verifyingSigner"
        (.readAddress paymaster .verifyingSigner)
      let router : Address ← readPaymaster paymaster "router" (.readAddress paymaster .router)
      checkGetters cfg paymaster onChainLength entryPoint verifyingSigner router
      checkMaster cfg paymaster router

/-! ### Stake, deposit and registration -/

def sendAndWait (paymaster : Address) (call : SetupCall) (value : Int) : Setup Unit := do
  let hash : Bytes32 ← await (.writeContract paymaster call value)
  let _receipt : Receipt ← await (.waitForTransactionReceipt hash)
  pure ()

def keepStake (cfg : PaymasterSetupConfig) (paymaster : Address) (info : DepositInfo)
    (canAdmin : Prop) [Decidable canAdmin] : Setup Unit :=
  if cfg.stakeWei > 0 ∧ (info.staked = false ∨ info.stake < cfg.stakeWei) then
    let missing := cfg.stakeWei - info.stake
    if cfg.autoSetup = true ∧ canAdmin then
      sendAndWait paymaster (.addStake cfg.unstakeDelaySec) missing
    else pure ()
  else pure ()

def keepDeposit (cfg : PaymasterSetupConfig) (paymaster : Address) (info : DepositInfo) :
    Setup Unit :=
  if info.deposit < cfg.depositWei then
    let missing := cfg.depositWei - info.deposit
    if cfg.autoSetup = true then sendAndWait paymaster .deposit missing else pure ()
  else pure ()

/-- The registry is asked every fifteen seconds until the master has registered the paymaster:
here at most `polls` times, so that the runs of the loop are those of every bound. -/
def pollRegistry (cfg : PaymasterSetupConfig) (paymaster registry master : Address) :
    Nat → Setup Unit
  | 0 => throw (.error "still waiting")
  | polls + 1 => do
    let resolved : Address ← await (.workers registry paymaster)
    if resolved ≠ zeroAddress then
      if resolved ≠ master then
        throw (.error s!"registry resolves {addressText paymaster} to master {addressText resolved}, but REWARD_ACCOUNT is {addressText master}")
      else pure ()
    else if cfg.waitForRegistration = some true then do
      let _ : Unit ← await (.setTimeout 15000)
      pollRegistry cfg paymaster registry master polls
    else throw (.error s!"paymaster {addressText paymaster} is not a registered worker of {addressText master}. From the master key call RelayerRegistry({addressText registry}).registerWorker({addressText master}, {addressText paymaster}) — the same step as adding a worker to tornado-relayer.")

def ensureRegistered (polls : Nat) (cfg : PaymasterSetupConfig) (paymaster : Address) :
    Setup Unit := do
  let router : Address ← await (.readAddress paymaster .router)
  if router = zeroAddress then pure ()
  else do
    let registry : Address ← await (.readAddress router .relayerRegistry)
    pollRegistry cfg paymaster registry (cfg.rewardAccount.getD paymaster) polls

def register (polls : Nat) (cfg : PaymasterSetupConfig) (paymaster : Address) : Setup Unit :=
  if cfg.requireRegistration ≠ some false then ensureRegistered polls cfg paymaster else pure ()

/-- What follows once the contract is known. -/
def prepare (polls : Nat) (cfg : PaymasterSetupConfig) (paymaster : Address) : Setup Address := do
  assertPaymasterCompatible cfg paymaster
  let info : DepositInfo ← await (.getDepositInfo cfg.entryPoint paymaster)
  let owner : Address ← await (.readAddress paymaster .owner)
  keepStake cfg paymaster info (owner = cfg.signer)
  keepDeposit cfg paymaster info
  register polls cfg paymaster
  pure paymaster

def ensurePaymasterSetup (polls : Nat) (cfg : PaymasterSetupConfig) : Setup Address :=
  match cfg.mode with
  | .eip7702 => throw (.error "PAYMASTER_MODE=7702 is not supported in this release: the relayer-EOA-as-paymaster variant is experimental and its deployed implementations predate the current sponsorship-terms layout. Use the standalone worker contract (PAYMASTER_MODE=standalone).")
  | .standalone => do
    let paymaster ← ensureStandaloneContract cfg
    prepare polls cfg paymaster

end Setup
end TornadoRelayer
