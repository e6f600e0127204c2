import TornadoRelayer.EventLoop
import TornadoRelayer.Price
import TornadoRelayer.Store
import TornadoRelayer.Validate

/-! The relayer's `service.ts`, and what it reads of `config.ts`: the checks a request passes,
the note it reserves meanwhile and the signature it gets. Reads of the chain, the bundler and
the signer are awaited; the clock, the store and the disk are operations. -/
namespace TornadoRelayer

open BigEndian EventLoop JavaScript

/-! ### Configuration -/

def SIMPLE_7702_ACCOUNT : Address := 0xe6Cae83BdE06E4c305530e199D7217f42808555B

/-- `text.split(',').map(trim).filter(Boolean)`. -/
def splitList (text : String) : List String :=
  (((text.toList.splitOn ',').map trim).filter fun s => s ≠ []).map String.ofList

def readAllowedImplementation (entry : String) : Except Thrown Address :=
  if isAddress entry then getAddress entry
  else .error (.error s!"ALLOWED_SENDER_IMPLEMENTATIONS entry is not an address: {entry}")

/-- The account implementations that are sponsored, of
`process.env.ALLOWED_SENDER_IMPLEMENTATIONS`. -/
def allowedSenderImplementationsFromEnv (raw : Option String) : Except Thrown (List Address) :=
  match raw with
  | none => .ok [SIMPLE_7702_ACCOUNT]
  | some raw => do
    let list ← (splitList raw).mapM readAllowedImplementation
    if list.length = 0 then .error (.error
      "ALLOWED_SENDER_IMPLEMENTATIONS is empty: leave it unset for the default (Simple7702Account)")
    else .ok list

/-- No environment leaves the list empty. -/
theorem allowedSenderImplementationsFromEnv_nonempty {raw : Option String} {list : List Address}
    (read : allowedSenderImplementationsFromEnv raw = .ok list) : list ≠ [] := by
  cases raw with
  | none =>
    cases read
    simp
  | some raw =>
    obtain ⟨entries,_,checked⟩ := bind_ok_iff.mp read
    split at checked
    · contradiction
    · next some =>
      cases checked
      exact fun empty => some (by simp [empty])

inductive StoreKind where
  | memory
  | file (path : String)
  deriving DecidableEq, Repr

structure RelayerConfig where
  chainId : Int
  bundlerUrl : String
  bundlerTimeoutMs : Nat
  entryPoint : Address
  paymaster : Address
  rewardAccount : Option Address
  sponsorshipStore : StoreKind
  allowedSenderImplementations : List Address
  instances : List Address
  serviceFeeBps : Int
  signatureTtlSec : JsNumber
  minDepositWei : Option Int
  maxSponsorshipGasWei : Option Int

structure InstanceInfo where
  address : Address
  denomination : Nat
  token : Address
  decimals : Nat
  symbol : String

inductive RegistryMode where
  | master
  | worker
  | unregistered
  | noRouter
  deriving DecidableEq, Repr

structure RelayerService where
  config : RelayerConfig
  gasMarginBps : Int
  instances : List InstanceInfo
  registryMode : RegistryMode
  relayerRegistry : Address

def RelayerService.rewardAccount (s : RelayerService) : Address :=
  s.config.rewardAccount.getD s.config.paymaster

def RelayerService.refunds (s : RelayerService) : Bool := s.rewardAccount = s.config.paymaster

structure SponsorContext where
  refundTo : Option AddressText

/-- What the client library and the runtime compute. -/
structure Platform where
  decoder : Decoder
  hashText : TextHash
  /-- The argument of `Error(string)`. -/
  decodeErrorString : Bytes → Option String
  /-- The name of an error of the paymaster. -/
  decodePaymasterError : Bytes → Option String
  stringify : Json → String
  toISOString : JsNumber → Except Thrown String

/-! ### What the service awaits and does -/

inductive RelaySimulation where
  | returned
  | simulationResult (success : Bool) (result : Bytes)
  | reverted (errorName : String)

structure HttpResponse where
  ok : Bool
  status : Nat
  /-- `none` when the body is not JSON. -/
  body : Option Json

structure LiveReads where
  blockNumber : Except Thrown Nat
  deposit : Except Thrown Int
  stake : Except Thrown Nat
  master : Except Thrown Address

inductive Query where
  | tokenPerEth (token : Address) (decimals : Nat)
  | getCode (account : Address)
  | getDeposit
  | workers (relayerRegistry paymaster : Address)
  | isSpentAndIsKnownRoot (pool : Address) (nullifierHash root : Bytes32)
  | simulateRelayWithdraw (w : Withdrawal)
  | estimateUserOperationGas (simulated : RpcUserOperation) (entryPoint : Address)
    (stateOverride : Option (Address × Bytes))
  | signMessage (raw : Bytes32)
  | liveReads

@[reducible] def Query.Answer : Query → Type
  | .tokenPerEth .. => Int
  | .getCode .. => Option Bytes
  | .getDeposit => Int
  | .workers .. => Address
  | .isSpentAndIsKnownRoot .. => Bool × Bool
  | .simulateRelayWithdraw .. => RelaySimulation
  | .estimateUserOperationGas .. => HttpResponse
  | .signMessage .. => Bytes
  | .liveReads => LiveReads

inductive Op where
  | dateNow
  | prune (now : JsNumber)
  | get (k : String)
  | reserve (k : String) (claim : NoteClaim)
  | release (k token : String)
  | set (k : String) (next : SponsoredNote)
  | signedEntries
  | outstanding (now : JsNumber)
  | writeFileSync (value : Json)
  | renameSync

@[reducible] def Op.Result : Op → Type
  | .dateNow => Nat
  | .get .. => Option SponsoredNote
  | .reserve .. => Except SponsoredNote String
  | .signedEntries => Notes
  | .outstanding .. => List SponsoredNote
  | .writeFileSync .. | .renameSync => Except Thrown Unit
  | .prune .. | .release .. | .set .. => Unit

@[reducible] def serviceInterface : Interface := ⟨Query, Query.Answer, Op, Op.Result, Thrown⟩

abbrev Async (α : Type) := Program serviceInterface α

def await (query : Query) : Async query.Answer := ask (I := serviceInterface) query

def perform (op : Op) : Async op.Result := act (I := serviceInterface) op

/-- `Math.floor(Date.now() / 1000)`. -/
def nowSeconds : Async JsNumber := do
  let ms : Nat ← perform .dateNow
  return ((ms / 1000 : Nat) : JsNumber)

def shortError : Thrown → String
  | .error message => message
  | .validation message _ => message
  | .viem name => name

variable (platform : Platform)

/-! ### The store -/

/-- `write`, by the renaming of a finished copy. -/
def writeNotes (entries : Notes) : Async Unit := do
  let written : Except Thrown Unit ← perform (.writeFileSync (storedNotes entries))
  written
  let renamed : Except Thrown Unit ← perform .renameSync
  renamed

def persistSigned (store : StoreKind) (k : String) (next : SponsoredNote) : Async Unit :=
  match store with
  | .memory => pure ()
  | .file _ => do
    let entries : Notes ← perform .signedEntries
    writeNotes (entries.set k next)

def commit (store : StoreKind) (k token : String) : Async Unit := do
  let held : Option SponsoredNote ← perform (.get k)
  match held with
  | some held =>
    if held.heldBy token then
      let next := { held with status := .signed }
      persistSigned store k next
      perform (.set k next)
    else throw (.error s!"sponsorship reservation for {k} is no longer held by this request")
  | none => throw (.error s!"sponsorship reservation for {k} is no longer held by this request")

namespace RelayerService

variable (s : RelayerService)

/-! ### Pricing -/

def instanceOf (address : Address) : Except Thrown InstanceInfo :=
  match s.instances.find? fun i => i.address = address with
  | some info => .ok info
  | none => .error (validationError s!"instance {addressText address} is not served by this relayer")

/-- 0 for ETH instances, else the current rate. -/
def rateFor (info : InstanceInfo) : Async Int :=
  if info.token = zeroAddress then pure 0
  else try await (.tokenPerEth info.token info.decimals)
    catch err => throw (.validation s!"cannot price {info.symbol}: {shortError err}" (-32008))

def rules (sender : Address) : SponsorRules :=
  ⟨s.config.paymaster, s.rewardAccount, s.config.instances, sender⟩

/-! ### Checks under the reservation -/

/-- Implementation named by the operation's EIP-7702 authorization, if it carries one. -/
def senderImplementationFromOp (op : RpcUserOperation) : Option Address :=
  match op.eip7702Auth with
  | none => none
  | some auth =>
    match auth.address.or auth.contractAddress with
    | some (.valid a) => some a
    | _ => none

/-- `0xef0100` and the implementation. -/
def delegationCode (implementation : Address) : Bytes := [0xef, 0x01, 0x00] ++ implementation.bytes

/-- The implementation the sender's current code delegates to. -/
def currentDelegation (code : Bytes) : Except Thrown Address :=
  if code.take 3 = [0xef, 0x01, 0x00] ∧ code.length = 23 then .ok (Word.ofBytes 20 (code.drop 3))
  else if code = [] then
    .error (.validation "sender has no code and the op carries no EIP-7702 authorization" (-32009))
  else .error (.validation "only EIP-7702 senders are sponsored (sender is a contract account)" (-32009))

def assertAllowed (implementation : Address) (source : String) : Except Thrown Address :=
  if implementation ∈ s.config.allowedSenderImplementations then .ok implementation
  else .error (.validation
    s!"sender implementation {addressText implementation} ({source}) is not sponsored by this relayer"
    (-32009))

def resolveSenderImplementation (op : RpcUserOperation) : Async Address :=
  match senderImplementationFromOp op with
  | some implementation => s.assertAllowed implementation "eip7702Auth"
  | none => do
    let code : Option Bytes ← await (.getCode op.sender)
    let implementation ← currentDelegation (code.getD [])
    s.assertAllowed implementation "delegation"

/-- The deposit against everything promised, the operation's own reservation included. -/
def checkBudget (deposit : Int) (notes : List SponsoredNote) : Except Thrown Unit :=
  let floor := s.config.minDepositWei.getD 0
  match committedGasCost notes with
  | .unknown unknown latest => do
    let date ← platform.toISOString (latest * 1000)
    .error (.validation
      s!"{unknown} live sponsorships restored from an earlier release have no recorded gas cost: not signing until they expire at {date}"
      (-32004))
  | .known committed =>
    if deposit < committed + floor then .error (.validation
      s!"paymaster deposit {deposit} wei cannot cover {committed} wei of live sponsorships plus the {floor} wei reserve: the relayer is not accepting new sponsorships until the deposit is topped up"
      (-32004))
    else .ok ()

def checkCap (maxGasCostWei : Int) : Except Thrown Unit :=
  match s.config.maxSponsorshipGasWei with
  | none => .ok ()
  | some cap =>
    if maxGasCostWei > cap then .error (.validation
      s!"this operation could cost {maxGasCostWei} wei of gas, above the per-operation limit {cap}"
      (-32004))
    else .ok ()

def readDeposit : Async Int :=
  try await .getDeposit
  catch err => throw (.validation
    s!"cannot read the paymaster's EntryPoint deposit: {shortError err}" (-32004))

def assertDepositCovers (maxGasCostWei : Int) (now : JsNumber) : Async Unit := do
  s.checkCap maxGasCostWei
  let deposit ← readDeposit
  let notes : List SponsoredNote ← perform (.outstanding now)
  s.checkBudget platform deposit notes

def checkResolved (resolved : Address) : Except Thrown Unit :=
  let named := if resolved = zeroAddress then "no relayer" else addressText resolved
  if resolved ≠ s.rewardAccount then .error (.validation
    s!"the registry resolves paymaster {addressText s.config.paymaster} to {named}, not {addressText s.rewardAccount}: not signing until the registration is restored"
    (-32010))
  else .ok ()

def assertRegistrationCurrent : Async Unit :=
  if s.registryMode = .noRouter ∨ s.registryMode = .unregistered then pure ()
  else do
    let resolved : Address ←
      try await (.workers s.relayerRegistry s.config.paymaster)
      catch err => throw (.validation
        s!"cannot read the relayer registry: {shortError err}" (-32010))
    s.checkResolved resolved

/-- Human-readable form of inner revert data. -/
def decodeRevert (data : Bytes) : String :=
  let text := if data.take 4 = [0x08, 0xc3, 0x79, 0xa0] then platform.decodeErrorString data else none
  match text, platform.decodePaymasterError data with
  | some text, _ => text
  | none, some name => name
  | none, none =>
    if data = [] then "reverted without data" else String.ofList ((toHex data).toList.take 74)

/-- The dry run always reverts with its result. -/
def checkSimulation (outcome : RelaySimulation) : Except Thrown Unit :=
  match outcome with
  | .returned => .error (.validation "relay simulation did not revert with SimulationResult" (-32006))
  | .reverted errorName => .error (.validation s!"relay simulation failed: {errorName}" (-32006))
  | .simulationResult success result =>
    if success then .ok ()
    else .error (.validation s!"relayWithdraw would revert: {decodeRevert platform result}" (-32006))

def checkSpentAndKnown (read : Bool × Bool) : Except Thrown Unit :=
  if read.1 then .error (.validation "note already spent" (-32004))
  else if ¬read.2 then
    .error (.validation "merkle root is not known to the instance (stale tree?)" (-32005))
  else .ok ()

def assertWithdrawSimulates (w : Withdrawal) : Async Unit := do
  let read : Bool × Bool ← await (.isSpentAndIsKnownRoot w.pool w.nullifierHash w.root)
  checkSpentAndKnown read
  let outcome : RelaySimulation ←
    try await (.simulateRelayWithdraw w)
    catch err => throw (.validation s!"relay simulation failed: {shortError err}" (-32006))
  checkSimulation platform outcome

/-! ### The bundler -/

/-- Limits of `DEFAULT_GAS`. -/
def DEFAULT_PAYMASTER_VERIFICATION_GAS_LIMIT : Nat := 60000
def DEFAULT_PAYMASTER_POST_OP_GAS_LIMIT : Nat := 90000

/-- What the stub carries of a withdrawal that can be found already. -/
structure StubTerms where
  fee : Int
  feeToken : Address
  refundTo : Address
  approved : Bytes32

def stubTerms (op : RpcUserOperation) (refundTo : Option Address) : StubTerms :=
  let start : StubTerms :=
    ⟨0, zeroAddress, if s.refunds then refundTo.getD op.sender else zeroAddress, 0⟩
  let found := do
    findSponsoringWithdraw platform.decoder (← decodeAccountCalls platform.decoder op.callData)
      (s.rules op.sender)
  match found with
  | .error _ => start
  | .ok w =>
    let stub := { start with fee := w.fee.toNat }
    match s.instanceOf w.pool with
    | .error _ => stub
    | .ok info =>
      let stub := { stub with
        feeToken := info.token
        refundTo := if s.refunds then refundTo.getD w.recipient else stub.refundTo }
      match withdrawalHash w.toWithdrawal with
      | .error _ => stub
      | .ok approved => { stub with approved }

/-- The paymaster data of `stubData`, for gas estimation. -/
def stubPaymasterData (op : RpcUserOperation) (refundTo : Option Address) (now : JsNumber) :
    Except Thrown Bytes :=
  let stub := s.stubTerms platform op refundTo
  encodePaymasterData
    { validUntil := now + s.config.signatureTtlSec, validAfter := 0, fee := stub.fee, serviceFee := 0
      refundTo := stub.refundTo, feeToken := stub.feeToken, tokenPerEth := 0
      withdrawalHash := stub.approved
      senderImplementation := (senderImplementationFromOp op).getD zeroAddress } DUMMY_SIGNATURE

/-- `value ?? toHex(limit)`. -/
def orLimit : Quantity → Nat → Quantity
  | .absent, limit => .value limit
  | value, _ => value

/-- A lone initCode as a factory and its data, an empty one as none. -/
def splitInitCode (initCode : HexField) (simulated : RpcUserOperation) :
    Except Thrown RpcUserOperation :=
  match initCode with
  | .bytes [] => .ok simulated
  | .bytes data =>
    if data.take 2 = [0x77, 0x02] then
      .ok { simulated with factory := some EIP7702_FACTORY, factoryData := some (.bytes (data.drop 2)) }
    else .ok { simulated with
      factory := some (.bytes (data.take 20)), factoryData := some (.bytes (data.drop 20)) }
  | .text chars =>
    let from_ (n : Nat) := some (HexField.ofText ('0' :: 'x' :: chars.drop n))
    if chars.take 6 = "0x7702".toList then
      .ok { simulated with factory := some EIP7702_FACTORY, factoryData := from_ 6 }
    else .ok { simulated with
      factory := some (.ofText ('0' :: 'x' :: (chars.drop 2).take 40)), factoryData := from_ 42 }
  | .null => .error (.error "Cannot read properties of null (reading 'startsWith')")
  | .other _ => .error (.error "initCode.startsWith is not a function")

/-- The operation the bundler is shown. -/
def simulatedOp (op : RpcUserOperation) (paymasterData : Bytes) : Except Thrown RpcUserOperation :=
  let simulated := { op with
    paymaster := some s.config.paymaster
    paymasterData := some paymasterData
    paymasterVerificationGasLimit :=
      orLimit op.paymasterVerificationGasLimit DEFAULT_PAYMASTER_VERIFICATION_GAS_LIMIT
    paymasterPostOpGasLimit := orLimit op.paymasterPostOpGasLimit DEFAULT_PAYMASTER_POST_OP_GAS_LIMIT
    signature := some (op.signature.getD DUMMY_SIGNATURE)
    initCode := none }
  match op.initCode with
  | some initCode => if falsy op.factory then splitInitCode initCode simulated else .ok simulated
  | none => .ok simulated

def truthy : Json → Bool
  | .null => false
  | .bool b => b
  | .number n => n ≠ 0
  | .string text => text ≠ ""
  | .array _ | .object _ => true

/-- What is left of `bundlerRequest` once there is an answer. -/
def bundlerResult (method : String) (res : HttpResponse) : Except Thrown Json :=
  if ¬res.ok then .error (.error s!"{method}: bundler returned HTTP {res.status}")
  else match res.body with
    | none => .error (.error s!"{method}: bundler returned a body that is not JSON")
    | some body =>
      match body.field "error" with
      | some error =>
        if truthy error then
          let message := match error.field "message" with
            | none | some .null => "bundler error"
            | some message => elementText message
          let data := match error.field "data" with
            | some data => if truthy data then s!" {platform.stringify data}" else ""
            | none => ""
          .error (.error (message ++ data))
        else readResult body
      | none => readResult body
where
  readResult (body : Json) : Except Thrown Json :=
    match body.field "result" with
    | none | some .null => .error (.error s!"{method}: bundler returned no result")
    | some result => .ok result

def bundlerFailure (method : String) (timeoutMs : Nat) (err : Thrown) : Thrown :=
  let reason := if err = .viem "TimeoutError" then s!"timed out after {timeoutMs} ms" else shortError err
  .error s!"{method}: {reason}"

structure GasEstimate where
  callGasLimit : Nat
  verificationGasLimit : Nat
  preVerificationGas : Nat
  paymasterVerificationGasLimit : Nat
  paymasterPostOpGasLimit : Nat

/-- A safe integer, or hex digits after `0x`. -/
def quantity : Json → Option Nat
  | .number n => if n.den = 1 ∧ 0 ≤ n.num ∧ n.num < 2 ^ 53 then some n.num.toNat else none
  | .string text => if isHex text then readDigits 16 (text.toList.drop 2) else none
  | _ => none

def gasField (result : Json) (field : String) : Except String Nat :=
  match result.field field with
  | none => .error s!"{field} is missing"
  | some v =>
    match quantity v with
    | some n => .ok n
    | none => .error s!"{field} is not a quantity ({platform.stringify v})"

/-- The estimate of an operation that has a paymaster. -/
def asGasEstimate (result : Json) : Except String GasEstimate :=
  match result with
  | .object _ => do
    let callGasLimit ← gasField platform result "callGasLimit"
    let verificationGasLimit ← gasField platform result "verificationGasLimit"
    let preVerificationGas ← gasField platform result "preVerificationGas"
    let paymasterVerificationGasLimit ← gasField platform result "paymasterVerificationGasLimit"
    let paymasterPostOpGasLimit ← gasField platform result "paymasterPostOpGasLimit"
    return { callGasLimit, verificationGasLimit, preVerificationGas, paymasterVerificationGasLimit,
             paymasterPostOpGasLimit }
  | _ => .error s!"not an object: {String.ofList ((platform.stringify result).toList.take 120)}"

/-- One message for each limit the operation was sent too small. -/
def tooSmall (estimate : GasEstimate) (sent : UserOpGas) : List String :=
  [("callGasLimit", sent.callGasLimit, estimate.callGasLimit),
    ("verificationGasLimit", sent.verificationGasLimit, estimate.verificationGasLimit),
    ("preVerificationGas", sent.preVerificationGas, estimate.preVerificationGas),
    ("paymasterVerificationGasLimit", sent.paymasterVerificationGasLimit,
      estimate.paymasterVerificationGasLimit),
    ("paymasterPostOpGasLimit", sent.paymasterPostOpGasLimit, estimate.paymasterPostOpGasLimit)].filterMap
    fun (field, sent, estimate) => if estimate > sent then some s!"{field} {sent} < {estimate}" else none

def checkEstimate (op : RpcUserOperation) (result : Json) : Except Thrown Unit :=
  match asGasEstimate platform result with
  | .error reason => .error (.validation
      s!"bundler simulation returned no usable gas estimate: {reason}" (-32007))
  | .ok estimate => do
    let sent ← readGas op
    let tooSmall := tooSmall estimate sent
    let reasons := "; ".intercalate tooSmall
    if tooSmall.length > 0 then .error (.validation
      s!"the bundler's estimate does not fit the operation's gas limits ({reasons}): re-quote with these limits and ask again"
      (-32008))
    else .ok ()

/-- A sender that only its own authorization delegates is shown with that code. -/
def stateOverride (op : RpcUserOperation) : Async (Option (Address × Bytes)) :=
  match senderImplementationFromOp op with
  | none => pure none
  | some authorized => do
    let code : Option Bytes ← await (.getCode op.sender)
    return if code.getD [] = [] then some (op.sender, delegationCode authorized) else none

def estimateUserOperationGas (simulated : RpcUserOperation)
    (override : Option (Address × Bytes)) : Async Json := do
  let method := "eth_estimateUserOperationGas"
  let res : HttpResponse ←
    try await (.estimateUserOperationGas simulated s.config.entryPoint override)
    catch err => throw (bundlerFailure method s.config.bundlerTimeoutMs err)
  bundlerResult platform method res

def checkBundler : Except Thrown Unit :=
  if s.config.bundlerUrl = "" then .error (.validation
    "no bundler configured: refusing to sign without a pre-signing simulation" (-32007))
  else .ok ()

def assertBundlerSimulates (op : RpcUserOperation) (refundTo : Option Address) : Async Unit := do
  s.checkBundler
  let now ← nowSeconds
  let paymasterData ← s.stubPaymasterData platform op refundTo now
  let simulated ← s.simulatedOp op paymasterData
  let override ← stateOverride op
  let result ←
    try s.estimateUserOperationGas platform simulated override
    catch err => throw (.validation s!"bundler simulation failed: {shortError err}" (-32007))
  checkEstimate platform op result

/-! ### Signing -/

/-- What `sign` returns and logs, with the operation it is for. -/
structure Issued where
  op : RpcUserOperation
  nullifierHash : Bytes32
  /-- When the note was reserved. -/
  now : JsNumber
  maxGasCostWei : Nat
  minFee : Int
  terms : FeeTerms
  paymaster : Address
  paymasterData : Bytes

/-- A request that passed the checks that need no reading. -/
structure CheckedRequest where
  w : TornadoWithdrawCall
  info : InstanceInfo
  gas : UserOpGas
  maxFeePerGas : Nat
  refundTo : Option Address

def checkRequest (op : RpcUserOperation) (context : SponsorContext) : Except Thrown CheckedRequest := do
  if op.paymaster.isSome ∧ op.paymaster ≠ some s.config.paymaster then
    throw (validationError s!"userOp.paymaster must be {addressText s.config.paymaster}")
  let refundTo ← match context.refundTo with
    | none => pure none
    | some (.valid a) => pure (some a)
    | some .invalid => throw (validationError "context.refundTo is not an address")
  let calls ← decodeAccountCalls platform.decoder op.callData
  let w ← findSponsoringWithdraw platform.decoder calls (s.rules op.sender)
  let info ← s.instanceOf w.pool
  if w.fee.toNat > info.denomination then throw (validationError "fee exceeds denomination")
  let gas ← readGas op
  let maxFeePerGas ← q op.maxFeePerGas "maxFeePerGas"
  let maxPriorityFeePerGas ← q op.maxPriorityFeePerGas "maxPriorityFeePerGas"
  if maxPriorityFeePerGas > maxFeePerGas then
    throw (validationError "maxPriorityFeePerGas exceeds maxFeePerGas")
  return { w, info, gas, maxFeePerGas, refundTo }

def floorFee (r : CheckedRequest) (tokenPerEth : Int) : Int :=
  minimumFee r.gas r.maxFeePerGas s.gasMarginBps
    (serviceFeeFor r.info.denomination s.config.serviceFeeBps) tokenPerEth

def checkFee (r : CheckedRequest) (tokenPerEth : Int) : Except Thrown Unit :=
  let minFee := s.floorFee r tokenPerEth
  if r.w.fee.toNat < minFee then .error (.validation
    s!"fee {r.w.fee.toNat} is below the minimum {minFee} {r.info.symbol} for these gas limits at {r.maxFeePerGas} wei/gas"
    (-32002))
  else .ok ()

def CheckedRequest.key (r : CheckedRequest) : String := toHex r.w.nullifierHash.bytes

/-- What the EntryPoint can charge for the operation at its own limits and price. -/
def CheckedRequest.maxGasCostWei (r : CheckedRequest) : Nat := totalGas r.gas * r.maxFeePerGas

def alreadySponsored (held : SponsoredNote) : Thrown :=
  let how := if held.status = .signed then "sponsored" else "being sponsored"
  .validation s!"note already {how}; valid until {numberText held.validUntil}" (-32003)

/-- Steps 4 to 8: everything checked while the note is reserved. -/
def checkReserved (op : RpcUserOperation) (r : CheckedRequest) (now : JsNumber) : Async Address := do
  let senderImplementation ← s.resolveSenderImplementation op
  s.assertDepositCovers platform r.maxGasCostWei now
  s.assertRegistrationCurrent
  assertWithdrawSimulates platform r.w.toWithdrawal
  s.assertBundlerSimulates platform op r.refundTo
  return senderImplementation

/-- The program, giving the reservation back before an error leaves it. -/
def releasing (k token : String) (wrap : Thrown → Thrown) (p : Async α) : Async α :=
  try p
  catch err => do
    perform (.release k token)
    throw (wrap err)

def signedTerms (r : CheckedRequest) (tokenPerEth : Int) (validUntil : JsNumber)
    (senderImplementation : Address) : Except Thrown FeeTerms := do
  let approved ← withdrawalHash r.w.toWithdrawal
  return {
    validUntil
    validAfter := 0
    fee := r.w.fee.toNat
    serviceFee := serviceFeeFor r.info.denomination s.config.serviceFeeBps
    refundTo := if s.refunds then r.refundTo.getD r.w.recipient else zeroAddress
    feeToken := r.info.token
    tokenPerEth
    withdrawalHash := approved
    senderImplementation }

/-- From the reservation on. -/
def signReserved (op : RpcUserOperation) (r : CheckedRequest) (tokenPerEth : Int) (now : JsNumber)
    (token : String) : Async Issued := do
  let senderImplementation ← releasing r.key token id (s.checkReserved platform op r now)
  let terms ← s.signedTerms r tokenPerEth (now + s.config.signatureTtlSec) senderImplementation
  let hash ← paymasterHash platform.hashText op s.config.chainId s.config.paymaster terms
  let signature : Bytes ← releasing r.key token id (await (.signMessage hash))
  releasing r.key token
    (fun err => .error s!"could not record the sponsorship, not issuing it: {shortError err}")
    (commit s.config.sponsorshipStore r.key token)
  let paymasterData ← encodePaymasterData terms signature
  return {
    op
    nullifierHash := r.w.nullifierHash
    now
    maxGasCostWei := r.maxGasCostWei
    minFee := s.floorFee r tokenPerEth
    terms
    paymaster := s.config.paymaster
    paymasterData }

def sign (op : RpcUserOperation) (context : SponsorContext) : Async Issued := do
  let r ← s.checkRequest platform op context
  let tokenPerEth ← rateFor r.info
  s.checkFee r tokenPerEth
  let now ← nowSeconds
  perform (.prune now)
  let nonce ← q op.nonce "nonce"
  let validUntil := now + s.config.signatureTtlSec
  let reserved : Except SponsoredNote String ← perform (.reserve r.key
    { validUntil, sender := op.sender, nonce, maxGasCostWei := some r.maxGasCostWei })
  match reserved with
  | .error held => throw (alreadySponsored held)
  | .ok token => s.signReserved platform op r tokenPerEth now token

/-! ### Status -/

structure Status where
  checkedAt : JsNumber
  depositWei : Option Int
  stakeWei : Option Nat
  minWei : Int
  committed : CommittedGasCost
  accepting : Bool
  registered : Option Bool

/-- The live part of `status`: what it prunes, reads and reports of the budget. -/
def status : Async Status := do
  let now ← nowSeconds
  perform (.prune now)
  let live : LiveReads ← await .liveReads
  let notes : List SponsoredNote ← perform (.outstanding now)
  let committed := committedGasCost notes
  let floor := s.config.minDepositWei.getD 0
  let accepting := match live.deposit, committed with
    | .ok deposit, .known wei => decide (deposit ≥ wei + floor)
    | _, _ => false
  let current := s.registryMode = .noRouter ∨ s.registryMode = .unregistered ∨
    live.master.toOption = some s.rewardAccount
  return {
    checkedAt := now
    depositWei := live.deposit.toOption
    stakeWei := live.stake.toOption
    minWei := floor
    committed
    accepting
    registered := live.master.toOption.map fun _ => current }

end RelayerService

end TornadoRelayer
