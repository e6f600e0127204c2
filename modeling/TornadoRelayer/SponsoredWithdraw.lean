import TornadoRelayer.KnownPath
import TornadoRelayer.Quote
import TornadoRelayer.RunLog
import TornadoRelayer.TornadoNote

/-! The client's `flow.ts` and `relayerClient.ts`: a note is withdrawn through the relayer, from the
pool's leaves to the receipt of the operation. The chain, the relayer, the prover and the bundler
answer as they like. -/
namespace TornadoRelayer.Flow

open BigEndian EventLoop JavaScript Merkle Quoting RelayerService TornadoNote

/-! ### What the flow handles -/

structure TailCall where
  /-- The paymaster is called where a quote says it is. -/
  to_ : Option Json
  value : Option Nat
  data : Option Bytes

structure SponsoredWithdrawParams where
  chainId : Int
  instance_ : Address
  note : Note
  leaves : List Nat
  owner : Address
  refundTo : Address
  /-- For a sender, an amount and an asset. -/
  tailCalls : Address → Int → Option Json → List TailCall
  tailCallsGas : Option Int
  implementation : Option Address
  skipEstimation : Bool

structure TornadoWithdrawInputs where
  nullifier : Nat
  secret : Nat
  pathElements : List Nat
  pathIndices : List Nat
  root : Nat
  nullifierHash : Nat
  recipient : Int
  relayer : Int
  fee : Int
  refund : Int

structure TornadoProveOutput where
  proof : Bytes
  root : Bytes
  nullifierHash : Bytes
  recipient : Bytes
  relayer : Bytes
  fee : Bytes
  refund : Bytes

/-- What the bundler is asked to size or to send. -/
structure OperationRequest where
  calls : List TailCall
  gas : QuotedGas
  maxFeePerGas : Int
  maxPriorityFeePerGas : Int
  stateOverride : Option (Address × Bytes)
  /-- The context for the paymaster. -/
  refundTo : Address

structure GasEstimate where
  callGasLimit : Int
  verificationGasLimit : Int
  preVerificationGas : Int
  paymasterVerificationGasLimit : Option Int
  paymasterPostOpGasLimit : Option Int

structure SignedAuthorization where
  address : Address
  chainId : Int
  nonce : Nat
  signature : Bytes

structure SponsoredWithdrawResult where
  userOpHash : Bytes32
  receipt : Json
  sender : Address
  quote : RelayerQuote
  proof : TornadoProveOutput
  fee : Int
  amountToSender : Int

/-! ### What it awaits -/

inductive ClientQuery where
  | denomination (instance_ : Address)
  | isKnownRoot (instance_ : Address) (root : Bytes32)
  /-- A body posted to the relayer. -/
  | post (body : Json)
  | prove (inputs : TornadoWithdrawInputs)
  | isDeployed
  | estimateUserOperationGas (request : OperationRequest)
  | getTransactionCount (address : Address)
  | signAuthorization (address : Address) (chainId : Int) (nonce : Nat)
  | sendUserOperation (request : OperationRequest) (authorization : Option SignedAuthorization)
  | waitForUserOperationReceipt (hash : Bytes32)

@[reducible] def ClientQuery.Answer : ClientQuery → Type
  | .denomination .. => Nat
  | .isKnownRoot .. => Bool
  | .post .. => Json
  | .prove .. => TornadoProveOutput
  | .isDeployed => Bool
  | .estimateUserOperationGas .. => GasEstimate
  | .getTransactionCount .. => Nat
  | .signAuthorization .. => SignedAuthorization
  | .sendUserOperation .. => Bytes32
  | .waitForUserOperationReceipt .. => Json

@[reducible] def clientInterface : Interface :=
  ⟨ClientQuery, ClientQuery.Answer, Empty, fun _ => Empty, Thrown⟩

abbrev Client (α : Type) := Program clientInterface α

abbrev ClientLog := List (Logged clientInterface)

def await (query : ClientQuery) : Client query.Answer := ask (I := clientInterface) query

/-- The libraries the client calls. -/
structure Libraries where
  tree : MimcTree
  /-- `encodeFunctionData` for `relayWithdraw`, once its arguments are in range. -/
  encodeRelayWithdraw : Withdrawal → Bytes
  /-- Where `account.authorization` points when no implementation is asked for. -/
  defaultImplementation : Address

/-! ### `relayerClient.ts` -/

/-- What stands for a value in a template text. -/
def templateText : Option Json → String
  | none => "undefined"
  | some .null => "null"
  | some value => elementText value

def requestBody (method : String) (params : List Json) : Json :=
  .object [("jsonrpc",.string "2.0"),("id",.number 1),("method",.string method),("params",.array params)]

/-- `RelayerRpc.request`; the result of a response without one is `undefined`. -/
def request (method : String) (params : List Json) : Client (Option Json) := do
  let body : Json ← await (.post (requestBody method params))
  match ← readProperty (some body) "error" with
  | none => return body.field "result"
  | some error =>
    if truthy error then
      let message := templateText (error.field "message")
      let code := templateText (error.field "code")
      throw (.error s!"relayer {method}: {message} ({code})")
    else return body.field "result"

structure QuoteRequest where
  instance_ : Address
  tailCallsGas : Option Int
  gas : Option GasOverrides
  maxFeePerGas : Option Int

/-- A field of a request; one that is `undefined` is not written. -/
def quantityField (name : String) (v : Option Int) : Except Thrown (List (String × Json)) :=
  match v with
  | none => .ok []
  | some v => do return [(name, ← quantityText v)]

def gasFields (gas : GasOverrides) : Except Thrown (List (String × Json)) := do
  let callGasLimit ← quantityField "callGasLimit" gas.callGasLimit
  let verificationGasLimit ← quantityField "verificationGasLimit" gas.verificationGasLimit
  let preVerificationGas ← quantityField "preVerificationGas" gas.preVerificationGas
  let paymasterVerificationGasLimit ←
    quantityField "paymasterVerificationGasLimit" gas.paymasterVerificationGasLimit
  let paymasterPostOpGasLimit ← quantityField "paymasterPostOpGasLimit" gas.paymasterPostOpGasLimit
  return callGasLimit ++ verificationGasLimit ++ preVerificationGas ++
    paymasterVerificationGasLimit ++ paymasterPostOpGasLimit

def gasField (gas : Option GasOverrides) : Except Thrown (List (String × Json)) :=
  match gas with
  | none => .ok []
  | some gas => do return [("gas", Json.object (← gasFields gas))]

def encodeQuoteRequest (r : QuoteRequest) : Except Thrown Json := do
  let tailCallsGas ← quantityField "tailCallsGas" r.tailCallsGas
  let gas ← gasField r.gas
  let maxFeePerGas ← quantityField "maxFeePerGas" r.maxFeePerGas
  return .object (("instance", .string (addressText r.instance_)) :: tailCallsGas ++ gas ++ maxFeePerGas)

/-- `RelayerRpc.quote`. -/
def quote (r : QuoteRequest) : Client RelayerQuote := do
  let params ← encodeQuoteRequest r
  let raw : Option Json ← request "tornado_quote" [params]
  match raw with
  | none => throw (.error "Cannot read properties of undefined (reading 'gas')")
  | some raw => readQuote raw

/-! ### `flow.ts` -/

def bump (x bps : Int) : Int := (x * (10000 + bps)).tdiv 10000

/-- The limits for an estimate: never less for the paymaster than what was quoted. -/
def bumped (est : GasEstimate) (quoted : QuotedGas) : QuotedGas where
  callGasLimit := bump est.callGasLimit 1500
  verificationGasLimit := bump est.verificationGasLimit 1500
  preVerificationGas := bump est.preVerificationGas 1000
  paymasterVerificationGasLimit := max (bump (est.paymasterVerificationGasLimit.getD 0) 1500)
    quoted.paymasterVerificationGasLimit
  paymasterPostOpGasLimit := max (bump (est.paymasterPostOpGasLimit.getD 0) 2000)
    quoted.paymasterPostOpGasLimit

/-- All five limits. -/
def QuotedGas.overrides (gas : QuotedGas) : GasOverrides where
  callGasLimit := some gas.callGasLimit
  verificationGasLimit := some gas.verificationGasLimit
  preVerificationGas := some gas.preVerificationGas
  paymasterVerificationGasLimit := some gas.paymasterVerificationGasLimit
  paymasterPostOpGasLimit := some gas.paymasterPostOpGasLimit

/-- An argument that must be this many bytes long. -/
def bytesOf (size : Nat) (bytes : Bytes) (name : String) : Except Thrown (Word size) :=
  if bytes.length = size then .ok (Word.ofBytes size bytes) else .error (.viem name)

/-- The arguments of `relayWithdraw`, as the ABI has them. -/
def relayWithdrawArgs (pool : Address) (proof : TornadoProveOutput) : Except Thrown Withdrawal := do
  if proof.fee = [] then throw (.error "Cannot convert 0x to a BigInt")
  let root ← bytesOf 32 proof.root "AbiEncodingBytesSizeMismatchError"
  let nullifierHash ← bytesOf 32 proof.nullifierHash "AbiEncodingBytesSizeMismatchError"
  let recipient ← bytesOf 20 proof.recipient "InvalidAddressError"
  let relayer ← bytesOf 20 proof.relayer "InvalidAddressError"
  let fee ← numberToHex 32 (ofBytes proof.fee)
  return {
    pool, proof := proof.proof, root, nullifierHash, recipient, relayer, fee := BitVec.ofNat _ fee }

variable (lib : Libraries) (p : SponsoredWithdrawParams)

def buildCalls (denomination : Nat) (proof : TornadoProveOutput) (fee : Int)
    (asset paymaster : Option Json) : Except Thrown (List TailCall) := do
  let w ← relayWithdrawArgs p.instance_ proof
  return ⟨paymaster, some 0, some (lib.encodeRelayWithdraw w)⟩ ::
    p.tailCalls p.owner (denomination - fee) asset

def proveInputs (path : MerklePath) (relayer fee : Int) : TornadoWithdrawInputs where
  nullifier := p.note.nullifier
  secret := p.note.secret
  pathElements := path.pathElements
  pathIndices := path.pathIndices
  root := path.root
  nullifierHash := p.note.nullifierHash
  recipient := p.owner.toNat
  relayer
  fee
  refund := 0

def prove (path : MerklePath) (relayerAddress : Option Json) (fee : Int) :
    Client TornadoProveOutput := do
  let relayer ← hexToBigInt relayerAddress
  await (.prove (proveInputs p path relayer fee))

/-- The pool knows the root of the local leaves. -/
def checkRoot (path : MerklePath) : Client Unit := do
  let root ← numberToHex 32 path.root
  let known : Bool ← await (.isKnownRoot p.instance_ (BitVec.ofNat _ root))
  if known then return ()
  else throw (.error "local merkle root is not known to the instance; leaves are stale or wrong")

def implementation : Address := p.implementation.getD lib.defaultImplementation

/-- A sender without code is simulated as already delegated. -/
def stateOverride (delegated : Bool) : Option (Address × Bytes) :=
  if delegated then none else some (p.owner, delegationCode (implementation lib p))

def quotedRequest (calls : List TailCall) (quote : RelayerQuote) (delegated : Bool) :
    OperationRequest where
  calls
  gas := quote.gas
  maxFeePerGas := quote.maxFeePerGas
  maxPriorityFeePerGas := quote.maxPriorityFeePerGas
  stateOverride := stateOverride lib p delegated
  refundTo := p.refundTo

/-- Steps 3 and 4: the limits the bundler finds, quoted again, and a new proof if the fee moved. -/
def sizeOperation (denomination : Nat) (path : MerklePath) (asset : Option Json) (delegated : Bool)
    (first : RelayerQuote) (proof : TornadoProveOutput) :
    Client (RelayerQuote × TornadoProveOutput) := do
  let calls ← buildCalls lib p denomination proof first.fee asset first.paymaster
  let est : GasEstimate ← await
    (.estimateUserOperationGas (quotedRequest lib p calls first delegated))
  let gas := QuotedGas.overrides (bumped est first.gas)
  let requote ← quote ⟨p.instance_, none, some gas, some first.maxFeePerGas⟩
  if requote.fee ≠ first.fee then
    let again ← prove p path requote.relayer requote.fee
    return (requote, again)
  else return (requote, proof)

def sizeUnlessSkipped (denomination : Nat) (path : MerklePath) (asset : Option Json)
    (delegated : Bool) (first : RelayerQuote) (proof : TornadoProveOutput) :
    Client (RelayerQuote × TornadoProveOutput) :=
  if p.skipEstimation then pure (first, proof)
  else sizeOperation lib p denomination path asset delegated first proof

def authorize (delegated : Bool) : Client (Option SignedAuthorization) :=
  if delegated then pure none
  else do
    let nonce : Nat ← await (.getTransactionCount p.owner)
    let authorization : SignedAuthorization ←
      await (.signAuthorization (implementation lib p) p.chainId nonce)
    return some authorization

/-- What is ready when the operation is sent. -/
structure Prepared where
  denomination : Nat
  asset : Option Json
  delegated : Bool
  quote : RelayerQuote
  proof : TornadoProveOutput

/-- Steps 1 to 4. -/
def prepare : Client Prepared := do
  let denomination : Nat ← await (.denomination p.instance_)
  let path ← merklePath lib.tree p.leaves p.note.commitment
  checkRoot p path
  let first ← quote ⟨p.instance_, p.tailCallsGas, none, none⟩
  let asset := first.feeToken
  let proof ← prove p path first.relayer first.fee
  let delegated : Bool ← await .isDeployed
  let (quote, proof) ← sizeUnlessSkipped lib p denomination path asset delegated first proof
  return { denomination, asset, delegated, quote, proof }

/-- Steps 5 and 6. -/
def send (ready : Prepared) : Client SponsoredWithdrawResult := do
  let authorization ← authorize lib p ready.delegated
  let calls ← buildCalls lib p ready.denomination ready.proof ready.quote.fee ready.asset
    ready.quote.paymaster
  let userOpHash : Bytes32 ← await
    (.sendUserOperation (quotedRequest lib p calls ready.quote ready.delegated) authorization)
  let receipt : Json ← await (.waitForUserOperationReceipt userOpHash)
  return {
    userOpHash, receipt
    sender := p.owner
    quote := ready.quote
    proof := ready.proof
    fee := ready.quote.fee
    amountToSender := ready.denomination - ready.quote.fee }

def sponsoredWithdraw : Client SponsoredWithdrawResult := do
  let ready ← prepare lib p
  send lib p ready

/-! ### `prover.ts` -/

/-- `toHex(v, { size })`. -/
def toHexOf (size : Nat) (v : Int) : Except Thrown Bytes := do
  return toBytes size (← numberToHex size v)

/-- What the prover makes of a proof: the packed proof and its public inputs as words. -/
def proveOutput (proof : Bytes) (inputs : TornadoWithdrawInputs) : Except Thrown TornadoProveOutput := do
  let root ← toHexOf 32 inputs.root
  let nullifierHash ← toHexOf 32 inputs.nullifierHash
  let recipient ← toHexOf 20 inputs.recipient
  let relayer ← toHexOf 20 inputs.relayer
  let fee ← toHexOf 32 inputs.fee
  let refund ← toHexOf 32 inputs.refund
  return { proof, root, nullifierHash, recipient, relayer, fee, refund }

end TornadoRelayer.Flow
