import TornadoRelayer.Service

/-! A quote, from the request over `tornado_quote` to what the client reads of the answer. The
bundler, the chain and the price source answer as they like. -/
namespace TornadoRelayer.Quoting

open BigEndian JavaScript RelayerService

/-! ### Gas -/

/-- `UserOpGas` where a request may set any bigint. -/
structure QuotedGas where
  callGasLimit : Int
  verificationGasLimit : Int
  preVerificationGas : Int
  paymasterVerificationGasLimit : Int
  paymasterPostOpGasLimit : Int
  deriving DecidableEq

structure GasOverrides where
  callGasLimit : Option Int
  verificationGasLimit : Option Int
  preVerificationGas : Option Int
  paymasterVerificationGasLimit : Option Int
  paymasterPostOpGasLimit : Option Int

def DEFAULT_GAS : QuotedGas where
  verificationGasLimit := 100000
  callGasLimit := 450000
  preVerificationGas := 120000
  paymasterVerificationGasLimit := 60000
  paymasterPostOpGasLimit := 90000

def ERC20_WITHDRAW_EXTRA_GAS : Int := 80000

def DEFAULT_TAIL_CALLS_GAS : Int := 400000

def withTailCalls (gas : QuotedGas) (tailCallsGas : Int) : QuotedGas :=
  { gas with callGasLimit := gas.callGasLimit + tailCallsGas }

/-- `{ ...gas, ...overrides }`. -/
def QuotedGas.override (gas : QuotedGas) (overrides : GasOverrides) : QuotedGas where
  callGasLimit := overrides.callGasLimit.getD gas.callGasLimit
  verificationGasLimit := overrides.verificationGasLimit.getD gas.verificationGasLimit
  preVerificationGas := overrides.preVerificationGas.getD gas.preVerificationGas
  paymasterVerificationGasLimit :=
    overrides.paymasterVerificationGasLimit.getD gas.paymasterVerificationGasLimit
  paymasterPostOpGasLimit := overrides.paymasterPostOpGasLimit.getD gas.paymasterPostOpGasLimit

def QuotedGas.total (gas : QuotedGas) : Int :=
  gas.callGasLimit + gas.verificationGasLimit + gas.preVerificationGas +
    gas.paymasterVerificationGasLimit + gas.paymasterPostOpGasLimit

/-- `minimumFee` over all bigints. -/
def minimumFee (gas : QuotedGas) (maxFeePerGas gasMarginBps serviceFee tokenPerEth : Int) : Int :=
  let prefund := gas.total * maxFeePerGas
  let keepEth := prefund + (prefund * gasMarginBps).tdiv BPS
  let keep := if tokenPerEth ≠ 0 then ceilDiv (keepEth * tokenPerEth) RATE_SCALE else keepEth
  keep + serviceFee

/-! ### The quote -/

/-- The service, with the margin that only quotes use. -/
structure QuotingService extends RelayerService where
  gasPriceMarginBps : Int

structure QuoteParams where
  instance_ : Address
  tailCallsGas : Option Int
  gas : GasOverrides
  maxFeePerGas : Option Int

/-- What the calls that a quote awaits come back with. -/
structure QuoteAnswers where
  /-- `pimlico_getUserOperationGasPrice`. -/
  bundlerGasPrice : Except Thrown Json
  estimateFeesPerGas : Except Thrown (Int × Int)
  tokenPerEth : Except Thrown Int

structure Quote where
  relayer : Address
  paymaster : Address
  entryPoint : Address
  instance_ : Address
  denomination : Nat
  feeToken : Address
  decimals : Nat
  symbol : String
  tokenPerEth : Int
  serviceFeeBps : Int
  serviceFee : Int
  gasMarginBps : Int
  gas : QuotedGas
  maxFeePerGas : Int
  maxPriorityFeePerGas : Int
  fee : Int
  validForSec : JsNumber

/-- A property of a value that may be missing. -/
def readProperty (value : Option Json) (name : String) : Except Thrown (Option Json) :=
  match value with
  | none => .error (.error s!"Cannot read properties of undefined (reading '{name}')")
  | some .null => .error (.error s!"Cannot read properties of null (reading '{name}')")
  | some value => .ok (value.field name)

def hexToBigInt : Option Json → Except Thrown Int
  | none => .error (.error "Cannot convert undefined to a BigInt")
  | some value => parseBigInt value

def bundlerFees (res : Json) : Except Thrown (Int × Int) := do
  let fast ← readProperty (some res) "fast"
  let maxFeePerGas ← hexToBigInt (← readProperty fast "maxFeePerGas")
  let maxPriorityFeePerGas ← hexToBigInt (← readProperty fast "maxPriorityFeePerGas")
  return (maxFeePerGas, maxPriorityFeePerGas)

/-- What the bundler says, unless it fails. -/
def bundlerPrice (bundlerUrl : String) (bundlerGasPrice : Except Thrown Json) : Option (Int × Int) :=
  if bundlerUrl = "" then none
  else match bundlerGasPrice with
    | .error _ => none
    | .ok res => (bundlerFees res).toOption

def gasFees (s : QuotingService) (answers : QuoteAnswers) : Except Thrown (Int × Int) := do
  let (maxFeePerGas, maxPriorityFeePerGas) ←
    match bundlerPrice s.config.bundlerUrl answers.bundlerGasPrice with
    | some fees => pure fees
    | none => answers.estimateFeesPerGas
  let m := s.gasPriceMarginBps
  return ((maxFeePerGas * m).tdiv BPS, (maxPriorityFeePerGas * m).tdiv BPS)

/-- `rateFor`, once the price source has answered. -/
def rateFrom (info : InstanceInfo) (answer : Except Thrown Int) : Except Thrown Int :=
  if info.token = zeroAddress then .ok 0
  else match answer with
    | .ok rate => .ok rate
    | .error err => .error (.validation s!"cannot price {info.symbol}: {shortError err}" (-32008))

def quote (s : QuotingService) (params : QuoteParams) (answers : QuoteAnswers) :
    Except Thrown Quote := do
  let info ← s.instanceOf params.instance_
  let extra := if info.token ≠ zeroAddress then ERC20_WITHDRAW_EXTRA_GAS else 0
  let gas := (withTailCalls DEFAULT_GAS
    (params.tailCallsGas.getD DEFAULT_TAIL_CALLS_GAS + extra)).override params.gas
  let fees ← gasFees s answers
  let maxFeePerGas := params.maxFeePerGas.getD fees.1
  let tokenPerEth ← rateFrom info answers.tokenPerEth
  let serviceFee := serviceFeeFor info.denomination s.config.serviceFeeBps
  let fee := minimumFee gas maxFeePerGas s.gasMarginBps serviceFee tokenPerEth
  if fee ≥ info.denomination then
    .error (validationError
      s!"quoted fee {fee} is not below the {info.denomination} {info.symbol} denomination at {maxFeePerGas} wei/gas")
  else return {
    relayer := s.rewardAccount
    paymaster := s.config.paymaster
    entryPoint := s.config.entryPoint
    instance_ := info.address
    denomination := info.denomination
    feeToken := info.token
    decimals := info.decimals
    symbol := info.symbol
    tokenPerEth
    serviceFeeBps := s.config.serviceFeeBps
    serviceFee
    gasMarginBps := s.gasMarginBps
    gas
    maxFeePerGas
    maxPriorityFeePerGas := if fees.2 > maxFeePerGas then maxFeePerGas else fees.2
    fee
    validForSec := s.config.signatureTtlSec }

/-! ### `tornado_quote` -/

/-- An `RpcError`, which is answered like a `ValidationError`. -/
def rpcError (message : String) : Thrown := .validation message (-32602)

def parseQuantity (value : Json) (field : String) : Except Thrown Int :=
  match value with
  | .string text =>
    if isHex text then hexToBigInt (some value)
    else if text.toList ≠ [] ∧ text.toList.all Char.isDigit then parseBigInt value
    else .error (rpcError s!"{field} must be a hex or decimal quantity")
  | .number n => bigInt n
  | _ => .error (rpcError s!"{field} must be a hex or decimal quantity")

def optionalQuantity (value : Option Json) (field : String) : Except Thrown (Option Int) :=
  match value with
  | none => .ok none
  | some value => some <$> parseQuantity value field

/-- The request: `params[0]`, where a value without properties is as good as `{}`. -/
def parseQuoteParams (p : Json) : Except Thrown QuoteParams := do
  let instance_ ← match p.field "instance" with
    | some (.string text) =>
      if isAddress text then getAddress text else .error (rpcError "instance required")
    | _ => .error (rpcError "instance required")
  let gasIn := (p.field "gas").getD .null
  let callGasLimit ← optionalQuantity (gasIn.field "callGasLimit") "gas.callGasLimit"
  let verificationGasLimit ←
    optionalQuantity (gasIn.field "verificationGasLimit") "gas.verificationGasLimit"
  let preVerificationGas ←
    optionalQuantity (gasIn.field "preVerificationGas") "gas.preVerificationGas"
  let paymasterVerificationGasLimit ←
    optionalQuantity (gasIn.field "paymasterVerificationGasLimit") "gas.paymasterVerificationGasLimit"
  let paymasterPostOpGasLimit ←
    optionalQuantity (gasIn.field "paymasterPostOpGasLimit") "gas.paymasterPostOpGasLimit"
  let tailCallsGas ← optionalQuantity (p.field "tailCallsGas") "tailCallsGas"
  let maxFeePerGas ← optionalQuantity (p.field "maxFeePerGas") "maxFeePerGas"
  let gas : GasOverrides := {
    callGasLimit, verificationGasLimit, preVerificationGas, paymasterVerificationGasLimit
    paymasterPostOpGasLimit }
  return { instance_, tailCallsGas, gas, maxFeePerGas }

/-- `toHex` of a bigint. -/
def quantityText (v : Int) : Except Thrown Json :=
  if v < 0 then .error (.viem "IntegerOutOfRangeError")
  else .ok (.string (String.ofList ('0' :: 'x' :: Nat.toDigits 16 v.toNat)))

def hexGas (gas : QuotedGas) : Except Thrown Json := do
  return .object [
    ("callGasLimit", ← quantityText gas.callGasLimit),
    ("verificationGasLimit", ← quantityText gas.verificationGasLimit),
    ("preVerificationGas", ← quantityText gas.preVerificationGas),
    ("paymasterVerificationGasLimit", ← quantityText gas.paymasterVerificationGasLimit),
    ("paymasterPostOpGasLimit", ← quantityText gas.paymasterPostOpGasLimit)]

def encodeQuote (quote : Quote) : Except Thrown Json := do
  return .object [
    ("relayer", .string (addressText quote.relayer)),
    ("paymaster", .string (addressText quote.paymaster)),
    ("entryPoint", .string (addressText quote.entryPoint)),
    ("instance", .string (addressText quote.instance_)),
    ("denomination", ← quantityText quote.denomination),
    ("feeToken", .string (addressText quote.feeToken)),
    ("decimals", .number quote.decimals),
    ("symbol", .string quote.symbol),
    ("tokenPerEth", ← quantityText quote.tokenPerEth),
    ("serviceFeeBps", ← quantityText quote.serviceFeeBps),
    ("serviceFee", ← quantityText quote.serviceFee),
    ("gasMarginBps", ← quantityText quote.gasMarginBps),
    ("gas", ← hexGas quote.gas),
    ("maxFeePerGas", ← quantityText quote.maxFeePerGas),
    ("maxPriorityFeePerGas", ← quantityText quote.maxPriorityFeePerGas),
    ("fee", ← quantityText quote.fee),
    ("validForSec", .number quote.validForSec)]

def tornadoQuote (s : QuotingService) (p : Json) (answers : QuoteAnswers) : Except Thrown Json := do
  let params ← parseQuoteParams p
  let quote ← quote s params answers
  encodeQuote quote

/-! ### The client -/

/-- What the client does not read as a quantity it takes as it comes. -/
structure RelayerQuote where
  relayer : Option Json
  paymaster : Option Json
  entryPoint : Option Json
  instance_ : Option Json
  denomination : Int
  feeToken : Option Json
  decimals : Option Json
  symbol : Option Json
  tokenPerEth : Int
  serviceFee : Int
  serviceFeeBps : Int
  gasMarginBps : Int
  gas : QuotedGas
  maxFeePerGas : Int
  maxPriorityFeePerGas : Int
  fee : Int
  validForSec : Option Json

/-- `RelayerRpc.quote`, from the result of the request on. -/
def readQuote (raw : Json) : Except Thrown RelayerQuote := do
  let gas ← readProperty (some raw) "gas"
  let denomination ← hexToBigInt (raw.field "denomination")
  let tokenPerEth ← hexToBigInt (raw.field "tokenPerEth")
  let serviceFee ← hexToBigInt (raw.field "serviceFee")
  let serviceFeeBps ← hexToBigInt (raw.field "serviceFeeBps")
  let gasMarginBps ← hexToBigInt (raw.field "gasMarginBps")
  let callGasLimit ← hexToBigInt (← readProperty gas "callGasLimit")
  let verificationGasLimit ← hexToBigInt (← readProperty gas "verificationGasLimit")
  let preVerificationGas ← hexToBigInt (← readProperty gas "preVerificationGas")
  let paymasterVerificationGasLimit ← hexToBigInt (← readProperty gas "paymasterVerificationGasLimit")
  let paymasterPostOpGasLimit ← hexToBigInt (← readProperty gas "paymasterPostOpGasLimit")
  let maxFeePerGas ← hexToBigInt (raw.field "maxFeePerGas")
  let maxPriorityFeePerGas ← hexToBigInt (raw.field "maxPriorityFeePerGas")
  let fee ← hexToBigInt (raw.field "fee")
  let gas : QuotedGas := {
    callGasLimit, verificationGasLimit, preVerificationGas, paymasterVerificationGasLimit
    paymasterPostOpGasLimit }
  return {
    relayer := raw.field "relayer"
    paymaster := raw.field "paymaster"
    entryPoint := raw.field "entryPoint"
    instance_ := raw.field "instance"
    feeToken := raw.field "feeToken"
    decimals := raw.field "decimals"
    symbol := raw.field "symbol"
    validForSec := raw.field "validForSec"
    denomination, tokenPerEth, serviceFee, serviceFeeBps, gasMarginBps, gas, maxFeePerGas
    maxPriorityFeePerGas, fee }

end TornadoRelayer.Quoting
