import TornadoRelayer.HexText

/-! The relayer's `validate.ts`: the calls an account makes, the Tornado withdrawals among
them, and the one that pays for the operation. -/
namespace TornadoRelayer

open BigEndian

structure DecodedCall where
  target : Address
  value : Nat
  data : Bytes
  deriving DecidableEq, Repr

inductive AccountCall where
  | execute (call : DecodedCall)
  | executeBatch (calls : List DecodedCall)

inductive PaymasterCall where
  | relayWithdraw (w : Withdrawal)
  | other

inductive InstanceCall where
  | withdraw (proof : Bytes) (root nullifierHash : Bytes32) (recipient relayer : Address)
    (fee refund : Word 32)
  | other

/-- `decodeFunctionData` for the ABIs of the account, the paymaster and the pools, `none`
where it throws. -/
structure Decoder where
  baseAccount : Bytes → Option AccountCall
  paymaster : Bytes → Option PaymasterCall
  tornadoInstance : Bytes → Option InstanceCall

inductive Via where
  | paymaster
  | direct
  deriving DecidableEq, Repr

structure TornadoWithdrawCall extends Withdrawal where
  index : Nat
  refund : Word 32
  via : Via
  deriving DecidableEq, Repr

/-- `new ValidationError(message)` with its default code. -/
def validationError (message : String) : Thrown := .validation message (-32001)

variable (decoder : Decoder)

def decodeAccountCalls (callData : Bytes) : Except Thrown (List DecodedCall) :=
  match decoder.baseAccount callData with
  | none => .error (validationError "callData is not BaseAccount.execute/executeBatch")
  | some (.execute call) => .ok [call]
  | some (.executeBatch calls) => .ok calls

def decodeTornadoWithdraw (paymaster : Option Address) (call : DecodedCall) (index : Nat) :
    Option TornadoWithdrawCall :=
  if paymaster = some call.target then
    match decoder.paymaster call.data with
    | some (.relayWithdraw w) => some { w with index, refund := 0, via := .paymaster }
    | _ => none
  else
    match decoder.tornadoInstance call.data with
    | some (.withdraw proof root nullifierHash recipient relayer fee refund) =>
      some { pool := call.target, proof, root, nullifierHash, recipient, relayer, fee, index,
             refund, via := .direct }
    | _ => none

def decodeTornadoWithdraws (calls : List DecodedCall) (paymaster : Option Address) :
    List TornadoWithdrawCall :=
  calls.zipIdx.filterMap fun (call, index) => decodeTornadoWithdraw decoder paymaster call index

structure SponsorRules where
  paymaster : Address
  /-- Whom the proof must name as `relayer`. -/
  rewardAccount : Address
  allowedInstances : List Address
  sender : Address

/-- What the paying withdrawal must satisfy. -/
def checkSponsoring (calls : List DecodedCall) (rules : SponsorRules) (w : TornadoWithdrawCall) :
    Except Thrown TornadoWithdrawCall :=
  if w.relayer ≠ rules.rewardAccount then .error (validationError
    s!"relayWithdraw must name {addressText rules.rewardAccount} as relayer, got {addressText w.relayer}")
  else if w.recipient ≠ rules.sender then .error (validationError
    s!"relayWithdraw recipient must be the userOp sender {addressText rules.sender}, got {addressText w.recipient}")
  else if w.pool ∉ rules.allowedInstances then .error (validationError
    s!"instance {addressText w.pool} is not served by this relayer")
  else match calls[w.index]? with
    | none => .error (.error "Cannot read properties of undefined (reading 'value')")
    | some call =>
      if call.value ≠ 0 then .error (validationError "relayWithdraw call must not carry value")
      else .ok w

def findSponsoringWithdraw (calls : List DecodedCall) (rules : SponsorRules) :
    Except Thrown TornadoWithdrawCall :=
  let withdraws := decodeTornadoWithdraws decoder calls (some rules.paymaster)
  let paymasterCalls := calls.filter fun c => c.target = rules.paymaster
  let relayed := withdraws.filter fun w => w.via = .paymaster
  if withdraws.length = 0 then .error (validationError "callData contains no Tornado withdraw")
  else if paymasterCalls.length ≠ relayed.length then
    .error (validationError "only relayWithdraw may be called on the paymaster")
  else match relayed with
    | [] => .error (validationError
      s!"no relayWithdraw call on the paymaster {addressText rules.paymaster}")
    | w :: _ =>
      if withdraws.length > 1 then .error (validationError
        "one Tornado withdrawal per operation: every relayed note must go through the router")
      else checkSponsoring calls rules w

end TornadoRelayer
