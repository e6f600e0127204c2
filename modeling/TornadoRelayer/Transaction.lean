import TornadoRelayer.Settlement
import TornadoRelayer.CallStack

/-! The paymaster inside one transaction. Its transient storage, its holdings and
its events are rolled back with the call that changed them; so is the history, a
record of what happened that the contract does not read. -/
namespace TornadoRelayer.Paymaster

open BigEndian Keccak CallStack

inductive Asset where
  | eth
  | token (a : Address)
  deriving DecidableEq, Repr

inductive PostOpMode where
  | opSucceeded
  | opReverted
  | postOpReverted
  deriving DecidableEq, Repr

inductive Event where
  | relayed (pool : Address) (nullifierHash : Bytes32) (relayer : Address) (fee : Word 32)
    (viaRouter : Bool)
  | sponsored (userOpHash : Bytes32) (refundTo feeToken : Address) (fee : Word 32)
    (actualGasCost refund : Nat)
  | sponsoredOpReverted (userOpHash : Bytes32) (actualGasCost : Nat)
  | feeNotReceived (userOpHash : Bytes32) (feeToken : Address) (expectedFee : Word 32)
  | refundFailed (userOpHash : Bytes32) (refundTo feeToken : Address) (amount : Nat)
  | depositFailed (userOpHash : Bytes32) (amount : Nat)
  deriving DecidableEq, Repr

inductive Entry where
  | validated (context : Context)
  | dryRun (sender : Address) (withdrawal : Bytes32)
  | begun (msgSender : Address) (w : Withdrawal)
  | called (target : Address) (w : Withdrawal)
  /-- Something arrived; `measured` when a running relay was measuring that asset. -/
  | entered (asset : Asset) (amount : Nat) (measured : Bool)
  | recorded (asset : Asset) (sender : Address) (amount : Nat)
  | took (sender : Address) (eth token : Word 32)
  | left (asset : Asset) (amount : Nat)
  deriving DecidableEq, Repr

structure World where
  transient : Bytes32 → Word 32
  /-- ETH, in wei. -/
  balance : Nat
  /-- What each ERC-20 reports for the paymaster. -/
  tokens : Address → Nat
  events : List Event
  history : List Entry

def World.note (s : World) (entry : Entry) : World := { s with history := entry :: s.history }

def World.emit (s : World) (event : Event) : World := { s with events := event :: s.events }

def World.tstore (s : World) (slot : Bytes32) (value : Word 32) : World :=
  { s with transient := fun k => if k = slot then value else s.transient k }

def World.holding (s : World) : Asset → Nat
  | .eth => s.balance
  | .token a => s.tokens a

def World.setHolding (s : World) (asset : Asset) (amount : Nat) : World :=
  match asset with
  | .eth => { s with balance := amount }
  | .token a => { s with tokens := fun t => if t = a then amount else s.tokens t }

/-- The asset leaves with a call of the paymaster. -/
def World.pay (s : World) (asset : Asset) (amount : Nat) : World :=
  (s.setHolding asset (s.holding asset - amount)).note (.left asset amount)

/-! ### Transient slots -/

def SPONSORSHIP_SLOT_SEED : Bytes32 := keccak256 (ascii "tornado-4337-relayer.sponsorship")
def RECEIVED_ETH_SLOT_SEED : Bytes32 := keccak256 (ascii "tornado-4337-relayer.received.eth")
def RECEIVED_TOKEN_SLOT_SEED : Bytes32 := keccak256 (ascii "tornado-4337-relayer.received.token")

def sponsorshipSlot (sender : Address) (withdrawal : Bytes32) : Bytes32 :=
  keccak256 (abiEncode [SPONSORSHIP_SLOT_SEED.toNat, sender.toNat, withdrawal.toNat])

def receivedSlot (seed : Bytes32) (sender : Address) : Bytes32 :=
  keccak256 (abiEncode [seed.toNat, sender.toNat])

/-- One slot for ETH and one for all tokens. -/
def Asset.seed : Asset → Bytes32
  | .eth => RECEIVED_ETH_SLOT_SEED
  | .token _ => RECEIVED_TOKEN_SLOT_SEED

def sponsorshipAllowance (s : World) (sender : Address) (withdrawal : Bytes32) : Word 32 :=
  s.transient (sponsorshipSlot sender withdrawal)

def grantSponsorship (s : World) (sender : Address) (withdrawal : Bytes32) : World :=
  s.tstore (sponsorshipSlot sender withdrawal) (sponsorshipAllowance s sender withdrawal + 1)

def consumeSponsorship (s : World) (sender : Address) (withdrawal : Bytes32) :
    Except Revert World :=
  let allowance := sponsorshipAllowance s sender withdrawal
  if allowance = 0 then .error (.notSponsored sender withdrawal)
  else .ok (s.tstore (sponsorshipSlot sender withdrawal) (allowance - 1))

def addReceived (s : World) (asset : Asset) (sender : Address) (amount : Nat) : World :=
  if amount = 0 then s
  else
    let slot := receivedSlot asset.seed sender
    (s.tstore slot (s.transient slot + BitVec.ofNat 256 amount)).note (.recorded asset sender amount)

/-- Both amounts collected for the sender, and both slots cleared. -/
def takeReceived (s : World) (sender : Address) : Word 32 × Word 32 × World :=
  let eth := s.transient (receivedSlot RECEIVED_ETH_SLOT_SEED sender)
  let s := s.tstore (receivedSlot RECEIVED_ETH_SLOT_SEED sender) 0
  let token := s.transient (receivedSlot RECEIVED_TOKEN_SLOT_SEED sender)
  let s := s.tstore (receivedSlot RECEIVED_TOKEN_SLOT_SEED sender) 0
  (eth, token, s.note (.took sender eth token))

/-! ### Relaying -/

/-- Whether the `token()` call succeeded, and what it returned. -/
structure TokenAnswer where
  ok : Bool
  data : Bytes
  deriving DecidableEq, Repr

def poolToken (answer : TokenAnswer) : Except Revert Address :=
  if answer.ok ∧ answer.data.length = 32 then
    if answer.data.take 12 = List.replicate 12 0 then .ok (Word.ofBytes 20 (answer.data.drop 12))
    else .error .other
  else .ok 0

/-- A relay waiting for the router or the pool. -/
structure RelayPending where
  withdrawal : Withdrawal
  viaRouter : Bool
  token : Address
  ethBefore : Nat
  tokenBefore : Nat

/-- `_relayWithdraw` up to its external call. -/
def beginRelay (d : Deployment) (msgSender : Address) (w : Withdrawal) (answer : TokenAnswer)
    (s : World) : Run World Revert RelayPending :=
  match consumeSponsorship s w.recipient (withdrawalHash w) with
  | .error reason => .reverted reason
  | .ok consumed =>
    match poolToken answer with
    | .error reason => .reverted reason
    | .ok token =>
      let viaRouter := d.router ≠ 0
      let target := if viaRouter then d.router else w.pool
      let s := (consumed.note (.begun msgSender w)).note (.called target w)
      .calling s s ⟨w, viaRouter, token, s.balance, if token = 0 then 0 else s.tokens token⟩

/-- The rest of it. The subtractions are checked. -/
def endRelay (p : RelayPending) (ok : Bool) (s : World) : Run World Revert RelayPending :=
  let w := p.withdrawal
  if ok then
    if s.balance < p.ethBefore then .reverted .other
    else
      let s := addReceived s .eth w.recipient (s.balance - p.ethBefore)
      let relayed := Event.relayed w.pool w.nullifierHash w.relayer w.fee p.viaRouter
      if p.token = 0 then .returned (s.emit relayed)
      else if s.tokens p.token < p.tokenBefore then .reverted .other
      else
        .returned ((addReceived s (.token p.token) w.recipient
          (s.tokens p.token - p.tokenBefore)).emit relayed)
  else .reverted .other

def relayWithdraw (d : Deployment) (msgSender : Address) (w : Withdrawal) (answer : TokenAnswer)
    (s : World) : Run World Revert RelayPending :=
  if msgSender ≠ w.recipient then .reverted .onlyRecipient
  else beginRelay d msgSender w answer s

def relayWithdrawSimulated (d : Deployment) (msgSender : Address) (w : Withdrawal)
    (answer : TokenAnswer) (s : World) : Run World Revert RelayPending :=
  if msgSender ≠ d.self then .reverted .onlySelf
  else beginRelay d msgSender w answer s

/-- The caller of a self-call that reports the outcome and reverts. -/
def simulated : Run World Revert RelayPending → Run World Revert RelayPending
  | .returned _ => .reverted (.simulationResult true)
  | .reverted _ => .reverted (.simulationResult false)
  | .calling atCall after p => .calling atCall after p

def simulateRelayWithdraw (d : Deployment) (w : Withdrawal) (answer : TokenAnswer) (s : World) :
    Run World Revert RelayPending :=
  let granted := (grantSponsorship s w.recipient (withdrawalHash w)).note
    (.dryRun w.recipient (withdrawalHash w))
  simulated (relayWithdrawSimulated d d.self w answer granted)

/-! ### Settling -/

inductive Pending where
  | relay (p : RelayPending)
  | simulating (p : RelayPending)
  | refundingEth (ctx : Context) (actualGasCost balance refund : Nat)
  | depositing (ctx : Context) (actualGasCost balance refund : Nat)
  | refundingToken (ctx : Context) (actualGasCost refund : Nat)
  | transferring

def refundToken (d : Deployment) (msgSender token : Address) (amount : Nat) (s : World) :
    Run World Revert Unit :=
  if msgSender ≠ d.self then .reverted .onlySelf
  else .calling s (s.pay (.token token) amount) ()

def finish (ctx : Context) (actualGasCost refund : Nat) (s : World) : Run World Revert Pending :=
  .returned (s.emit (.sponsored ctx.userOpHash ctx.terms.refundTo ctx.terms.feeToken ctx.terms.fee
    actualGasCost refund))

/-- What is left of the received ETH goes to the EntryPoint. -/
def depositRest (ctx : Context) (actualGasCost balance refund : Nat) (s : World) :
    Run World Revert Pending :=
  if balance = 0 then finish ctx actualGasCost refund s
  else if s.balance < balance then
    finish ctx actualGasCost refund (s.emit (.depositFailed ctx.userOpHash balance))
  else .calling s (s.pay .eth balance) (.depositing ctx actualGasCost balance refund)

def refundFailed (ctx : Context) (amount : Nat) (s : World) : World :=
  s.emit (.refundFailed ctx.userOpHash ctx.terms.refundTo ctx.terms.feeToken amount)

/-- A refund was promised and nothing was received. -/
def expectFee (ctx : Context) (balance : Nat) (s : World) : World :=
  if ctx.terms.refundTo ≠ 0 ∧ balance = 0 then
    s.emit (.feeNotReceived ctx.userOpHash ctx.terms.feeToken ctx.terms.fee)
  else s

def settleEth (ctx : Context) (keep actualGasCost balance : Nat) (s : World) :
    Run World Revert Pending :=
  let s := expectFee ctx balance s
  let refund := refundDue ctx.terms keep balance
  if refund = 0 then depositRest ctx actualGasCost balance 0 s
  else if s.balance < refund then
    depositRest ctx actualGasCost balance 0 (refundFailed ctx refund s)
  else .calling s (s.pay .eth refund) (.refundingEth ctx actualGasCost balance refund)

def settleToken (d : Deployment) (ctx : Context) (keep actualGasCost balance : Nat) (s : World) :
    Run World Revert Pending :=
  let s := expectFee ctx balance s
  let refund := refundDue ctx.terms keep balance
  if refund = 0 then finish ctx actualGasCost 0 s
  else
    match refundToken d d.self ctx.terms.feeToken refund s with
    | .returned s => finish ctx actualGasCost refund s
    | .reverted _ => finish ctx actualGasCost 0 (refundFailed ctx refund s)
    | .calling atCall after _ => .calling atCall after (.refundingToken ctx actualGasCost refund)

def postOp (d : Deployment) (msgSender : Address) (mode : PostOpMode) (ctx : Context)
    (actualGasCost actualUserOpFeePerGas : Word 32) (s : World) : Run World Revert Pending :=
  if msgSender ≠ d.entryPoint then .reverted .onlyEntryPoint
  else
    let (receivedEth, receivedToken, s) := takeReceived s ctx.sender
    if mode ≠ .opSucceeded then
      .returned (s.emit (.sponsoredOpReverted ctx.userOpHash actualGasCost.toNat))
    else
      match keepAmount d ctx.terms actualGasCost.toNat actualUserOpFeePerGas.toNat with
      | .error reason => .reverted reason
      | .ok keep =>
        if ctx.terms.feeToken = 0 then settleEth ctx keep actualGasCost.toNat receivedEth.toNat s
        else settleToken d ctx keep actualGasCost.toNat receivedToken.toNat s

/-! ### The contract -/

inductive Call where
  | validatePaymasterUserOp (msgSender : Address) (chain : Chain) (userOp : PackedUserOperation)
    (userOpHash : Bytes32)
  | relayWithdraw (msgSender : Address) (w : Withdrawal) (answer : TokenAnswer)
  | simulateRelayWithdraw (msgSender : Address) (w : Withdrawal) (answer : TokenAnswer)
  | relayWithdrawSimulated (msgSender : Address) (w : Withdrawal) (answer : TokenAnswer)
  | postOp (msgSender : Address) (mode : PostOpMode) (ctx : Context)
    (actualGasCost actualUserOpFeePerGas : Word 32)
  | refundToken (msgSender token recipient : Address) (amount : Word 32)

def Call.msgSender : Call → Address
  | .validatePaymasterUserOp msgSender .. | .relayWithdraw msgSender ..
  | .simulateRelayWithdraw msgSender .. | .relayWithdrawSimulated msgSender ..
  | .postOp msgSender .. | .refundToken msgSender .. => msgSender

/-- Anyone may send the paymaster ETH or tokens, and a token may report any balance. -/
inductive Act where
  | receive (asset : Asset) (amount : Nat)
  | report (token : Address) (amount : Nat)

/-- What a relay that may record it measured of the asset before its external call. A
dry run measures too, and reverts. -/
def Pending.before (asset : Asset) : Pending → Option Nat
  | .relay p =>
    match asset with
    | .eth => some p.ethBefore
    | .token a => if p.token = a ∧ a ≠ 0 then some p.tokenBefore else none
  | _ => none

def befores (asset : Asset) (ks : List Pending) : List Nat := ks.filterMap (Pending.before asset)

def validatePaymasterUserOp (lib : Eip7702Support) (tryRecover : Bytes32 → Bytes → Option Address)
    (d : Deployment) (msgSender : Address) (chain : Chain) (userOp : PackedUserOperation)
    (userOpHash : Bytes32) (s : World) : Run World Revert Pending :=
  match validationResult lib tryRecover d chain msgSender userOp userOpHash with
  | .error reason => .reverted reason
  | .ok (ctx,_) =>
    .returned ((grantSponsorship s ctx.sender ctx.terms.withdrawalHash).note (.validated ctx))

def paymaster (lib : Eip7702Support) (tryRecover : Bytes32 → Bytes → Option Address)
    (d : Deployment) : Contract World Revert Pending Call Act where
  call
    | .validatePaymasterUserOp msgSender chain userOp userOpHash =>
      validatePaymasterUserOp lib tryRecover d msgSender chain userOp userOpHash
    | .relayWithdraw msgSender w answer => fun s => (relayWithdraw d msgSender w answer s).map .relay
    | .simulateRelayWithdraw _ w answer => fun s =>
      (simulateRelayWithdraw d w answer s).map .simulating
    | .relayWithdrawSimulated msgSender w answer => fun s =>
      (relayWithdrawSimulated d msgSender w answer s).map .relay
    | .postOp msgSender mode ctx actualGasCost feePerGas =>
      postOp d msgSender mode ctx actualGasCost feePerGas
    | .refundToken msgSender token _ amount => fun s =>
      (refundToken d msgSender token amount.toNat s).map (fun _ => .transferring)
  resume
    | .relay p, ok, s => (endRelay p ok s).map .relay
    | .simulating p, ok, s => (simulated (endRelay p ok s)).map .simulating
    | .refundingEth ctx actualGasCost balance refund, ok, s =>
      if ok then depositRest ctx actualGasCost (balance - refund) refund s
      else depositRest ctx actualGasCost balance 0 (refundFailed ctx refund s)
    | .depositing ctx actualGasCost balance refund, ok, s =>
      finish ctx actualGasCost refund
        (if ok then s else s.emit (.depositFailed ctx.userOpHash balance))
    | .refundingToken ctx actualGasCost refund, ok, s =>
      if ok then finish ctx actualGasCost refund s
      else finish ctx actualGasCost 0 (refundFailed ctx refund s)
    | .transferring, ok, s => if ok then .returned s else .reverted .other
  act
    | .receive asset amount, ks, s =>
      (s.setHolding asset (s.holding asset + amount)).note
        (.entered asset amount (befores asset ks ≠ []))
    | .report token amount, _, s => s.setHolding (.token token) amount

/-- Nobody else calls in the paymaster's name; its owner, who could, does not. -/
def External (d : Deployment) : Allowed World Pending Call Act
  | _, _, .call c => c.msgSender ≠ d.self
  | _, _, _ => True

/-- A transaction starts with empty transient storage. -/
def World.initial (balance : Nat) (tokens : Address → Nat) : World :=
  ⟨fun _ => 0,balance,tokens,[],[]⟩

end TornadoRelayer.Paymaster
