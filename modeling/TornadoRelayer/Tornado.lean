import TornadoRelayer.MerkleTreeWithHistory
import TornadoRelayer.Merkle
import TornadoRelayer.CallStack

/-! The pools `ETHTornado.sol` and `ERC20Tornado.sol` among arbitrary other contracts: the
recipient, the relayer and the token are called, and may call back. The token moves what it
is asked to, or fails. -/
namespace TornadoRelayer.Tornado

open BigEndian CallStack MerkleTreeWithHistory

/-- The public inputs of a proof, in their order. -/
structure Input where
  _root : Bytes32
  _nullifierHash : Bytes32
  _recipient : Address
  _relayer : Address
  _fee : Word 32
  _refund : Word 32
  deriving DecidableEq, Repr

structure IVerifier where
  verifyProof : (_proof : Bytes) → (_input : Input) → Bool

inductive Kind where
  | ETHTornado
  | ERC20Tornado
  deriving DecidableEq, Repr

/-- What is passed to the constructor. -/
structure Instance where
  kind : Kind
  verifier : IVerifier
  hasher : IHasher
  denomination : Word 32
  merkleTreeHeight : Word 4

structure World where
  tree : Tree
  nullifierHashes : Bytes32 → Bool
  commitments : Bytes32 → Bool
  /-- `_status` of the reentrancy guard. -/
  entered : Bool
  /-- ETH, in wei. -/
  balance : Nat
  /-- What the pool has of its token. -/
  tokens : Nat
  block : Nat
  deposited : List Merkle.LeafEvent
  withdrawn : List Input
  /-- The commitments and the proofs taken so far, in that order: a record the contract does
  not read. -/
  leaves : List Bytes32
  spends : List (Bytes × Input)

def World.initial (tree : Tree) (balance tokens block : Nat) : World where
  tree := tree
  nullifierHashes _ := false
  commitments _ := false
  entered := false
  balance := balance
  tokens := tokens
  block := block
  deposited := []
  withdrawn := []
  leaves := []
  spends := []

/-- The constructor, at an address that may hold something already. -/
def deploy (d : Instance) (balance tokens block : Nat) : Except String World := do
  let tree ← create d.merkleTreeHeight
  RelayerRegistry.require (d.denomination > 0) "denomination should be greater than 0"
  return .initial tree balance tokens block

/-- The calls the pool waits for. -/
inductive Pending where
  /-- `token.safeTransferFrom` to the pool. -/
  | collecting (_commitment : Bytes32) (insertedIndex : Nat)
  | payingRecipient (input : Input)
  | payingRelayer (input : Input)
  | sendingRecipient (input : Input)
  | sendingRelayer (input : Input)
  | refundingRecipient (input : Input)
  /-- `_relayer.transfer` of a refund the recipient did not take. -/
  | refundingRelayer (input : Input)

abbrev Outcome := Run World String Pending

/-! ### Deposits -/

def finishDeposit (_commitment : Bytes32) (insertedIndex : Nat) (s : World) : Outcome :=
  .returned { s with
    entered := false
    deposited := s.deposited ++ [⟨insertedIndex, _commitment.toNat, s.block⟩] }

def _processDeposit (d : Instance) (msgValue : Nat) (_commitment : Bytes32) (insertedIndex : Nat)
    (s : World) : Outcome :=
  match d.kind with
  | .ETHTornado =>
    if msgValue = d.denomination.toNat then finishDeposit _commitment insertedIndex s
    else .reverted "Please send `mixDenomination` ETH along with transaction"
  | .ERC20Tornado =>
    if msgValue = 0 then .calling s s (.collecting _commitment insertedIndex)
    else .reverted "ETH value is supposed to be 0 for ERC20 instance"

/-- The commitment in the tree, and the value with the pool. -/
def World.insert (s : World) (tree : Tree) (msgValue : Nat) (_commitment : Bytes32) : World :=
  { s with
    tree
    entered := true
    balance := s.balance + msgValue
    commitments := Function.update s.commitments _commitment true
    leaves := s.leaves ++ [_commitment] }

def deposit (d : Instance) (msgValue : Nat) (_commitment : Bytes32) (s : World) : Outcome :=
  if s.entered then .reverted "ReentrancyGuard: reentrant call"
  else if s.commitments _commitment then .reverted "The commitment has been submitted"
  else
    match _insert d.hasher _commitment s.tree with
    | .error reason => .reverted reason
    | .ok (insertedIndex, tree) =>
      _processDeposit d msgValue _commitment insertedIndex (s.insert tree msgValue _commitment)

/-! ### Withdrawals -/

def finishWithdraw (input : Input) (s : World) : Outcome :=
  .returned { s with entered := false, withdrawn := s.withdrawn ++ [input] }

/-- A call with a value of ETH. Without the funds it fails at once. -/
def send (amount : Nat) (pending : Pending) (failed : Outcome) (s : World) : Outcome :=
  if amount ≤ s.balance then .calling s { s with balance := s.balance - amount } pending
  else failed

def safeTransfer (amount : Nat) (pending : Pending) (s : World) : Outcome :=
  if amount ≤ s.tokens then .calling s { s with tokens := s.tokens - amount } pending
  else .reverted "SafeERC20: low-level call failed"

/-- After the recipient is paid in ETH. -/
def payRelayer (input : Input) (s : World) : Outcome :=
  if input._fee > 0 then
    send input._fee.toNat (.payingRelayer input) (.reverted "payment to _relayer did not go thru") s
  else finishWithdraw input s

def refundRelayer (input : Input) (s : World) : Outcome :=
  send input._refund.toNat (.refundingRelayer input) (.reverted "") s

/-- After the token transfers. -/
def refundRecipient (input : Input) (s : World) : Outcome :=
  if input._refund > 0 then
    send input._refund.toNat (.refundingRecipient input) (refundRelayer input s) s
  else finishWithdraw input s

def sendRelayer (input : Input) (s : World) : Outcome :=
  if input._fee > 0 then safeTransfer input._fee.toNat (.sendingRelayer input) s
  else refundRecipient input s

def _processWithdraw (d : Instance) (msgValue : Nat) (input : Input) (s : World) : Outcome :=
  match d.kind with
  | .ETHTornado =>
    if msgValue ≠ 0 then .reverted "Message value is supposed to be zero for ETH instance"
    else if input._refund ≠ 0 then .reverted "Refund value is supposed to be zero for ETH instance"
    else
      send (d.denomination - input._fee).toNat (.payingRecipient input)
        (.reverted "payment to _recipient did not go thru") s
  | .ERC20Tornado =>
    if msgValue ≠ input._refund.toNat then
      .reverted "Incorrect refund amount received by the contract"
    else safeTransfer (d.denomination - input._fee).toNat (.sendingRecipient input) s

/-- The note spent, and the value with the pool. -/
def World.spend (s : World) (msgValue : Nat) (_proof : Bytes) (input : Input) : World :=
  { s with
    entered := true
    balance := s.balance + msgValue
    nullifierHashes := Function.update s.nullifierHashes input._nullifierHash true
    spends := s.spends ++ [(_proof, input)] }

def withdraw (d : Instance) (msgValue : Nat) (_proof : Bytes) (input : Input) (s : World) : Outcome :=
  if s.entered then .reverted "ReentrancyGuard: reentrant call"
  else if input._fee > d.denomination then .reverted "Fee exceeds transfer value"
  else if s.nullifierHashes input._nullifierHash then .reverted "The note has been already spent"
  else if !isKnownRoot s.tree input._root then .reverted "Cannot find your merkle root"
  else if !d.verifier.verifyProof _proof input then .reverted "Invalid withdraw proof"
  else _processWithdraw d msgValue input (s.spend msgValue _proof input)

def isSpent (s : World) (_nullifierHash : Bytes32) : Bool := s.nullifierHashes _nullifierHash

/-! ### The contract -/

inductive Call where
  | deposit (msgValue : Nat) (_commitment : Bytes32)
  | withdraw (msgValue : Nat) (_proof : Bytes) (input : Input)

/-- ETH can be forced on the pool, tokens sent to it, and blocks go by. -/
inductive Act where
  | force (amount : Nat)
  | donate (amount : Nat)
  | mine

def pool (d : Instance) : Contract World String Pending Call Act where
  call
    | .deposit msgValue _commitment => deposit d msgValue _commitment
    | .withdraw msgValue _proof input => withdraw d msgValue _proof input
  resume
    | .collecting _commitment insertedIndex, ok, s =>
      if ok then
        finishDeposit _commitment insertedIndex
          { s with tokens := s.tokens + d.denomination.toNat }
      else .reverted "SafeERC20: low-level call failed"
    | .payingRecipient input, ok, s =>
      if ok then payRelayer input s else .reverted "payment to _recipient did not go thru"
    | .payingRelayer input, ok, s =>
      if ok then finishWithdraw input s else .reverted "payment to _relayer did not go thru"
    | .sendingRecipient input, ok, s =>
      if ok then sendRelayer input s else .reverted "SafeERC20: low-level call failed"
    | .sendingRelayer input, ok, s =>
      if ok then refundRecipient input s else .reverted "SafeERC20: low-level call failed"
    | .refundingRecipient input, ok, s =>
      if ok then finishWithdraw input s else refundRelayer input s
    | .refundingRelayer input, ok, s => if ok then finishWithdraw input s else .reverted ""
  act
    | .force amount, _, s => { s with balance := s.balance + amount }
    | .donate amount, _, s => { s with tokens := s.tokens + amount }
    | .mine, _, s => { s with block := s.block + 1 }

end TornadoRelayer.Tornado
