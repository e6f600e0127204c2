import TornadoRelayer.UserOp

/-! The stateless part of `TornadoRelayerPaymasterCore`: the terms a packed
operation carries, the hash the relayer signs and the checks of validation.
The account-abstraction library and the signature recovery are parameters. -/
namespace TornadoRelayer.Paymaster

open BigEndian Keccak

structure PackedUserOperation where
  sender : Address
  nonce : Word 32
  initCode : Bytes
  callData : Bytes
  accountGasLimits : Bytes32
  preVerificationGas : Word 32
  gasFees : Bytes32
  paymasterAndData : Bytes
  signature : Bytes
  deriving DecidableEq, Repr

structure Terms where
  validUntil : Word 6
  validAfter : Word 6
  fee : Word 32
  serviceFee : Word 32
  refundTo : Address
  feeToken : Address
  tokenPerEth : Word 32
  withdrawalHash : Bytes32
  senderImplementation : Address
  deriving DecidableEq, Repr

inductive Revert where
  | invalidPaymasterDataLength (actual expected : Nat)
  | onlySelf
  | onlyEntryPoint
  | onlyRecipient
  | notSponsored (sender : Address) (withdrawalHash : Bytes32)
  | simulationResult (success : Bool)
  | senderImplementationMismatch (sender expected : Address)
  /-- A checked operation, an ABI decoding or an external call that failed. -/
  | other
  deriving DecidableEq, Repr

def PAYMASTER_VALIDATION_GAS_OFFSET : Nat := 20
def PAYMASTER_DATA_OFFSET : Nat := 52
def VALID_UNTIL_OFFSET : Nat := PAYMASTER_DATA_OFFSET
def VALID_AFTER_OFFSET : Nat := VALID_UNTIL_OFFSET + 6
def FEE_OFFSET : Nat := VALID_AFTER_OFFSET + 6
def SERVICE_FEE_OFFSET : Nat := FEE_OFFSET + 32
def REFUND_TO_OFFSET : Nat := SERVICE_FEE_OFFSET + 32
def FEE_TOKEN_OFFSET : Nat := REFUND_TO_OFFSET + 20
def TOKEN_PER_ETH_OFFSET : Nat := FEE_TOKEN_OFFSET + 20
def WITHDRAWAL_HASH_OFFSET : Nat := TOKEN_PER_ETH_OFFSET + 32
def SENDER_IMPL_OFFSET : Nat := WITHDRAWAL_HASH_OFFSET + 32
def SIGNATURE_OFFSET : Nat := SENDER_IMPL_OFFSET + 20
def PAYMASTER_AND_DATA_LENGTH : Nat := SIGNATURE_OFFSET + 65

def parsePaymasterAndData (data : Bytes) : Except Revert (Terms × Bytes) :=
  if data.length ≠ PAYMASTER_AND_DATA_LENGTH then
    .error (.invalidPaymasterDataLength data.length PAYMASTER_AND_DATA_LENGTH)
  else .ok
    ({ validUntil := Word.ofBytes 6 (slice data VALID_UNTIL_OFFSET VALID_AFTER_OFFSET)
       validAfter := Word.ofBytes 6 (slice data VALID_AFTER_OFFSET FEE_OFFSET)
       fee := Word.ofBytes 32 (slice data FEE_OFFSET SERVICE_FEE_OFFSET)
       serviceFee := Word.ofBytes 32 (slice data SERVICE_FEE_OFFSET REFUND_TO_OFFSET)
       refundTo := Word.ofBytes 20 (slice data REFUND_TO_OFFSET FEE_TOKEN_OFFSET)
       feeToken := Word.ofBytes 20 (slice data FEE_TOKEN_OFFSET TOKEN_PER_ETH_OFFSET)
       tokenPerEth := Word.ofBytes 32 (slice data TOKEN_PER_ETH_OFFSET WITHDRAWAL_HASH_OFFSET)
       withdrawalHash := Word.ofBytes 32 (slice data WITHDRAWAL_HASH_OFFSET SENDER_IMPL_OFFSET)
       senderImplementation := Word.ofBytes 20 (slice data SENDER_IMPL_OFFSET SIGNATURE_OFFSET) },
     data.drop SIGNATURE_OFFSET)

/-! ### Hashing -/

/-- `abi.encode` of value types: one word each. -/
def abiEncode (values : List Nat) : Bytes := values.flatMap (toBytes 32)

theorem Word.fits {n : Nat} (w : Word n) (narrow : n ≤ 32) : w.toNat < 256 ^ 32 :=
  w.toNat_lt.trans_le (Nat.pow_le_pow_right (by norm_num) narrow)

/-- Equal encodings of as many words hold equal words. -/
theorem abiEncode_injective {xs ys : List Nat} (hx : ∀ v ∈ xs, v < 256 ^ 32)
    (hy : ∀ v ∈ ys, v < 256 ^ 32) (length : xs.length = ys.length)
    (same : abiEncode xs = abiEncode ys) : xs = ys := by
  induction xs generalizing ys with
  | nil => exact (List.length_eq_zero_iff.mp length.symm).symm
  | cons x xs ih =>
    cases ys with
    | nil => contradiction
    | cons y ys =>
      obtain ⟨head,tail⟩ := List.append_inj same (by simp)
      have first := toBytes_injective (hx x (by simp)) (hy y (by simp)) head
      have rest := ih (fun v hv => hx v (by simp [hv])) (fun v hv => hy v (by simp [hv]))
        (Nat.succ.inj length) tail
      rw [first,rest]

theorem abiEncode_length (values : List Nat) : (abiEncode values).length = 32 * values.length := by
  induction values with
  | nil => rfl
  | cons v values ih =>
    rw [abiEncode,List.flatMap_cons,List.length_append,toBytes_length,List.length_cons]
    rw [abiEncode] at ih
    omega

def withdrawalHash (w : Withdrawal) : Bytes32 :=
  keccak256 (abiEncode [w.pool.toNat, (keccak256 w.proof).toNat, w.root.toNat,
    w.nullifierHash.toNat, w.recipient.toNat, w.relayer.toNat, w.fee.toNat])

/-- The code EIP-7702 gives an account that delegates to `implementation`. -/
def designator (implementation : Address) : Bytes := [0xef, 0x01, 0x00] ++ implementation.bytes

/-- What the contract reads of the chain. A delegation to the zero address clears
the account's code, so its designator occurs nowhere. -/
structure Chain where
  chainid : Word 32
  code : Address → Bytes
  noZeroDelegate : ∀ account, code account ≠ designator 0

/-- The EIP-7702 delegate of an account, if it has one. -/
def Chain.delegate (chain : Chain) (account : Address) : Option Address :=
  let code := chain.code account
  if code.length = 23 ∧ code.take 3 = [0xef, 0x01, 0x00] then some (Word.ofBytes 20 (code.drop 3))
  else none

/-- At least two bytes whose first 20, zero-extended, are `0x7702` and 18 zeros. -/
def MarkedInitCode (initCode : Bytes) : Prop :=
  2 ≤ initCode.length ∧
    (initCode ++ List.replicate 20 0).take 20 = 0x77 :: 0x02 :: List.replicate 18 0

instance (initCode : Bytes) : Decidable (MarkedInitCode initCode) :=
  inferInstanceAs (Decidable (_ ∧ _))

/-- `Eip7702Support._getEip7702InitCodeHashOverride` of the account-abstraction
library, known by what it documents. -/
structure Eip7702Support where
  initCodeHashOverride : Chain → PackedUserOperation → Except Revert Bytes32
  unmarked : ∀ chain op, ¬MarkedInitCode op.initCode → initCodeHashOverride chain op = .ok 0
  delegated : ∀ chain op delegate, MarkedInitCode op.initCode →
    chain.delegate op.sender = some delegate →
    initCodeHashOverride chain op = .ok (keccak256 (delegate.bytes ++ op.initCode.drop 20))
  undelegated : ∀ chain op, MarkedInitCode op.initCode → chain.delegate op.sender = none →
    ∃ reason, initCodeHashOverride chain op = .error reason

/-- A library of that description. -/
def Eip7702Support.standard : Eip7702Support where
  initCodeHashOverride chain op :=
    if MarkedInitCode op.initCode then
      match chain.delegate op.sender with
      | some delegate => .ok (keccak256 (delegate.bytes ++ op.initCode.drop 20))
      | none => .error .other
    else .ok 0
  unmarked _ _ plain := if_neg plain
  delegated _ _ _ marked current := by rw [if_pos marked,current]
  undelegated _ _ marked none := ⟨.other,by rw [if_pos marked,none]⟩

variable (lib : Eip7702Support)

def userOpFieldsHash (chain : Chain) (userOp : PackedUserOperation) : Except Revert Bytes32 := do
  let override ← lib.initCodeHashOverride chain userOp
  let initCodeHash := if override = 0 then keccak256 userOp.initCode else override
  return keccak256 (abiEncode [
    userOp.sender.toNat,
    userOp.nonce.toNat,
    initCodeHash.toNat,
    (keccak256 userOp.callData).toNat,
    userOp.accountGasLimits.toNat,
    (Word.ofBytes 32 (slice userOp.paymasterAndData PAYMASTER_VALIDATION_GAS_OFFSET
      PAYMASTER_DATA_OFFSET)).toNat,
    userOp.preVerificationGas.toNat,
    userOp.gasFees.toNat])

def getHash (chain : Chain) (self : Address) (userOp : PackedUserOperation) (terms : Terms) :
    Except Revert Bytes32 := do
  let fieldsHash ← userOpFieldsHash lib chain userOp
  return keccak256 (abiEncode [
    fieldsHash.toNat,
    chain.chainid.toNat,
    self.toNat,
    terms.validUntil.toNat,
    terms.validAfter.toNat,
    terms.fee.toNat,
    terms.serviceFee.toNat,
    terms.refundTo.toNat,
    terms.feeToken.toNat,
    terms.tokenPerEth.toNat,
    terms.withdrawalHash.toNat,
    terms.senderImplementation.toNat])

def ETH_SIGNED_MESSAGE_PREFIX : Bytes := 0x19 :: ascii "Ethereum Signed Message:\n32"

def toEthSignedMessageHash (hash : Bytes32) : Bytes32 :=
  keccak256 (ETH_SIGNED_MESSAGE_PREFIX ++ hash.bytes)

/-- The digest validation recovers the signer from. -/
def signedDigest (chain : Chain) (self : Address) (userOp : PackedUserOperation) :
    Except Revert Bytes32 := do
  let (terms, _) ← parsePaymasterAndData userOp.paymasterAndData
  return toEthSignedMessageHash (← getHash lib chain self userOp terms)

/-! ### Validation -/

/-- The constructor's and the owner's parameters, as the view functions report them. -/
structure Deployment where
  self : Address
  entryPoint : Address
  owner : Address
  verifyingSigner : Address
  gasMarginBps : Word 32
  postOpGasOverhead : Word 32
  router : Address
  deriving DecidableEq, Repr

def delegatedTo (chain : Chain) (account implementation : Address) : Bool :=
  let code := chain.code account
  code.length == 23 && keccak256 code == keccak256 (designator implementation)

structure Context where
  userOpHash : Bytes32
  sender : Address
  terms : Terms
  deriving DecidableEq, Repr

structure ValidationData where
  sigFailed : Bool
  validUntil : Word 6
  validAfter : Word 6
  deriving DecidableEq, Repr

/-- What `validatePaymasterUserOp` checks and returns; its one write, the grant, needs
the transaction's state. -/
def validationResult (tryRecover : Bytes32 → Bytes → Option Address) (d : Deployment)
    (chain : Chain) (msgSender : Address) (userOp : PackedUserOperation) (userOpHash : Bytes32) :
    Except Revert (Context × ValidationData) := do
  if msgSender ≠ d.entryPoint then throw .onlyEntryPoint
  let (terms, sig) ← parsePaymasterAndData userOp.paymasterAndData
  if terms.senderImplementation ≠ 0 ∧ ¬delegatedTo chain userOp.sender terms.senderImplementation then
    throw (.senderImplementationMismatch userOp.sender terms.senderImplementation)
  let digest := toEthSignedMessageHash (← getHash lib chain d.self userOp terms)
  let sigFailed := tryRecover digest sig ≠ some d.verifyingSigner
  return (⟨userOpHash, userOp.sender, terms⟩, ⟨sigFailed, terms.validUntil, terms.validAfter⟩)

/-- What a validation that does not revert has checked. -/
theorem validationResult_ok_iff {tryRecover : Bytes32 → Bytes → Option Address} {d : Deployment}
    {chain : Chain} {msgSender : Address} {userOp : PackedUserOperation} {userOpHash : Bytes32}
    {result : Context × ValidationData} :
    validationResult lib tryRecover d chain msgSender userOp userOpHash = .ok result ↔
      msgSender = d.entryPoint ∧ ∃ t sig hash,
        parsePaymasterAndData userOp.paymasterAndData = .ok (t,sig) ∧
        (t.senderImplementation ≠ 0 → delegatedTo chain userOp.sender t.senderImplementation = true) ∧
        getHash lib chain d.self userOp t = .ok hash ∧
        result = (⟨userOpHash, userOp.sender, t⟩,
          ⟨tryRecover (toEthSignedMessageHash hash) sig ≠ some d.verifyingSigner, t.validUntil,
            t.validAfter⟩) := by
  rw [validationResult]
  by_cases caller : msgSender = d.entryPoint
  · simp only [caller,ne_eq,not_true_eq_false,if_false,true_and]
    rw [bind_ok_iff]
    constructor
    · rintro ⟨⟨t,sig⟩,parsed,checked⟩
      refine ⟨t,sig,?_⟩
      simp only at checked
      split at checked
      · contradiction
      · next delegated =>
        obtain ⟨hash,hashed,built⟩ := bind_ok_iff.mp checked
        refine ⟨hash,parsed,?_,hashed,(Except.ok.inj built).symm⟩
        intro bound
        exact not_not.mp (fun wrong => delegated ⟨bound,wrong⟩)
    · rintro ⟨t,sig,hash,parsed,delegated,hashed,rfl⟩
      refine ⟨(t,sig),parsed,?_⟩
      have unblocked : ¬(t.senderImplementation ≠ 0 ∧
          ¬delegatedTo chain userOp.sender t.senderImplementation = true) :=
        fun blocked => blocked.2 (delegated blocked.1)
      simp only
      rw [if_neg unblocked]
      exact bind_ok_iff.mpr ⟨hash,hashed,rfl⟩
  · simp only [caller,ne_eq,not_false_eq_true,if_true,false_and,iff_false]
    intro returned
    contradiction

end TornadoRelayer.Paymaster
