import TornadoRelayer.JavaScript
import TornadoRelayer.Keccak
import Mathlib.Data.List.Forall2
import Mathlib.Data.Rat.Defs

/-! The relayer's `userop.ts`: the operation as it travels over JSON-RPC, its
gas figures, the paymaster data it signs and the hash it signs. Whole bytes of hex
are a byte string and an address is 20 bytes, so letter case has no counterpart; a
`number` is an exact rational and a `bigint` an integer. -/
namespace TornadoRelayer

open BigEndian JavaScript Keccak

abbrev Address := Word 20
abbrev Bytes32 := Word 32
abbrev JsNumber := ℚ

def zeroAddress : Address := 0

instance decidableListed (a : Address) (list : List Address) : Decidable (a ∈ list) := inferInstance

inductive Thrown where
  | error (message : String)
  | validation (message : String) (code : Int)
  | viem (name : String)
  deriving DecidableEq, Repr

/-- A quantity field of a request: missing, no hex at all, `0x` alone, or a value. -/
inductive Quantity where
  | absent
  | malformed
  | empty
  | value (n : Nat)
  deriving DecidableEq, Repr

/-- What a request has where its type says hex data: whole bytes, another text, or no text. -/
inductive HexField where
  | bytes (data : Bytes)
  | text (chars : List Char)
  | null
  | other (truthy : Bool)
  deriving DecidableEq, Repr

/-- A text in an address field. -/
inductive AddressText where
  | invalid
  | valid (address : Address)
  deriving DecidableEq, Repr

structure Eip7702Auth where
  address : Option AddressText
  contractAddress : Option AddressText
  deriving DecidableEq, Repr

structure RpcUserOperation where
  sender : Address
  nonce : Quantity
  factory : Option HexField
  factoryData : Option HexField
  initCode : Option HexField
  callData : Bytes
  callGasLimit : Quantity
  verificationGasLimit : Quantity
  preVerificationGas : Quantity
  maxFeePerGas : Quantity
  maxPriorityFeePerGas : Quantity
  paymaster : Option Address
  paymasterVerificationGasLimit : Quantity
  paymasterPostOpGasLimit : Quantity
  paymasterData : Option Bytes
  signature : Option Bytes
  eip7702Auth : Option Eip7702Auth
  deriving DecidableEq, Repr

structure UserOpGas where
  callGasLimit : Nat
  verificationGasLimit : Nat
  preVerificationGas : Nat
  paymasterVerificationGasLimit : Nat
  paymasterPostOpGasLimit : Nat
  deriving DecidableEq, Repr

structure FeeTerms where
  validUntil : JsNumber
  validAfter : JsNumber
  fee : Int
  serviceFee : Int
  refundTo : Address
  feeToken : Address
  tokenPerEth : Int
  withdrawalHash : Bytes32
  senderImplementation : Address
  deriving DecidableEq, Repr

/-- Values the contract's fields can hold. -/
structure FeeTerms.InRange (terms : FeeTerms) : Prop where
  validUntil : ∃ n : Nat, n < 2 ^ 48 ∧ terms.validUntil = n
  validAfter : ∃ n : Nat, n < 2 ^ 48 ∧ terms.validAfter = n
  fee : 0 ≤ terms.fee ∧ terms.fee < 2 ^ 256
  serviceFee : 0 ≤ terms.serviceFee ∧ terms.serviceFee < 2 ^ 256
  tokenPerEth : 0 ≤ terms.tokenPerEth ∧ terms.tokenPerEth < 2 ^ 256

def PAYMASTER_DATA_OFFSET : Nat := 52
def PAYMASTER_AND_DATA_LENGTH : Nat := 317
def SIGNATURE_LENGTH : Nat := 65
def RATE_SCALE : Nat := 10 ^ 18

/-- r = s = 1, v = 27. -/
def DUMMY_SIGNATURE : Bytes := toBytes 32 1 ++ toBytes 32 1 ++ [0x1b]

def q (value : Quantity) (field : String) : Except Thrown Nat :=
  match value with
  | .value n => .ok n
  | .empty => .error (.error "Cannot convert 0x to a BigInt")
  | _ => .error (.error s!"userOp.{field} must be a hex quantity")

/-! ### Client-library encoders -/

/-- `pad(toHex(v), { size })`. -/
def padHex (size v : Nat) : Except Thrown Bytes :=
  if v < 256 ^ size then .ok (toBytes size v) else .error (.viem "SizeExceedsPaddingSizeError")

/-- `numberToHex(v, { size })`, also the range check of `encodeAbiParameters`. -/
def numberToHex (size : Nat) (v : Int) : Except Thrown Nat :=
  if 0 ≤ v ∧ v < 256 ^ size then .ok v.toNat else .error (.viem "IntegerOutOfRangeError")

/-- `BigInt(v)` of a `number`. -/
def bigInt (v : JsNumber) : Except Thrown Int :=
  if v.den = 1 then .ok v.num else .error (.error "RangeError")

inductive AbiParam where
  | uint (size : Nat) (v : Int)
  | number (size : Nat) (v : JsNumber)
  | address (a : Address)
  | bytes32 (b : Bytes)
  | bytes (b : Bytes)
  deriving DecidableEq, Repr

/-- A static parameter as one 32-byte word. -/
def encodeAbiParameter : AbiParam → Except Thrown Bytes
  | .uint size v => do return toBytes 32 (← numberToHex size v)
  | .number size v => do return toBytes 32 (← numberToHex size (← bigInt v))
  | .address a => .ok (toBytes 32 a.toNat)
  | .bytes32 b => if b.length = 32 then .ok b else .error (.viem "AbiEncodingBytesSizeMismatchError")
  | .bytes _ => .error (.viem "InvalidAbiEncodingTypeError")

def encodeAbiParameters (ps : List AbiParam) : Except Thrown Bytes := do
  return (← ps.mapM encodeAbiParameter).flatten

/-- A parameter at its own width, without padding. -/
def encodePackedParameter : AbiParam → Except Thrown Bytes
  | .uint size v => do return toBytes size (← numberToHex size v)
  | .number size v => do return toBytes size (← numberToHex size (← bigInt v))
  | .address a => .ok a.bytes
  | .bytes32 b => if b.length = 32 then .ok b else .error (.viem "BytesSizeMismatchError")
  | .bytes b => .ok b

def encodePacked (ps : List AbiParam) : Except Thrown Bytes := do
  return (← ps.mapM encodePackedParameter).flatten

theorem bind_ok_iff {x : Except ε α} {f : α → Except ε β} {b : β} :
    x >>= f = .ok b ↔ ∃ a, x = .ok a ∧ f a = .ok b := by
  cases x with
  | error e => exact ⟨fun h => by contradiction,fun ⟨_,h,_⟩ => by contradiction⟩
  | ok a =>
    change f a = .ok b ↔ _
    simp

theorem ok_of_toBool {x : Except ε α} (returned : x.toBool = true) : ∃ a, x = .ok a := by
  cases x with
  | error e => contradiction
  | ok a => exact ⟨a,rfl⟩

theorem mapM_ok_iff {f : α → Except ε β} {xs : List α} {ys : List β} :
    xs.mapM f = .ok ys ↔ List.Forall₂ (fun x y => f x = .ok y) xs ys := by
  induction xs generalizing ys with
  | nil =>
    rw [List.mapM_nil,List.forall₂_nil_left_iff]
    exact ⟨fun h => (Except.ok.inj h).symm,fun h => h ▸ rfl⟩
  | cons x xs ih =>
    rw [List.mapM_cons,List.forall₂_cons_left_iff]
    cases head : f x with
    | error e =>
      constructor
      · intro h
        contradiction
      · rintro ⟨y,_,hy,_⟩
        contradiction
    | ok y =>
      cases tail : xs.mapM f with
      | error e =>
        constructor
        · intro h
          contradiction
        · rintro ⟨_,rest,_,hrest,_⟩
          rw [ih.mpr hrest] at tail
          contradiction
      | ok rest =>
        change Except.ok (y :: rest) = Except.ok ys ↔ _
        constructor
        · intro h
          exact ⟨y,rest,rfl,ih.mp tail,(Except.ok.inj h).symm⟩
        · rintro ⟨y',rest',hy,hrest,rfl⟩
          rw [ih.mpr hrest] at tail
          rw [Except.ok.inj hy,Except.ok.inj tail]

theorem encodePacked_ok_iff {ps : List AbiParam} {data : Bytes} :
    encodePacked ps = .ok data ↔
      ∃ fields, List.Forall₂ (fun p b => encodePackedParameter p = .ok b) ps fields ∧
        fields.flatten = data := by
  simp only [← mapM_ok_iff,encodePacked]
  cases ps.mapM encodePackedParameter with
  | error e =>
    constructor
    · intro h
      contradiction
    · rintro ⟨_,h,_⟩
      contradiction
  | ok fields =>
    change Except.ok fields.flatten = _ ↔ _
    simp

theorem encodeAbiParameters_ok_iff {ps : List AbiParam} {data : Bytes} :
    encodeAbiParameters ps = .ok data ↔
      ∃ words, List.Forall₂ (fun p b => encodeAbiParameter p = .ok b) ps words ∧
        words.flatten = data := by
  simp only [← mapM_ok_iff,encodeAbiParameters]
  cases ps.mapM encodeAbiParameter with
  | error e =>
    constructor
    · intro h
      contradiction
    · rintro ⟨_,h,_⟩
      contradiction
  | ok words =>
    change Except.ok words.flatten = _ ↔ _
    simp

/-! ### Hex data -/

def hexDigits (bytes : Bytes) : List Char :=
  bytes.flatMap fun b => [(b.toNat / 16).digitChar, (b.toNat % 16).digitChar]

def hexToBytes : List Char → Except Thrown Bytes
  | [] => .ok []
  | [_] => .error (.error "hex string expected, got unpadded hex")
  | high :: low :: rest =>
    match digitValue high, digitValue low with
    | some h, some l => (hexToBytes rest).map (UInt8.ofNat (16 * h + l) :: ·)
    | _, _ => .error (.error "hex string expected, got non-hex character")

def HexField.ofText (text : List Char) : HexField :=
  match text with
  | '0' :: 'x' :: digits =>
    match hexToBytes digits with
    | .ok data => .bytes data
    | .error _ => .text text
  | _ => .text text

/-- `text.replace('0x', '')`. -/
def withoutPrefix : List Char → List Char
  | '0' :: 'x' :: rest => rest
  | c :: rest => c :: withoutPrefix rest
  | [] => []

/-- What a field adds to a longer text. -/
def HexField.digits : HexField → Except Thrown (List Char)
  | .bytes data => .ok (hexDigits data)
  | .text chars => .ok (withoutPrefix chars)
  | .null => .error (.error "Cannot read properties of null (reading 'replace')")
  | .other _ => .error (.error "x.replace is not a function")

/-- `concatHex([head, tail])`. -/
def concatHex (head tail : HexField) : Except Thrown HexField :=
  match head, tail with
  | .bytes first, .bytes second => .ok (.bytes (first ++ second))
  | _, _ => do return .ofText ('0' :: 'x' :: (← head.digits) ++ (← tail.digits))

/-- `value ?? '0x'`. -/
def orEmptyHex : Option HexField → HexField
  | none | some .null => .bytes []
  | some v => v

/-! ### Operation fields -/

def packHighLow (high low : Nat) : Except Thrown Bytes := do
  return (← padHex 16 high) ++ (← padHex 16 low)

/-- `0x7702` and 18 zero bytes. -/
def EIP7702_INITCODE_MARKER : Bytes := 0x77 :: 0x02 :: List.replicate 18 0

/-- `!value`. -/
def falsy : Option HexField → Bool
  | none | some .null | some (.text []) | some (.other false) => true
  | _ => false

/-- `'0x7702'`, as it is written for a factory. -/
def EIP7702_FACTORY : HexField := .bytes [0x77, 0x02]

/-- initCode packing per EntryPoint v0.8. An initCode is not looked at. -/
def packInitCode (op : RpcUserOperation) : Except Thrown HexField :=
  match op.initCode with
  | some initCode => .ok initCode
  | none =>
    if falsy op.factory then .ok (.bytes [])
    else if op.factory = some EIP7702_FACTORY then
      concatHex (.bytes EIP7702_INITCODE_MARKER) (orEmptyHex op.factoryData)
    else concatHex (op.factory.getD .null) (orEmptyHex op.factoryData)

/-- The first 20 bytes, padded with zeros on the right. -/
def paddedHead (initCode : Bytes) : Bytes :=
  initCode.take 20 ++ List.replicate (20 - initCode.length) 0

def isEip7702InitCode (initCode : Bytes) : Bool :=
  initCode.take 2 == [0x77, 0x02] && paddedHead initCode == EIP7702_INITCODE_MARKER

/-- The same of a text that is not whole bytes. -/
def isEip7702Text (initCode : List Char) : Bool :=
  let hex := initCode.map Char.toLower
  let head := (hex.drop 2).take 40
  hex.take 6 == "0x7702".toList &&
    head ++ List.replicate (40 - head.length) '0' == hexDigits EIP7702_INITCODE_MARKER

/-- What the client library's `keccak256` makes of a text that is not whole bytes. -/
abbrev TextHash := List Char → Except Thrown Bytes32

/-- A library that hashes whole bytes only. -/
def wholeBytesOnly : TextHash := fun _ => .error (.viem "no bytes")

variable (hashText : TextHash)

def keccakHex : HexField → Except Thrown Bytes32
  | .bytes data => .ok (keccak256 data)
  | .text chars => hashText chars
  | .null | .other _ => .error (.error "keccak256 of no text")

/-- A marked initCode is hashed with the implementation in the marker's place. -/
def delegatedHash (marked : Bool) (senderImplementation : Address) (whole tail : HexField) :
    Except Thrown Bytes32 :=
  if !marked then keccakHex hashText whole
  else if senderImplementation = zeroAddress then
    .error (.error "EIP-7702 initCode: the sender implementation is needed to hash the op")
  else do keccakHex hashText (← concatHex (.bytes senderImplementation.bytes) tail)

def initCodeHash (op : RpcUserOperation) (senderImplementation : Address) : Except Thrown Bytes32 := do
  match ← packInitCode op with
  | .bytes initCode =>
    delegatedHash hashText (isEip7702InitCode initCode) senderImplementation (.bytes initCode)
      (.bytes (initCode.drop 20))
  | .text initCode =>
    delegatedHash hashText (isEip7702Text initCode) senderImplementation (.text initCode)
      (.ofText ('0' :: 'x' :: initCode.drop 42))
  | .null => .error (.error "Cannot read properties of null (reading 'toLowerCase')")
  | .other _ => .error (.error "initCode.toLowerCase is not a function")

/-- `value ?? '0x0'`. -/
def Quantity.orZero : Quantity → Quantity
  | .absent => .value 0
  | v => v

def readGas (op : RpcUserOperation) : Except Thrown UserOpGas := do
  let callGasLimit ← q op.callGasLimit "callGasLimit"
  let verificationGasLimit ← q op.verificationGasLimit "verificationGasLimit"
  let preVerificationGas ← q op.preVerificationGas "preVerificationGas"
  let paymasterVerificationGasLimit ←
    q op.paymasterVerificationGasLimit.orZero "paymasterVerificationGasLimit"
  let paymasterPostOpGasLimit ← q op.paymasterPostOpGasLimit.orZero "paymasterPostOpGasLimit"
  return ⟨callGasLimit, verificationGasLimit, preVerificationGas, paymasterVerificationGasLimit,
    paymasterPostOpGasLimit⟩

def totalGas (gas : UserOpGas) : Nat :=
  gas.callGasLimit + gas.verificationGasLimit + gas.preVerificationGas +
    gas.paymasterVerificationGasLimit + gas.paymasterPostOpGasLimit

/-! ### What the relayer signs -/

def encodePaymasterData (terms : FeeTerms) (signature : Bytes) : Except Thrown Bytes :=
  if signature.length ≠ SIGNATURE_LENGTH then .error (.error "signature must be 65 bytes")
  else encodePacked [
    .number 6 terms.validUntil,
    .number 6 terms.validAfter,
    .uint 32 terms.fee,
    .uint 32 terms.serviceFee,
    .address terms.refundTo,
    .address terms.feeToken,
    .uint 32 terms.tokenPerEth,
    .bytes32 terms.withdrawalHash.bytes,
    .address terms.senderImplementation,
    .bytes signature]

/-- The seven arguments of a `relayWithdraw` call. -/
structure Withdrawal where
  pool : Address
  proof : Bytes
  root : Bytes32
  nullifierHash : Bytes32
  recipient : Address
  relayer : Address
  fee : Word 32
  deriving DecidableEq, Repr

def withdrawalHash (w : Withdrawal) : Except Thrown Bytes32 := do
  let encoded ← encodeAbiParameters [
    .address w.pool,
    .bytes32 (keccak256 w.proof).bytes,
    .bytes32 w.root.bytes,
    .bytes32 w.nullifierHash.bytes,
    .address w.recipient,
    .address w.relayer,
    .uint 32 w.fee.toNat]
  return keccak256 encoded

def paymasterHash (op : RpcUserOperation) (chainId : Int) (paymaster : Address) (terms : FeeTerms) :
    Except Thrown Bytes32 := do
  let gas ← readGas op
  let accountGasLimits ← packHighLow gas.verificationGasLimit gas.callGasLimit
  let gasFees ← packHighLow (← q op.maxPriorityFeePerGas "maxPriorityFeePerGas")
    (← q op.maxFeePerGas "maxFeePerGas")
  let paymasterGasWord := ofBytes
    (← packHighLow gas.paymasterVerificationGasLimit gas.paymasterPostOpGasLimit)
  let fieldsHash := keccak256 (← encodeAbiParameters [
    .address op.sender,
    .uint 32 (← q op.nonce "nonce"),
    .bytes32 (← initCodeHash hashText op terms.senderImplementation).bytes,
    .bytes32 (keccak256 op.callData).bytes,
    .bytes32 accountGasLimits,
    .uint 32 paymasterGasWord,
    .uint 32 gas.preVerificationGas,
    .bytes32 gasFees])
  return keccak256 (← encodeAbiParameters [
    .bytes32 fieldsHash.bytes,
    .uint 32 chainId,
    .address paymaster,
    .number 6 terms.validUntil,
    .number 6 terms.validAfter,
    .uint 32 terms.fee,
    .uint 32 terms.serviceFee,
    .address terms.refundTo,
    .address terms.feeToken,
    .uint 32 terms.tokenPerEth,
    .bytes32 terms.withdrawalHash.bytes,
    .address terms.senderImplementation])

end TornadoRelayer
