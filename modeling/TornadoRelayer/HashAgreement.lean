import TornadoRelayer.PaymasterData

/-! The relayer's `paymasterHash` and the contract's `getHash` compute the same
value on the operation the EntryPoint receives, and the relayer's side throws on
every argument that operation could not hold. -/
namespace TornadoRelayer.Paymaster

open BigEndian Keccak

/-- The quantities of a request, read. -/
structure Quantities where
  gas : UserOpGas
  nonce : Nat
  maxPriorityFeePerGas : Nat
  maxFeePerGas : Nat
  deriving DecidableEq, Repr

def readQuantities (op : RpcUserOperation) : Except Thrown Quantities := do
  let gas ← readGas op
  let maxPriorityFeePerGas ← q op.maxPriorityFeePerGas "maxPriorityFeePerGas"
  let maxFeePerGas ← q op.maxFeePerGas "maxFeePerGas"
  let nonce ← q op.nonce "nonce"
  return ⟨gas, nonce, maxPriorityFeePerGas, maxFeePerGas⟩

/-- What the words of a packed operation can hold. Only `preVerificationGas` has a
word of its own; the other gas figures share one in halves. -/
structure Quantities.InRange (x : Quantities) : Prop where
  callGasLimit : x.gas.callGasLimit < 2 ^ 128
  verificationGasLimit : x.gas.verificationGasLimit < 2 ^ 128
  preVerificationGas : x.gas.preVerificationGas < 2 ^ 256
  paymasterVerificationGasLimit : x.gas.paymasterVerificationGasLimit < 2 ^ 128
  paymasterPostOpGasLimit : x.gas.paymasterPostOpGasLimit < 2 ^ 128
  maxPriorityFeePerGas : x.maxPriorityFeePerGas < 2 ^ 128
  maxFeePerGas : x.maxFeePerGas < 2 ^ 128
  nonce : x.nonce < 2 ^ 256

def highLow (high low : Nat) : Bytes32 := BitVec.ofNat 256 (2 ^ 128 * high + low)

/-- The packed initCode, of an operation where that is whole bytes. -/
def initCodeBytes (op : RpcUserOperation) : Bytes :=
  match packInitCode op with
  | .ok (.bytes initCode) => initCode
  | _ => []

/-- Only whole bytes can be submitted to the EntryPoint. -/
def Submittable (op : RpcUserOperation) : Prop := packInitCode op = .ok (.bytes (initCodeBytes op))

instance (op : RpcUserOperation) : Decidable (Submittable op) :=
  inferInstanceAs (Decidable (packInitCode op = .ok (.bytes (initCodeBytes op))))

/-- The v0.8 operation a request becomes when it is submitted. -/
def packUserOp (op : RpcUserOperation) (x : Quantities) (paymasterAndData : Bytes) :
    PackedUserOperation where
  sender := op.sender
  nonce := BitVec.ofNat 256 x.nonce
  initCode := initCodeBytes op
  callData := op.callData
  accountGasLimits := highLow x.gas.verificationGasLimit x.gas.callGasLimit
  preVerificationGas := BitVec.ofNat 256 x.gas.preVerificationGas
  gasFees := highLow x.maxPriorityFeePerGas x.maxFeePerGas
  paymasterAndData := paymasterAndData
  signature := op.signature.getD []

/-- The paymaster's address, its two gas limits, then the data the relayer returned. -/
def packPaymasterAndData (paymaster : Address) (x : Quantities) (paymasterData : Bytes) : Bytes :=
  paymaster.bytes ++ (toBytes 16 x.gas.paymasterVerificationGasLimit ++
    (toBytes 16 x.gas.paymasterPostOpGasLimit ++ paymasterData))

/-! ### Encoders -/

theorem highLow_bytes {high low : Nat} (hh : high < 2 ^ 128) (hl : low < 2 ^ 128) :
    (highLow high low).bytes = toBytes 16 high ++ toBytes 16 low := by
  have joined : toBytes 16 high ++ toBytes 16 low = toBytes (16 + 16) (256 ^ 16 * high + low) :=
    toBytes_append 16 high (by norm_num at hl ⊢; omega)
  have wide : 2 ^ 128 * high + low < 2 ^ 256 := by omega
  rw [joined,Word.bytes,highLow,BitVec.toNat_ofNat,Nat.mod_eq_of_lt wide]
  rfl

theorem packHighLow_ok_iff {high low : Nat} {word : Bytes} :
    packHighLow high low = .ok word ↔
      high < 2 ^ 128 ∧ low < 2 ^ 128 ∧ word = toBytes 16 high ++ toBytes 16 low := by
  have width : (256 : Nat) ^ 16 = 2 ^ 128 := by norm_num
  rw [packHighLow,padHex,padHex,width]
  by_cases hh : high < 2 ^ 128
  · by_cases hl : low < 2 ^ 128
    · rw [if_pos hh,if_pos hl]
      change Except.ok _ = Except.ok _ ↔ _
      simp only [Except.ok.injEq,hh,hl,true_and]
      exact eq_comm
    · rw [if_pos hh,if_neg hl]
      exact ⟨fun h => by contradiction,fun h => absurd h.2.1 hl⟩
  · rw [if_neg hh]
    exact ⟨fun h => by contradiction,fun h => absurd h.1 hh⟩

theorem numberToHex_ok_iff {size n : Nat} {v : Int} :
    numberToHex size v = .ok n ↔ 0 ≤ v ∧ v < 256 ^ size ∧ v.toNat = n := by
  rw [numberToHex]
  split
  · next range => simp [range]
  · next range => exact ⟨fun h => by contradiction,fun h => absurd ⟨h.1,h.2.1⟩ range⟩

theorem bigInt_ok_iff {v : JsNumber} {i : Int} : bigInt v = .ok i ↔ v = i := by
  rw [bigInt]
  split
  · next whole =>
    have value : v = v.num := (Rat.den_eq_one_iff v).mp whole |>.symm
    constructor
    · intro h
      rw [← Except.ok.inj h]
      exact value
    · intro h
      rw [h,Rat.num_intCast]
  · next fractional =>
    refine ⟨fun h => by contradiction,fun h => absurd ?_ fractional⟩
    rw [h,Rat.den_intCast]

/-- Each parameter occupies the word of its value. -/
theorem encodeAbiParameters_values {ps : List AbiParam} {values : List Nat}
    (each : List.Forall₂ (fun p v => encodeAbiParameter p = .ok (toBytes 32 v)) ps values) :
    encodeAbiParameters ps = .ok (abiEncode values) := by
  apply encodeAbiParameters_ok_iff.mpr
  refine ⟨values.map (toBytes 32),?_,rfl⟩
  rw [List.forall₂_map_right_iff]
  exact each

theorem encodeAbi_uint {size n : Nat} (fits : n < 256 ^ size) :
    encodeAbiParameter (.uint size n) = .ok (toBytes 32 n) := by
  have range : numberToHex size n = .ok n :=
    numberToHex_ok_iff.mpr ⟨Int.natCast_nonneg _,by exact_mod_cast fits,rfl⟩
  rw [encodeAbiParameter,range]
  rfl

theorem encodeAbi_number {size n : Nat} (fits : n < 256 ^ size) :
    encodeAbiParameter (.number size (n : ℚ)) = .ok (toBytes 32 n) := by
  have range : numberToHex size n = .ok n :=
    numberToHex_ok_iff.mpr ⟨Int.natCast_nonneg _,by exact_mod_cast fits,rfl⟩
  rw [encodeAbiParameter,bigInt_natCast]
  change (do return toBytes 32 (← numberToHex size n)) = _
  rw [range]
  rfl

theorem encodeAbi_bytes32 (w : Bytes32) :
    encodeAbiParameter (.bytes32 w.bytes) = .ok (toBytes 32 w.toNat) := by
  rw [encodeAbiParameter,if_pos w.bytes_length]
  rfl

/-- The off-chain hash of the withdrawal is the contract's. -/
theorem withdrawalHash_agrees (w : Withdrawal) :
    TornadoRelayer.withdrawalHash w = .ok (withdrawalHash w) := by
  rw [TornadoRelayer.withdrawalHash]
  apply bind_ok_iff.mpr
  refine ⟨abiEncode [w.pool.toNat,(keccak256 w.proof).toNat,w.root.toNat,w.nullifierHash.toNat,
    w.recipient.toNat,w.relayer.toNat,w.fee.toNat],?_,rfl⟩
  apply encodeAbiParameters_values
  exact .cons rfl <| .cons (encodeAbi_bytes32 _) <| .cons (encodeAbi_bytes32 _) <|
    .cons (encodeAbi_bytes32 _) <| .cons rfl <| .cons rfl <| .cons (encodeAbi_uint w.fee.toNat_lt) .nil

/-! ### The initCode -/

theorem paddedHead_eq (initCode : Bytes) :
    paddedHead initCode = (initCode ++ List.replicate 20 0).take 20 := by
  rw [paddedHead,List.take_append,List.take_replicate,Nat.min_eq_left (Nat.sub_le ..)]

/-- Off-chain and on-chain recognise the same markers, whatever their padding. -/
theorem isEip7702InitCode_iff (initCode : Bytes) :
    isEip7702InitCode initCode = true ↔ MarkedInitCode initCode := by
  rw [isEip7702InitCode,MarkedInitCode,Bool.and_eq_true,beq_iff_eq,beq_iff_eq,paddedHead_eq]
  change _ ∧ _ = 0x77 :: 0x02 :: List.replicate 18 0 ↔ _
  constructor
  · rintro ⟨start,head⟩
    have length := congrArg List.length start
    simp only [List.length_take,List.length_cons,List.length_nil] at length
    exact ⟨by omega,head⟩
  · rintro ⟨length,head⟩
    have start := congrArg (List.take 2) head
    rw [List.take_take,List.take_append_of_le_length (by omega)] at start
    exact ⟨start,head⟩

/-- The initCode as both sides hash it: a marker stands for the delegate. -/
def normalInitCode (chain : Chain) (sender : Address) (initCode : Bytes) : Option Bytes :=
  if MarkedInitCode initCode then (chain.delegate sender).map (fun d => d.bytes ++ initCode.drop 20)
  else some initCode

theorem Chain.delegate_ne_zero (chain : Chain) (account : Address) :
    chain.delegate account ≠ some 0 := by
  intro zero
  rw [Chain.delegate] at zero
  split at zero
  · next shape =>
    have tail : (chain.code account).drop 3 = (0 : Address).bytes := by
      rw [← Option.some.inj zero,Word.bytes_ofBytes]
      simp [shape.1]
    apply chain.noZeroDelegate account
    rw [designator,← shape.2,← tail,List.take_append_drop]
  · contradiction

variable (hashText : TextHash)

theorem initCodeHash_bytes {op : RpcUserOperation} (submittable : Submittable op)
    (implementation : Address) :
    initCodeHash hashText op implementation =
      delegatedHash hashText (isEip7702InitCode (initCodeBytes op)) implementation
        (.bytes (initCodeBytes op)) (.bytes ((initCodeBytes op).drop 20)) := by
  rw [initCodeHash,submittable]
  rfl

/-- The relayer's hash of the initCode is the hash of its normal form. -/
theorem initCodeHash_eq {chain : Chain} {op : RpcUserOperation} {implementation : Address}
    (submittable : Submittable op)
    (delegate : MarkedInitCode (initCodeBytes op) → chain.delegate op.sender = some implementation) :
    ∃ normal, normalInitCode chain op.sender (initCodeBytes op) = some normal ∧
      initCodeHash hashText op implementation = .ok (keccak256 normal) := by
  rw [initCodeHash_bytes hashText submittable]
  by_cases marked : MarkedInitCode (initCodeBytes op)
  · have current := delegate marked
    have nonzero : implementation ≠ zeroAddress := by
      intro zero
      rw [zero] at current
      exact chain.delegate_ne_zero op.sender current
    refine ⟨implementation.bytes ++ (initCodeBytes op).drop 20,?_,?_⟩
    · rw [normalInitCode,if_pos marked,current]
      rfl
    · simp [delegatedHash,(isEip7702InitCode_iff _).mpr marked,nonzero,concatHex,keccakHex,bind,Except.bind]
  · have plain : isEip7702InitCode (initCodeBytes op) = false :=
      Bool.eq_false_iff.mpr (fun h => marked ((isEip7702InitCode_iff _).mp h))
    refine ⟨initCodeBytes op,?_,?_⟩
    · rw [normalInitCode,if_neg marked]
    · simp [delegatedHash,plain,keccakHex]

/-- So is the contract's, as long as that hash is not the zero the library uses for
"no marker". -/
theorem override_eq (lib : Eip7702Support) {chain : Chain} {userOp : PackedUserOperation}
    {normal : Bytes} (form : normalInitCode chain userOp.sender userOp.initCode = some normal)
    (nonzero : MarkedInitCode userOp.initCode → keccak256 normal ≠ 0) :
    ∃ override, lib.initCodeHashOverride chain userOp = .ok override ∧
      (if override = 0 then keccak256 userOp.initCode else override) = keccak256 normal := by
  rw [normalInitCode] at form
  split at form
  · next marked =>
    obtain ⟨d,current,rfl⟩ := Option.map_eq_some_iff.mp form
    exact ⟨_,lib.delegated chain userOp d marked current,if_neg (nonzero marked)⟩
  · next plain =>
    cases form
    exact ⟨0,lib.unmarked chain userOp plain,if_pos rfl⟩

/-! ### The relayer's hash -/

/-- Everything the hash reads of a request once it is known to be in range. -/
def fieldWords (op : RpcUserOperation) (x : Quantities) (initCodeHash : Bytes32) : List Nat :=
  [op.sender.toNat, x.nonce, initCodeHash.toNat, (keccak256 op.callData).toNat,
    (highLow x.gas.verificationGasLimit x.gas.callGasLimit).toNat,
    (highLow x.gas.paymasterVerificationGasLimit x.gas.paymasterPostOpGasLimit).toNat,
    x.gas.preVerificationGas, (highLow x.maxPriorityFeePerGas x.maxFeePerGas).toNat]

def termWords (fieldsHash : Bytes32) (chainId : Nat) (paymaster : Address) (t : Terms) : List Nat :=
  [fieldsHash.toNat, chainId, paymaster.toNat, t.validUntil.toNat, t.validAfter.toNat,
    t.fee.toNat, t.serviceFee.toNat, t.refundTo.toNat, t.feeToken.toNat, t.tokenPerEth.toNat,
    t.withdrawalHash.toNat, t.senderImplementation.toNat]

theorem encode_fieldWords (op : RpcUserOperation) {x : Quantities} (range : x.InRange)
    (initHash : Bytes32) :
    encodeAbiParameters [
      .address op.sender, .uint 32 x.nonce, .bytes32 initHash.bytes,
      .bytes32 (keccak256 op.callData).bytes,
      .bytes32 (highLow x.gas.verificationGasLimit x.gas.callGasLimit).bytes,
      .uint 32 (highLow x.gas.paymasterVerificationGasLimit x.gas.paymasterPostOpGasLimit).toNat,
      .uint 32 x.gas.preVerificationGas,
      .bytes32 (highLow x.maxPriorityFeePerGas x.maxFeePerGas).bytes] =
    .ok (abiEncode (fieldWords op x initHash)) := by
  have word (n : Nat) (fits : n < 2 ^ 256) :
      encodeAbiParameter (.uint 32 n) = .ok (toBytes 32 n) := encodeAbi_uint fits
  apply encodeAbiParameters_values
  exact .cons rfl <| .cons (word _ range.nonce) <| .cons (encodeAbi_bytes32 _) <|
    .cons (encodeAbi_bytes32 _) <| .cons (encodeAbi_bytes32 _) <| .cons (word _ (BitVec.isLt _)) <|
    .cons (word _ range.preVerificationGas) <| .cons (encodeAbi_bytes32 _) .nil

theorem encode_termWords (fieldsHash : Bytes32) {chainId : Nat} (fits : chainId < 2 ^ 256)
    (paymaster : Address) (t : Terms) :
    encodeAbiParameters [
      .bytes32 fieldsHash.bytes, .uint 32 chainId, .address paymaster,
      .number 6 t.toFeeTerms.validUntil, .number 6 t.toFeeTerms.validAfter,
      .uint 32 t.toFeeTerms.fee, .uint 32 t.toFeeTerms.serviceFee,
      .address t.toFeeTerms.refundTo, .address t.toFeeTerms.feeToken,
      .uint 32 t.toFeeTerms.tokenPerEth, .bytes32 t.toFeeTerms.withdrawalHash.bytes,
      .address t.toFeeTerms.senderImplementation] =
    .ok (abiEncode (termWords fieldsHash chainId paymaster t)) := by
  have word {k : Nat} (w : Word k) := w.toNat_lt
  apply encodeAbiParameters_values
  exact .cons (encodeAbi_bytes32 _) <| .cons (encodeAbi_uint fits) <| .cons rfl <|
    .cons (encodeAbi_number (word _)) <| .cons (encodeAbi_number (word _)) <|
    .cons (encodeAbi_uint (word _)) <| .cons (encodeAbi_uint (word _)) <| .cons rfl <|
    .cons rfl <| .cons (encodeAbi_uint (word _)) <| .cons (encodeAbi_bytes32 _) <|
    .cons rfl .nil

theorem readQuantities_ok_iff {op : RpcUserOperation} {x : Quantities} :
    readQuantities op = .ok x ↔
      readGas op = .ok x.gas ∧
      q op.maxPriorityFeePerGas "maxPriorityFeePerGas" = .ok x.maxPriorityFeePerGas ∧
      q op.maxFeePerGas "maxFeePerGas" = .ok x.maxFeePerGas ∧ q op.nonce "nonce" = .ok x.nonce := by
  simp only [readQuantities,bind_ok_iff]
  constructor
  · rintro ⟨gas,hgas,priority,hpriority,fee,hfee,nonce,hnonce,built⟩
    cases built
    exact ⟨hgas,hpriority,hfee,hnonce⟩
  · rintro ⟨hgas,hpriority,hfee,hnonce⟩
    exact ⟨_,hgas,_,hpriority,_,hfee,_,hnonce,rfl⟩

theorem paymasterHash_inRange {op : RpcUserOperation} {x : Quantities}
    (read : readQuantities op = .ok x) (range : x.InRange) {chainId : Nat}
    (chainFits : chainId < 2 ^ 256) (paymaster : Address) (t : Terms) {initHash : Bytes32}
    (init : initCodeHash hashText op t.senderImplementation = .ok initHash) :
    paymasterHash hashText op chainId paymaster t.toFeeTerms =
      .ok (keccak256 (abiEncode (termWords (keccak256 (abiEncode (fieldWords op x initHash)))
        chainId paymaster t))) := by
  obtain ⟨hgas,hpriority,hfee,hnonce⟩ := readQuantities_ok_iff.mp read
  have packed {high low : Nat} (hh : high < 2 ^ 128) (hl : low < 2 ^ 128) :
      packHighLow high low = .ok (highLow high low).bytes :=
    packHighLow_ok_iff.mpr ⟨hh,hl,highLow_bytes hh hl⟩
  have accountGas := packed range.verificationGasLimit range.callGasLimit
  have fees := packed range.maxPriorityFeePerGas range.maxFeePerGas
  have paymasterGas := packed range.paymasterVerificationGasLimit range.paymasterPostOpGasLimit
  have word : ofBytes (highLow x.gas.paymasterVerificationGasLimit
      x.gas.paymasterPostOpGasLimit).bytes =
      (highLow x.gas.paymasterVerificationGasLimit x.gas.paymasterPostOpGasLimit).toNat :=
    ofBytes_toBytes (Word.toNat_lt _)
  rw [paymasterHash]
  refine bind_ok_iff.mpr ⟨_,hgas,bind_ok_iff.mpr ⟨_,accountGas,?_⟩⟩
  refine bind_ok_iff.mpr ⟨_,hpriority,bind_ok_iff.mpr ⟨_,hfee,bind_ok_iff.mpr ⟨_,fees,?_⟩⟩⟩
  refine bind_ok_iff.mpr ⟨_,paymasterGas,bind_ok_iff.mpr ⟨_,hnonce,bind_ok_iff.mpr ⟨_,init,?_⟩⟩⟩
  rw [word]
  refine bind_ok_iff.mpr ⟨_,encode_fieldWords op range initHash,?_⟩
  exact bind_ok_iff.mpr ⟨_,encode_termWords _ chainFits paymaster t,rfl⟩

/-! ### Out of range -/

theorem encodeAbi_uint_range {size : Nat} {v : Int} {b : Bytes}
    (encoded : encodeAbiParameter (.uint size v) = .ok b) : 0 ≤ v ∧ v < 256 ^ size := by
  rw [encodeAbiParameter,bind_ok_iff] at encoded
  obtain ⟨n,fits,_⟩ := encoded
  obtain ⟨lower,upper,_⟩ := numberToHex_ok_iff.mp fits
  exact ⟨lower,upper⟩

theorem encodeAbi_number_range {size : Nat} {v : JsNumber} {b : Bytes}
    (encoded : encodeAbiParameter (.number size v) = .ok b) :
    ∃ n : Nat, n < 256 ^ size ∧ v = n := by
  rw [encodeAbiParameter,bind_ok_iff] at encoded
  obtain ⟨i,whole,encoded⟩ := encoded
  obtain ⟨n,fits,_⟩ := bind_ok_iff.mp encoded
  obtain ⟨lower,upper,rfl⟩ := numberToHex_ok_iff.mp fits
  refine ⟨i.toNat,(Int.toNat_lt lower).mpr (by exact_mod_cast upper),?_⟩
  rw [bigInt_ok_iff.mp whole,← Int.toNat_of_nonneg lower]
  norm_cast

/-- A hash is returned only for values the packed operation can hold. -/
theorem paymasterHash_ok_range {op : RpcUserOperation} {chainId : Int} {paymaster : Address}
    {terms : FeeTerms} {hash : Bytes32}
    (returned : paymasterHash hashText op chainId paymaster terms = .ok hash) :
    ∃ x, readQuantities op = .ok x ∧ x.InRange ∧ terms.InRange ∧ 0 ≤ chainId ∧ chainId < 2 ^ 256 ∧
      ∃ initHash, initCodeHash hashText op terms.senderImplementation = .ok initHash := by
  rw [paymasterHash] at returned
  simp only [bind_ok_iff] at returned
  obtain ⟨gas,hgas,_,accountGas,priority,hpriority,fee,hfee,_,fees,_,paymasterGas,nonce,hnonce,
    initHash,init,_,fieldsEncoded,_,termsEncoded,_⟩ := returned
  obtain ⟨verification,call,_⟩ := packHighLow_ok_iff.mp accountGas
  obtain ⟨priorityFits,feeFits,_⟩ := packHighLow_ok_iff.mp fees
  obtain ⟨paymasterVerification,postOp,_⟩ := packHighLow_ok_iff.mp paymasterGas
  obtain ⟨_,fields,_⟩ := encodeAbiParameters_ok_iff.mp fieldsEncoded
  obtain ⟨_,words,_⟩ := encodeAbiParameters_ok_iff.mp termsEncoded
  simp only [List.forall₂_cons_left_iff,List.forall₂_nil_left_iff] at fields words
  obtain ⟨_,_,_,⟨_,_,nonceWord,⟨_,_,_,⟨_,_,_,⟨_,_,_,⟨_,_,_,⟨_,_,preVerificationWord,_⟩,_⟩,_⟩,_⟩,_⟩,
    _⟩,_⟩ := fields
  obtain ⟨_,_,_,⟨_,_,chainWord,⟨_,_,_,⟨_,_,untilWord,⟨_,_,afterWord,⟨_,_,termFee,⟨_,_,serviceFee,
    ⟨_,_,_,⟨_,_,_,⟨_,_,rate,_⟩,_⟩,_⟩,_⟩,_⟩,_⟩,_⟩,_⟩,_⟩,_⟩ := words
  refine ⟨⟨gas,nonce,priority,fee⟩,readQuantities_ok_iff.mpr ⟨hgas,hpriority,hfee,hnonce⟩,?_,?_,
    (encodeAbi_uint_range chainWord).1,(encodeAbi_uint_range chainWord).2,initHash,init⟩
  · have nonceFits := (encodeAbi_uint_range nonceWord).2
    have preVerificationFits := (encodeAbi_uint_range preVerificationWord).2
    exact ⟨call,verification,by exact_mod_cast preVerificationFits,paymasterVerification,postOp,
      priorityFits,feeFits,by exact_mod_cast nonceFits⟩
  · exact ⟨encodeAbi_number_range untilWord,encodeAbi_number_range afterWord,
      encodeAbi_uint_range termFee,encodeAbi_uint_range serviceFee,encodeAbi_uint_range rate⟩

/-! ### The contract's hash -/

variable (lib : Eip7702Support)

theorem paymasterGas_slice {paymaster : Address} {x : Quantities} (range : x.InRange)
    (data : Bytes) :
    Word.ofBytes 32 (slice (packPaymasterAndData paymaster x data)
      PAYMASTER_VALIDATION_GAS_OFFSET PAYMASTER_DATA_OFFSET) =
      highLow x.gas.paymasterVerificationGasLimit x.gas.paymasterPostOpGasLimit := by
  have joined := highLow_bytes range.paymasterVerificationGasLimit range.paymasterPostOpGasLimit
  have field : slice (packPaymasterAndData paymaster x data) PAYMASTER_VALIDATION_GAS_OFFSET
      PAYMASTER_DATA_OFFSET =
      (highLow x.gas.paymasterVerificationGasLimit x.gas.paymasterPostOpGasLimit).bytes := by
    rw [packPaymasterAndData,← List.append_assoc (toBytes 16 _),← joined]
    exact slice_field paymaster.bytes_length (Word.bytes_length _)
  rw [field,Word.ofBytes_bytes]

theorem getHash_packed {chain : Chain} {paymaster : Address} {op : RpcUserOperation}
    {x : Quantities} (range : x.InRange) (data : Bytes) (t : Terms) {normal : Bytes}
    (form : normalInitCode chain op.sender (initCodeBytes op) = some normal)
    (nonzero : MarkedInitCode (initCodeBytes op) → keccak256 normal ≠ 0) :
    getHash lib chain paymaster (packUserOp op x (packPaymasterAndData paymaster x data)) t =
      .ok (keccak256 (abiEncode (termWords
        (keccak256 (abiEncode (fieldWords op x (keccak256 normal))))
        chain.chainid.toNat paymaster t))) := by
  have packedForm : normalInitCode chain
      (packUserOp op x (packPaymasterAndData paymaster x data)).sender
      (packUserOp op x (packPaymasterAndData paymaster x data)).initCode = some normal := form
  obtain ⟨override,computed,chosen⟩ := override_eq lib packedForm nonzero
  have nonceWord : (BitVec.ofNat 256 x.nonce).toNat = x.nonce := by
    rw [BitVec.toNat_ofNat,Nat.mod_eq_of_lt range.nonce]
  have gasWord : (BitVec.ofNat 256 x.gas.preVerificationGas).toNat = x.gas.preVerificationGas := by
    rw [BitVec.toNat_ofNat,Nat.mod_eq_of_lt range.preVerificationGas]
  have fields : userOpFieldsHash lib chain
      (packUserOp op x (packPaymasterAndData paymaster x data)) =
      .ok (keccak256 (abiEncode (fieldWords op x (keccak256 normal)))) := by
    rw [userOpFieldsHash]
    refine bind_ok_iff.mpr ⟨override,computed,?_⟩
    simp only [chosen]
    simp only [packUserOp,paymasterGas_slice range,nonceWord,gasWord]
    rfl
  rw [getHash]
  exact bind_ok_iff.mpr ⟨_,fields,rfl⟩

theorem packPaymasterAndData_parses (paymaster : Address) {x : Quantities} (range : x.InRange)
    {terms : FeeTerms} (termsRange : terms.InRange) {signature : Bytes}
    (length : signature.length = SIGNATURE_LENGTH) :
    ∃ data, encodePaymasterData terms signature = .ok data ∧
      parsePaymasterAndData (packPaymasterAndData paymaster x data) =
        .ok (Terms.ofFeeTerms terms,signature) := by
  have half {n : Nat} (fits : n < 2 ^ 128) :
      Word.bytes (n := 16) (BitVec.ofNat 128 n) = toBytes 16 n := by
    rw [Word.bytes,BitVec.toNat_ofNat,Nat.mod_eq_of_lt fits]
  let packed : PaymasterAndData :=
    ⟨paymaster,BitVec.ofNat 128 x.gas.paymasterVerificationGasLimit,
      BitVec.ofNat 128 x.gas.paymasterPostOpGasLimit,Terms.ofFeeTerms terms,signature,length⟩
  have encoded := encodePaymasterData_terms (Terms.ofFeeTerms terms) length
  rw [Terms.toFeeTerms_ofFeeTerms termsRange] at encoded
  refine ⟨_,encoded,?_⟩
  have layout : packPaymasterAndData paymaster x ((Terms.ofFeeTerms terms).fields ++ [signature]).flatten
      = packed.fields.flatten := by
    rw [packPaymasterAndData,← half range.paymasterVerificationGasLimit,
      ← half range.paymasterPostOpGasLimit]
    simp only [packed,PaymasterAndData.fields,List.cons_append,List.nil_append,List.flatten_cons]
  rw [layout]
  exact parse_encoded packed

/-- Both sides sign the same hash for every request that fits its operation; for
one that does not, the relayer's side throws. -/
theorem paymasterHash_eq_getHash :
    (∀ (chain : Chain) (paymaster : Address) (op : RpcUserOperation) (x : Quantities)
      (terms : FeeTerms) (signature : Bytes),
      readQuantities op = .ok x → x.InRange → terms.InRange → Submittable op →
      signature.length = SIGNATURE_LENGTH →
      (MarkedInitCode (initCodeBytes op) →
        chain.delegate op.sender = some terms.senderImplementation ∧
        keccak256 (terms.senderImplementation.bytes ++ (initCodeBytes op).drop 20) ≠ 0) →
      ∃ data t hash, encodePaymasterData terms signature = .ok data ∧
        parsePaymasterAndData (packPaymasterAndData paymaster x data) = .ok (t,signature) ∧
        paymasterHash hashText op chain.chainid.toNat paymaster terms = .ok hash ∧
        getHash lib chain paymaster (packUserOp op x (packPaymasterAndData paymaster x data)) t =
          .ok hash) ∧
    ∀ (op : RpcUserOperation) (chainId : Int) (paymaster : Address) (terms : FeeTerms),
      ¬(∃ x, readQuantities op = .ok x ∧ x.InRange ∧ terms.InRange ∧ 0 ≤ chainId ∧
        chainId < 2 ^ 256) →
      ∃ thrown, paymasterHash hashText op chainId paymaster terms = .error thrown := by
  refine ⟨?_,?_⟩
  · intro chain paymaster op x terms signature read range termsRange submittable length marked
    obtain ⟨data,encoded,parsed⟩ := packPaymasterAndData_parses paymaster range termsRange
      length
    obtain ⟨normal,form,init⟩ := initCodeHash_eq hashText submittable (fun h => (marked h).1)
    have nonzero : MarkedInitCode (initCodeBytes op) → keccak256 normal ≠ 0 := by
      intro h
      rw [normalInitCode,if_pos h,(marked h).1,Option.map_some,Option.some.injEq] at form
      rw [← form]
      exact (marked h).2
    have relayed := paymasterHash_inRange hashText read range chain.chainid.isLt paymaster
      (Terms.ofFeeTerms terms) init
    rw [Terms.toFeeTerms_ofFeeTerms termsRange] at relayed
    exact ⟨data,_,_,encoded,parsed,relayed,getHash_packed lib range data _ form nonzero⟩
  · intro op chainId paymaster terms outside
    cases outcome : paymasterHash hashText op chainId paymaster terms with
    | error thrown => exact ⟨thrown,rfl⟩
    | ok hash =>
      obtain ⟨x,read,range,termsRange,lower,upper,_⟩ := paymasterHash_ok_range hashText outcome
      exact absurd ⟨x,read,range,termsRange,lower,upper⟩ outside

/-- A request for 2^128 units of gas before verification. -/
def wideGasOp : RpcUserOperation where
  sender := 0x51
  nonce := .value 0
  factory := none
  factoryData := none
  initCode := none
  callData := []
  callGasLimit := .value 100000
  verificationGasLimit := .value 100000
  preVerificationGas := .value (2 ^ 128)
  maxFeePerGas := .value 1
  maxPriorityFeePerGas := .value 1
  paymaster := none
  paymasterVerificationGasLimit := .value 100000
  paymasterPostOpGasLimit := .value 100000
  paymasterData := none
  signature := none
  eip7702Auth := none

/-- Every account is delegated to `0x5afe`. -/
def delegatedChain : Chain where
  chainid := 1
  code := fun _ => designator 0x5afe
  noZeroDelegate := fun _ => by decide

/-- The same of an EIP-7702 account, with data for its initialisation. -/
def delegatedOp : RpcUserOperation :=
  { wideGasOp with
    nonce := .value 7
    factory := some EIP7702_FACTORY
    factoryData := some (.bytes [0x12, 0x34])
    callData := [0xde, 0xad, 0xbe, 0xef] }

def delegatedQuantities : Quantities := ⟨⟨100000,100000,2 ^ 128,100000,100000⟩,7,1,1⟩

set_option maxRecDepth 20000 in
theorem paymasterHash_eq_getHash_delegated : ∃ data t hash,
    encodePaymasterData sampleTerms DUMMY_SIGNATURE = .ok data ∧
      parsePaymasterAndData (packPaymasterAndData 0x9a7e delegatedQuantities data) =
        .ok (t,DUMMY_SIGNATURE) ∧
      paymasterHash wholeBytesOnly delegatedOp 1 0x9a7e sampleTerms = .ok hash ∧
      getHash Eip7702Support.standard delegatedChain 0x9a7e (packUserOp delegatedOp
        delegatedQuantities (packPaymasterAndData 0x9a7e delegatedQuantities data)) t = .ok hash := by
  have range : delegatedQuantities.InRange := by constructor <;> decide
  exact (paymasterHash_eq_getHash _ Eip7702Support.standard).1 delegatedChain 0x9a7e delegatedOp
    delegatedQuantities sampleTerms DUMMY_SIGNATURE rfl range sampleTerms_inRange (by decide)
    (by decide) fun _ => ⟨by decide,by decide +kernel⟩

/-- `preVerificationGas` has a word of its own, so 2^128 is hashed like any other value. -/
theorem wide_preVerificationGas_hashed :
    ¬∀ (op : RpcUserOperation) (x : Quantities) (chainId : Int) (paymaster : Address)
      (terms : FeeTerms),
      readQuantities op = .ok x → 2 ^ 128 ≤ x.gas.preVerificationGas →
      ∃ thrown, paymasterHash wholeBytesOnly op chainId paymaster terms = .error thrown := by
  intro throws
  let x : Quantities := ⟨⟨100000,100000,2 ^ 128,100000,100000⟩,0,1,1⟩
  let t : Terms := ⟨0,0,0,0,0,0,0,0,0⟩
  have read : readQuantities wideGasOp = .ok x := rfl
  have range : x.InRange := by constructor <;> decide
  obtain ⟨thrown,threw⟩ := throws wideGasOp x (1 : Nat) 0 t.toFeeTerms read (by decide)
  rw [paymasterHash_inRange _ read range (by decide) 0 t rfl] at threw
  contradiction

end TornadoRelayer.Paymaster
