import TornadoRelayer.AllowedImplementation
import TornadoRelayer.RunLog

/-! The operation the bundler simulates against the one that is hashed. Both are read from
the request, but one takes every initCode that starts with `0x7702` for a marker, and the
other only the marker padded with zeros. -/
namespace TornadoRelayer

open BigEndian EventLoop Keccak RelayerService Paymaster

/-- What `initCodeHash` hashes, where it does not throw. -/
def hashedInitCode (implementation : Address) (initCode : Bytes) : Option Bytes :=
  if isEip7702InitCode initCode then
    if implementation = zeroAddress then none else some (implementation.bytes ++ initCode.drop 20)
  else some initCode

/-- The operation as the request spells it and as it is simulated are one and the same. -/
structure SameOperation (hashText : TextHash) (op simulated : RpcUserOperation)
    (implementation : Address) : Prop where
  sender : simulated.sender = op.sender
  nonce : simulated.nonce = op.nonce
  callData : simulated.callData = op.callData
  callGasLimit : simulated.callGasLimit = op.callGasLimit
  verificationGasLimit : simulated.verificationGasLimit = op.verificationGasLimit
  preVerificationGas : simulated.preVerificationGas = op.preVerificationGas
  paymasterVerificationGasLimit :
    simulated.paymasterVerificationGasLimit = op.paymasterVerificationGasLimit
  paymasterPostOpGasLimit : simulated.paymasterPostOpGasLimit = op.paymasterPostOpGasLimit
  maxFeePerGas : simulated.maxFeePerGas = op.maxFeePerGas
  maxPriorityFeePerGas : simulated.maxPriorityFeePerGas = op.maxPriorityFeePerGas
  initCode : initCodeHash hashText simulated implementation = initCodeHash hashText op implementation
  hash : ∀ chainId paymaster terms, terms.senderImplementation = implementation →
    paymasterHash hashText simulated chainId paymaster terms =
      paymasterHash hashText op chainId paymaster terms

/-- When the simulation shows what is hashed: both paymaster limits are given, an initCode
without a factory is no marker but the bare one, and beside a factory it says the same. -/
structure ShownAsHashed (op : RpcUserOperation) (implementation : Address) : Prop where
  verificationLimit : op.paymasterVerificationGasLimit ≠ .absent
  postOpLimit : op.paymasterPostOpGasLimit ≠ .absent
  alone : ∀ initCode, op.initCode = some (.bytes initCode) → falsy op.factory = true →
    initCode.take 2 ≠ [0x77, 0x02] ∨ initCode = [0x77, 0x02] ∨
      (isEip7702InitCode initCode = true ∧ implementation = zeroAddress)
  beside : ∀ initCode, op.initCode = some (.bytes initCode) → falsy op.factory = false →
    hashedInitCode implementation (initCodeBytes { op with initCode := none }) =
      hashedInitCode implementation initCode

variable {platform : Platform} {op simulated : RpcUserOperation} {implementation : Address}

theorem initCodeHash_hashed (hashText : TextHash) (submittable : Submittable op)
    (implementation : Address) :
    initCodeHash hashText op implementation =
      match hashedInitCode implementation (initCodeBytes op) with
      | some bytes => .ok (keccak256 bytes)
      | none => .error (.error "EIP-7702 initCode: the sender implementation is needed to hash the op") := by
  rw [initCodeHash_bytes _ submittable,delegatedHash,hashedInitCode]
  by_cases marked : isEip7702InitCode (initCodeBytes op) = true
  · by_cases zero : implementation = zeroAddress
    · simp [marked,zero]
    · simp [marked,zero,concatHex,keccakHex,bind,Except.bind]
  · simp [marked,keccakHex]

/-- Apart from a collision the hashes agree when the hashed bytes do. -/
theorem initCodeHash_eq_iff {hashText : TextHash} {op' : RpcUserOperation}
    (submittable' : Submittable op') (submittable : Submittable op)
    (free : CollisionFree ((hashedInitCode implementation (initCodeBytes op')).toList ++
      (hashedInitCode implementation (initCodeBytes op)).toList)) :
    initCodeHash hashText op' implementation = initCodeHash hashText op implementation ↔
      hashedInitCode implementation (initCodeBytes op') =
        hashedInitCode implementation (initCodeBytes op) := by
  rw [initCodeHash_hashed hashText submittable',initCodeHash_hashed hashText submittable]
  cases left : hashedInitCode implementation (initCodeBytes op') with
  | none =>
    cases hashedInitCode implementation (initCodeBytes op) <;> simp
  | some a =>
    cases right : hashedInitCode implementation (initCodeBytes op) with
    | none => simp
    | some b =>
      rw [left,right] at free
      simp only [Except.ok.injEq,Option.some.injEq]
      constructor
      · intro same
        exact free a (by simp) b (by simp) same
      · intro same
        rw [same]

theorem marker_marked (data : Bytes) : isEip7702InitCode (EIP7702_INITCODE_MARKER ++ data) = true := by
  apply (isEip7702InitCode_iff _).mpr
  constructor
  · simp [EIP7702_INITCODE_MARKER]
  · simp [EIP7702_INITCODE_MARKER]

/-- A marker that is shown as one hashes alike only when it is bare. -/
theorem shown_marker {initCode : Bytes} (prefixed : initCode.take 2 = [0x77, 0x02]) :
    hashedInitCode implementation (EIP7702_INITCODE_MARKER ++ initCode.drop 2) =
      hashedInitCode implementation initCode ↔
    initCode = [0x77, 0x02] ∨ (isEip7702InitCode initCode = true ∧ implementation = zeroAddress) := by
  have long : 2 ≤ initCode.length := by
    have taken := congrArg List.length prefixed
    simp only [List.length_take,List.length_cons,List.length_nil] at taken
    omega
  have tail : (EIP7702_INITCODE_MARKER ++ initCode.drop 2).drop 20 = initCode.drop 2 := by
    simp [EIP7702_INITCODE_MARKER]
  rw [hashedInitCode,hashedInitCode,if_pos (marker_marked _),tail]
  by_cases zero : implementation = zeroAddress
  · by_cases marked : isEip7702InitCode initCode = true
    · simp [zero,marked]
    · have bare : initCode ≠ [0x77, 0x02] := by
        rintro rfl
        exact marked (by decide)
      simp [zero,marked,bare]
  · by_cases marked : isEip7702InitCode initCode = true
    · simp only [zero,marked,if_true,if_false,and_false,or_false,Option.some.injEq,
        List.append_cancel_left_eq]
      constructor
      · intro same
        have lengths := congrArg List.length same
        simp only [List.length_drop] at lengths
        have two : initCode.length = 2 := by omega
        rw [← prefixed,List.take_of_length_le (by omega)]
      · rintro rfl
        rfl
    · have bare : initCode ≠ [0x77, 0x02] := by
        rintro rfl
        exact marked (by decide)
      simp only [zero,marked,bare,if_false,and_false,or_false,Option.some.injEq,iff_false,
        Bool.false_eq_true]
      intro same
      have lengths := congrArg List.length same
      simp at lengths
      omega

variable {service : RelayerService} {paymasterData : Bytes}

theorem splitInitCode_kept {initCode : HexField} {before : RpcUserOperation}
    (made : splitInitCode initCode before = .ok simulated) :
    ∃ factory factoryData, simulated = { before with factory, factoryData } := by
  cases initCode with
  | bytes data =>
    cases data with
    | nil =>
      cases made
      exact ⟨_,_,rfl⟩
    | cons b data =>
      simp only [splitInitCode] at made
      split at made <;> cases made <;> exact ⟨_,_,rfl⟩
  | text chars =>
    simp only [splitInitCode] at made
    split at made <;> cases made <;> exact ⟨_,_,rfl⟩
  | null => cases made
  | other truthy => cases made

theorem simulatedOp_kept (made : service.simulatedOp op paymasterData = .ok simulated) :
    simulated.sender = op.sender ∧ simulated.nonce = op.nonce ∧ simulated.callData = op.callData ∧
      simulated.callGasLimit = op.callGasLimit ∧
      simulated.verificationGasLimit = op.verificationGasLimit ∧
      simulated.preVerificationGas = op.preVerificationGas ∧
      simulated.maxFeePerGas = op.maxFeePerGas ∧
      simulated.maxPriorityFeePerGas = op.maxPriorityFeePerGas ∧
      simulated.paymasterVerificationGasLimit =
        orLimit op.paymasterVerificationGasLimit DEFAULT_PAYMASTER_VERIFICATION_GAS_LIMIT ∧
      simulated.paymasterPostOpGasLimit =
        orLimit op.paymasterPostOpGasLimit DEFAULT_PAYMASTER_POST_OP_GAS_LIMIT := by
  simp only [simulatedOp] at made
  split at made
  · split at made
    · obtain ⟨_,_,rfl⟩ := splitInitCode_kept made
      simp
    · cases made
      simp
  · cases made
    simp

theorem orLimit_eq_iff {value : Quantity} {limit : Nat} :
    orLimit value limit = value ↔ value ≠ .absent := by
  cases value <;> simp [orLimit]

/-- What an operation is packed to once its initCode has been split. -/
theorem splitInitCode_packed {initCode : Bytes} {before : RpcUserOperation}
    (made : splitInitCode (.bytes initCode) before = .ok simulated) (none : before.initCode = none)
    (alone : falsy before.factory = true) :
    packInitCode simulated = .ok (.bytes
      (if initCode.take 2 = [0x77, 0x02] then EIP7702_INITCODE_MARKER ++ initCode.drop 2
      else initCode)) := by
  cases initCode with
  | nil =>
    cases made
    simp [packInitCode,none,alone]
  | cons b rest =>
    simp only [splitInitCode] at made
    split at made
    · next prefixed =>
      cases made
      rw [if_pos prefixed]
      simp [packInitCode,none,falsy,EIP7702_FACTORY,orEmptyHex,concatHex]
    · next plain =>
      cases made
      rw [if_neg plain]
      have unmarked : (b :: rest).take 20 ≠ [0x77, 0x02] := by
        intro marked
        have start := congrArg (List.take 2) marked
        rw [List.take_take] at start
        exact plain start
      have whole := List.take_append_drop 20 (b :: rest)
      have factory : some (HexField.bytes ((b :: rest).take 20)) ≠ some EIP7702_FACTORY := by
        simpa [EIP7702_FACTORY] using unmarked
      simp only [packInitCode,none,falsy,factory,if_false,Option.getD_some,orEmptyHex,concatHex,whole,
        Bool.false_eq_true]

/-- An initCode without a factory is split into one, an empty one left out. -/
theorem simulatedOp_split (made : service.simulatedOp op paymasterData = .ok simulated)
    {initCode : Bytes} (given : op.initCode = some (.bytes initCode))
    (alone : falsy op.factory = true) :
    packInitCode simulated = .ok (.bytes
      (if initCode.take 2 = [0x77, 0x02] then EIP7702_INITCODE_MARKER ++ initCode.drop 2
      else initCode)) := by
  simp only [simulatedOp,given,alone,if_true] at made
  exact splitInitCode_packed made rfl alone

theorem simulatedOp_beside (made : service.simulatedOp op paymasterData = .ok simulated)
    (kept : op.initCode = none ∨ falsy op.factory = false) :
    packInitCode simulated = packInitCode { op with initCode := none } := by
  simp only [simulatedOp] at made
  split at made
  · next given =>
    rcases kept with none | some
    · rw [given] at none
      cases none
    · rw [some] at made
      cases made
      rfl
  · cases made
    rfl

theorem submittable_of_packed {initCode : Bytes} (packed : packInitCode op = .ok (.bytes initCode)) :
    initCodeBytes op = initCode ∧ Submittable op := by
  have bytes : initCodeBytes op = initCode := by rw [initCodeBytes,packed]
  exact ⟨bytes,by rw [Submittable,bytes,packed]⟩

/-- An initCode that is given is what is packed. -/
theorem initCode_of_submittable (submittable : Submittable op) {initCode : HexField}
    (given : op.initCode = some initCode) : initCode = .bytes (initCodeBytes op) := by
  rw [Submittable,packInitCode,given] at submittable
  exact Except.ok.inj submittable

theorem paymasterHash_congr {hashText : TextHash} {op' : RpcUserOperation}
    (sender : op'.sender = op.sender) (nonce : op'.nonce = op.nonce)
    (callData : op'.callData = op.callData) (maxFeePerGas : op'.maxFeePerGas = op.maxFeePerGas)
    (maxPriorityFeePerGas : op'.maxPriorityFeePerGas = op.maxPriorityFeePerGas)
    (gas : readGas op' = readGas op) {terms : FeeTerms}
    (initCode : initCodeHash hashText op' terms.senderImplementation =
      initCodeHash hashText op terms.senderImplementation) (chainId : Int) (paymaster : Address) :
    paymasterHash hashText op' chainId paymaster terms =
      paymasterHash hashText op chainId paymaster terms := by
  simp only [paymasterHash,sender,nonce,callData,maxFeePerGas,maxPriorityFeePerGas,gas,initCode]

/-- The simulated operation packs to bytes, and the init codes agree exactly when the request
spells one of them only, in a form both sides read alike. -/
theorem simulatedOp_initCode_iff (submittable : Submittable op)
    (bare : Submittable { op with initCode := none })
    (made : service.simulatedOp op paymasterData = .ok simulated) :
    Submittable simulated ∧
    (hashedInitCode implementation (initCodeBytes simulated) =
        hashedInitCode implementation (initCodeBytes op) ↔
      (∀ initCode, op.initCode = some (.bytes initCode) → falsy op.factory = true →
        initCode.take 2 ≠ [0x77, 0x02] ∨ initCode = [0x77, 0x02] ∨
          (isEip7702InitCode initCode = true ∧ implementation = zeroAddress)) ∧
      (∀ initCode, op.initCode = some (.bytes initCode) → falsy op.factory = false →
        hashedInitCode implementation (initCodeBytes { op with initCode := none }) =
          hashedInitCode implementation initCode)) := by
  have besides (kept : op.initCode = none ∨ falsy op.factory = false) :
      initCodeBytes simulated = initCodeBytes { op with initCode := none } ∧ Submittable simulated := by
    apply submittable_of_packed
    rw [simulatedOp_beside made kept]
    exact bare
  cases given : op.initCode with
  | none =>
    have same : ({ op with initCode := none } : RpcUserOperation) = op := by rw [← given]
    obtain ⟨bytes,packs⟩ := besides (.inl given)
    rw [same] at bytes
    exact ⟨packs,by simp [bytes]⟩
  | some field =>
    obtain rfl := initCode_of_submittable submittable given
    cases factory : falsy op.factory with
    | true =>
      obtain ⟨bytes,packs⟩ := submittable_of_packed (simulatedOp_split made given factory)
      refine ⟨packs,?_⟩
      rw [bytes]
      by_cases prefixed : (initCodeBytes op).take 2 = [0x77, 0x02]
      · rw [if_pos prefixed,shown_marker prefixed]
        simp [prefixed]
      · simp [prefixed]
    | false =>
      obtain ⟨bytes,packs⟩ := besides (.inr factory)
      refine ⟨packs,?_⟩
      rw [bytes]
      simp

/-- The simulated operation is the one that is hashed exactly when it is shown as hashed. -/
theorem sameOperation_iff {hashText : TextHash} (submittable : Submittable op)
    (bare : Submittable { op with initCode := none })
    (made : service.simulatedOp op paymasterData = .ok simulated)
    (free : CollisionFree ((hashedInitCode implementation (initCodeBytes simulated)).toList ++
      (hashedInitCode implementation (initCodeBytes op)).toList)) :
    SameOperation hashText op simulated implementation ↔ ShownAsHashed op implementation := by
  obtain ⟨sender,nonce,callData,callGas,verificationGas,preVerification,maxFee,priorityFee,
    verificationLimit,postOpLimit⟩ := simulatedOp_kept made
  obtain ⟨packs,agree⟩ := simulatedOp_initCode_iff submittable bare made
  have hashes : initCodeHash hashText simulated implementation = initCodeHash hashText op implementation ↔
      _ := initCodeHash_eq_iff packs submittable free
  constructor
  · intro same
    obtain ⟨alone,beside⟩ := agree.mp (hashes.mp same.initCode)
    refine ⟨?_,?_,alone,beside⟩
    · exact orLimit_eq_iff.mp (verificationLimit.symm.trans same.paymasterVerificationGasLimit)
    · exact orLimit_eq_iff.mp (postOpLimit.symm.trans same.paymasterPostOpGasLimit)
  · intro shown
    have initCode := hashes.mpr (agree.mpr ⟨shown.alone,shown.beside⟩)
    have verification := verificationLimit.trans (orLimit_eq_iff.mpr shown.verificationLimit)
    have postOp := postOpLimit.trans (orLimit_eq_iff.mpr shown.postOpLimit)
    have gas : readGas simulated = readGas op := by
      simp only [readGas,callGas,verificationGas,preVerification,verification,postOp]
    refine ⟨sender,nonce,callData,callGas,verificationGas,preVerification,verification,postOp,maxFee,
      priorityFee,initCode,?_⟩
    rintro chainId paymaster terms rfl
    exact paymasterHash_congr sender nonce callData maxFee priorityFee gas initCode chainId paymaster

/-! ### What the bundler is sent -/

variable {refundTo : Option Address}

abbrev ServiceLog := List (Logged serviceInterface)

/-- A run of the service's code, with its log and its outcome. -/
abbrev ServiceRuns (p : Async α) (log : ServiceLog) (out : Except Thrown α) : Prop :=
  Program.Runs (I := serviceInterface) p log out

/-- The operation the bundler is asked to estimate. -/
def sentToBundler : Logged serviceInterface → Option RpcUserOperation
  | .answered (Query.estimateUserOperationGas simulated _ _) _ => some simulated
  | _ => none

/-- What is sent is an operation made to be simulated. -/
def SendsSimulated (service : RelayerService) (op : RpcUserOperation) (e : Logged serviceInterface) :
    Prop :=
  ∀ simulated, sentToBundler e = some simulated →
    ∃ paymasterData, service.simulatedOp op paymasterData = .ok simulated

/-- The bundler is asked for nothing but the simulated operation. -/
theorem assertBundlerSimulates_logs (service : RelayerService) (op : RpcUserOperation) :
    (service.assertBundlerSimulates platform op refundTo).Logs (SendsSimulated service op) := by
  have now : nowSeconds.Logs (SendsSimulated service op) :=
    logs_bind (logs_act (by simp [SendsSimulated,sentToBundler])) fun _ => logs_done _
  have code : (stateOverride op).Logs (SendsSimulated service op) := by
    rw [stateOverride]
    split
    · exact logs_done _
    · exact logs_bind (logs_ask (by simp [SendsSimulated,sentToBundler])) fun _ => logs_done _
  have estimate {paymasterData : Bytes} {simulated : RpcUserOperation}
      (made : service.simulatedOp op paymasterData = .ok simulated)
      (override : Option (Address × Bytes)) :
      (service.estimateUserOperationGas platform simulated override).Logs (SendsSimulated service op) := by
    have asked (r : Except Thrown HttpResponse) : SendsSimulated service op
        (.answered (Query.estimateUserOperationGas simulated service.config.entryPoint override) r) := by
      rintro _ ⟨⟩
      exact ⟨_,made⟩
    exact logs_bind (logs_catching (logs_ask asked) fun _ => logs_done _) fun _ => logs_done _
  exact logs_bind (logs_done _) fun _ => logs_bind now fun _ => logs_bind (logs_done _) fun _ =>
    logs_done_bind fun _ made => logs_bind code fun _ =>
    logs_bind (logs_catching (estimate made _) fun _ => logs_done _) fun _ => logs_done _

theorem sentToBundler_simulated {log : ServiceLog} {out : Except Thrown Unit}
    (ran : ServiceRuns (service.assertBundlerSimulates platform op refundTo) log out)
    (sent : simulated ∈ log.filterMap sentToBundler) :
    ∃ paymasterData, service.simulatedOp op paymasterData = .ok simulated := by
  obtain ⟨e,member,asked⟩ := List.mem_filterMap.mp sent
  exact assertBundlerSimulates_logs service op _ _ ran e member simulated asked

/-- Whatever the bundler is sent for this request is the operation that is hashed exactly
when the request shows it as hashed. -/
theorem simulated_is_signed_iff {log : ServiceLog} {out : Except Thrown Unit}
    (ran : ServiceRuns (service.assertBundlerSimulates platform op refundTo) log out)
    (sent : simulated ∈ log.filterMap sentToBundler)
    (submittable : Submittable op) (bare : Submittable { op with initCode := none })
    (free : CollisionFree ((hashedInitCode implementation (initCodeBytes simulated)).toList ++
      (hashedInitCode implementation (initCodeBytes op)).toList)) :
    SameOperation platform.hashText op simulated implementation ↔ ShownAsHashed op implementation := by
  obtain ⟨paymasterData,made⟩ := sentToBundler_simulated ran sent
  exact sameOperation_iff submittable bare made free

/-- An EIP-7702 account's operation with this initCode. -/
def markedOp (initCode : Bytes) : RpcUserOperation :=
  { sampleOp 1 SIMPLE_7702_ACCOUNT with initCode := some (.bytes initCode) }

/-- The simulation of that operation with every check passing. -/
def simulateMarked (initCode : Bytes) : Async Unit :=
  (sampleService .memory [SIMPLE_7702_ACCOUNT]).assertBundlerSimulates (samplePlatform [1])
    (markedOp initCode) none

theorem simulated_is_signed_bare : ∃ log out simulated,
    ServiceRuns (simulateMarked [0x77, 0x02]) log out ∧
    simulated ∈ log.filterMap sentToBundler ∧
    SameOperation (samplePlatform [1]).hashText (markedOp [0x77, 0x02]) simulated
      SIMPLE_7702_ACCOUNT := by
  have ran := runs_trace (I := serviceInterface) (sampleAnswers 0) sampleResults
    (simulateMarked [0x77, 0x02])
  have asks : ((simulateMarked [0x77, 0x02]).trace (sampleAnswers 0) sampleResults).filterMap
      sentToBundler ≠ [] := by decide +kernel
  obtain ⟨simulated,sent⟩ := List.exists_mem_of_ne_nil _ asks
  have submittable : Submittable (markedOp [0x77, 0x02]) := by decide
  have bare : Submittable { markedOp [0x77, 0x02] with initCode := none } := by decide
  have shown : ShownAsHashed (markedOp [0x77, 0x02]) SIMPLE_7702_ACCOUNT := by
    refine ⟨by simp [markedOp,sampleOp],by simp [markedOp,sampleOp],?_,?_⟩
    · rintro _ ⟨⟩ _
      exact .inr (.inl rfl)
    · rintro _ _ ⟨⟩
  have free : CollisionFree ((hashedInitCode SIMPLE_7702_ACCOUNT (initCodeBytes simulated)).toList ++
      (hashedInitCode SIMPLE_7702_ACCOUNT (initCodeBytes (markedOp [0x77, 0x02]))).toList) := by
    obtain ⟨paymasterData,made⟩ := sentToBundler_simulated ran sent
    rw [(simulatedOp_initCode_iff submittable bare made).2.mpr ⟨shown.alone,shown.beside⟩]
    intro a ha b hb _
    simp only [List.mem_append,or_self,Option.mem_toList] at ha hb
    exact Option.mem_unique ha hb
  exact ⟨_,_,simulated,ran,sent,(simulated_is_signed_iff ran sent submittable bare free).mpr shown⟩

/-- The marker with its zeros is simulated with them as the account's initialisation data. -/
theorem padded_marker_simulated_otherwise : ∃ log out simulated,
    ServiceRuns (simulateMarked EIP7702_INITCODE_MARKER) log out ∧
    simulated ∈ log.filterMap sentToBundler ∧
    ¬SameOperation (samplePlatform [1]).hashText (markedOp EIP7702_INITCODE_MARKER) simulated
      SIMPLE_7702_ACCOUNT := by
  have ran := runs_trace (I := serviceInterface) (sampleAnswers 0) sampleResults
    (simulateMarked EIP7702_INITCODE_MARKER)
  have asks : ((simulateMarked EIP7702_INITCODE_MARKER).trace (sampleAnswers 0)
      sampleResults).filterMap sentToBundler ≠ [] := by decide +kernel
  obtain ⟨simulated,sent⟩ := List.exists_mem_of_ne_nil _ asks
  refine ⟨_,_,simulated,ran,sent,fun same => ?_⟩
  obtain ⟨paymasterData,made⟩ := sentToBundler_simulated ran sent
  obtain ⟨bytes,packs⟩ := submittable_of_packed (simulatedOp_split made rfl rfl)
  have hashes := same.initCode
  have submittable : Submittable (markedOp EIP7702_INITCODE_MARKER) := by decide
  rw [initCodeHash_hashed _ packs,initCodeHash_hashed _ submittable,bytes] at hashes
  exact absurd hashes (by decide +kernel)

end TornadoRelayer
