import TornadoRelayer.Refusal

/-! The stub that an operation is estimated with before anything is signed, and what it
shares with the data that `sign` returns for the same request. -/
namespace TornadoRelayer

open BigEndian EventLoop JavaScript RelayerService Paymaster

structure StubDataResult where
  paymaster : Address
  paymasterData : Bytes
  paymasterVerificationGasLimit : Nat
  paymasterPostOpGasLimit : Nat
  isFinal : Bool

variable {platform : Platform} {service : RelayerService} {op : RpcUserOperation}
  {context : SponsorContext} {now : JsNumber} {log : ServiceLog} {issued : Issued}

/-- `context.refundTo`, where it is an address. -/
def SponsorContext.address (context : SponsorContext) : Option Address :=
  match context.refundTo with
  | some (.valid refundTo) => some refundTo
  | _ => none

/-- `stubData`, once the clock is read. -/
def RelayerService.stubDataAt (s : RelayerService) (platform : Platform) (op : RpcUserOperation)
    (context : SponsorContext) (now : JsNumber) : Except Thrown StubDataResult := do
  let paymasterData ← s.stubPaymasterData platform op context.address now
  -- The encoder comes to the address after the times and the fees.
  if s.refunds ∧ context.refundTo = some .invalid then throw (.viem "InvalidAddressError")
  return {
    paymaster := s.config.paymaster
    paymasterData
    paymasterVerificationGasLimit := DEFAULT_PAYMASTER_VERIFICATION_GAS_LIMIT
    paymasterPostOpGasLimit := DEFAULT_PAYMASTER_POST_OP_GAS_LIMIT
    isFinal := false }

def RelayerService.stubData (s : RelayerService) (platform : Platform) (op : RpcUserOperation)
    (context : SponsorContext) : Async StubDataResult := do
  let now ← nowSeconds
  s.stubDataAt platform op context now

/-! ### The terms of a stub -/

/-- The terms that `stubPaymasterData` encodes. -/
def RelayerService.stubFeeTerms (s : RelayerService) (platform : Platform) (op : RpcUserOperation)
    (refundTo : Option Address) (now : JsNumber) : FeeTerms :=
  let stub := s.stubTerms platform op refundTo
  { validUntil := now + s.config.signatureTtlSec
    validAfter := 0
    fee := stub.fee
    serviceFee := 0
    refundTo := stub.refundTo
    feeToken := stub.feeToken
    tokenPerEth := 0
    withdrawalHash := stub.approved
    senderImplementation := (senderImplementationFromOp op).getD zeroAddress }

theorem stubPaymasterData_encodes (service : RelayerService) (platform : Platform)
    (op : RpcUserOperation) (refundTo : Option Address) (now : JsNumber) :
    service.stubPaymasterData platform op refundTo now =
      encodePaymasterData (service.stubFeeTerms platform op refundTo now) DUMMY_SIGNATURE := by
  simp only [stubPaymasterData,stubFeeTerms]

/-- A time the contract's fields can hold. -/
def Dated (validUntil : JsNumber) : Prop := ∃ n : Nat, n < 2 ^ 48 ∧ validUntil = n

/-- The paying withdrawal, as a stub looks for it. -/
def sponsoring (platform : Platform) (service : RelayerService) (op : RpcUserOperation) :
    Except Thrown TornadoWithdrawCall := do
  findSponsoringWithdraw platform.decoder (← decodeAccountCalls platform.decoder op.callData)
    (service.rules op.sender)

section
-- The hash stands for a variable here: the kernel must not evaluate it.
variable {hash : Withdrawal → Except Thrown Bytes32} (computed : hash = TornadoRelayer.withdrawalHash)
include computed

theorem stubTerms_hash {refundTo : Option Address} {w : TornadoWithdrawCall} {info : InstanceInfo}
    {approved : Bytes32} (found : sponsoring platform service op = .ok w)
    (served : service.instanceOf w.pool = .ok info) (hashed : hash w.toWithdrawal = .ok approved) :
    service.stubTerms platform op refundTo =
      ⟨w.fee.toNat,info.token,if service.refunds then refundTo.getD w.recipient else zeroAddress,
        approved⟩ := by
  rw [sponsoring] at found
  unfold stubTerms
  rw [← computed]
  simp only [found,served,hashed]
  by_cases refunds : service.refunds = true <;> simp [refunds]

theorem stubTerms_word (refundTo : Option Address) :
    ∃ fee : Word 32, (service.stubTerms platform op refundTo).fee = fee.toNat := by
  unfold stubTerms
  rw [← computed]
  cases found : sponsoring platform service op with
  | error e =>
    rw [sponsoring] at found
    simp only [found]
    exact ⟨0,by simp⟩
  | ok w =>
    rw [sponsoring] at found
    simp only [found]
    apply Exists.intro w.fee
    cases service.instanceOf w.pool with
    | error e => simp
    | ok info => cases hash w.toWithdrawal <;> simp

end

/-- What a stub shows of a withdrawal that is found. -/
theorem stubTerms_found {refundTo : Option Address} {w : TornadoWithdrawCall} {info : InstanceInfo}
    (found : sponsoring platform service op = .ok w) (served : service.instanceOf w.pool = .ok info) :
    service.stubTerms platform op refundTo =
      ⟨w.fee.toNat,info.token,if service.refunds then refundTo.getD w.recipient else zeroAddress,
        Paymaster.withdrawalHash w.toWithdrawal⟩ :=
  stubTerms_hash rfl found served (withdrawalHash_agrees _)

theorem stubFeeTerms_inRange_iff (refundTo : Option Address) :
    (service.stubFeeTerms platform op refundTo now).InRange ↔
      Dated (now + service.config.signatureTtlSec) := by
  constructor
  · exact fun range => range.validUntil
  · intro dated
    obtain ⟨fee,same⟩ : ∃ fee : Word 32, (service.stubTerms platform op refundTo).fee = fee.toNat :=
      stubTerms_word rfl refundTo
    have fits : (fee.toNat : Int) < 2 ^ 256 := by exact_mod_cast fee.isLt
    constructor
    · exact dated
    · exact ⟨0,by simp,rfl⟩
    · simp only [stubFeeTerms,same]
      exact ⟨Int.natCast_nonneg _,fits⟩
    · simp [stubFeeTerms]
    · simp [stubFeeTerms]

/-- What a number that is encoded stands for. -/
theorem encodePacked_number_range {size : Nat} {v : JsNumber} {data : Bytes}
    (encoded : encodePackedParameter (.number size v) = .ok data) :
    ∃ n : Nat, n < 256 ^ size ∧ v = n := by
  obtain ⟨i,whole,rest⟩ := bind_ok_iff.mp encoded
  obtain ⟨n,fits,_⟩ := bind_ok_iff.mp rest
  obtain ⟨lower,upper,rfl⟩ := numberToHex_ok_iff.mp fits
  apply Exists.intro i.toNat
  constructor
  · exact (Int.toNat_lt lower).mpr (by exact_mod_cast upper)
  · rw [bigInt_ok_iff.mp whole,← Int.toNat_of_nonneg lower]
    norm_cast

theorem dummy_length : DUMMY_SIGNATURE.length = SIGNATURE_LENGTH := by
  simp [DUMMY_SIGNATURE,SIGNATURE_LENGTH]

/-- Whatever the operation, only the time can be out of range. -/
theorem stubPaymasterData_ok_iff (refundTo : Option Address) :
    (∃ data, service.stubPaymasterData platform op refundTo now = .ok data) ↔
      Dated (now + service.config.signatureTtlSec) := by
  rw [stubPaymasterData_encodes]
  constructor
  · rintro ⟨data,encoded⟩
    rw [encodePaymasterData,if_neg (not_not.mpr dummy_length)] at encoded
    obtain ⟨fields,each,_⟩ := encodePacked_ok_iff.mp encoded
    obtain ⟨first,_,number,_⟩ := List.forall₂_cons_left_iff.mp each
    exact encodePacked_number_range number
  · intro dated
    apply encodePaymasterData_ok
    · exact (stubFeeTerms_inRange_iff refundTo).mpr dated
    · exact dummy_length

/-- A stub is refused for its date, or for a refund address that it would have to carry. -/
theorem stubDataAt_ok_iff :
    (∃ stub, service.stubDataAt platform op context now = .ok stub) ↔
      Dated (now + service.config.signatureTtlSec) ∧
        ¬(service.refunds ∧ context.refundTo = some .invalid) := by
  have encodes : (∃ data, service.stubPaymasterData platform op context.address now = .ok data) ↔
      Dated (now + service.config.signatureTtlSec) :=
    stubPaymasterData_ok_iff context.address
  rw [← encodes]
  by_cases unusable : service.refunds ∧ context.refundTo = some .invalid
  · apply iff_of_false
    swap
    · simp [unusable]
    rintro ⟨stub,returned⟩
    obtain ⟨_,_,refused⟩ := bind_ok_iff.mp returned
    rw [if_pos unusable] at refused
    cases refused
  · simp only [unusable,not_false_eq_true,and_true]
    constructor
    · rintro ⟨stub,returned⟩
      obtain ⟨data,encoded,_⟩ := bind_ok_iff.mp returned
      exact ⟨data,encoded⟩
    · rintro ⟨data,encoded⟩
      apply Exists.intro
      apply bind_ok_iff.mpr
      refine ⟨data,encoded,?_⟩
      rw [if_neg unusable]
      rfl

theorem stubDataAt_ok {stub : StubDataResult}
    (returned : service.stubDataAt platform op context now = .ok stub) :
    stub.paymaster = service.config.paymaster ∧
      service.stubPaymasterData platform op context.address now = .ok stub.paymasterData := by
  obtain ⟨data,encoded,returned⟩ := bind_ok_iff.mp returned
  obtain ⟨_,returned⟩ := throw_or_ok returned
  cases returned
  exact ⟨rfl,encoded⟩

/-! ### Beside a signature -/

theorem checkRequest_refundTo {r : CheckedRequest}
    (ok : service.checkRequest platform op context = .ok r) :
    r.refundTo = context.address ∧ context.refundTo ≠ some .invalid := by
  unfold checkRequest at ok
  obtain ⟨_,ok⟩ := throw_or_ok ok
  rw [SponsorContext.address]
  split at ok
  case h_3 => cases ok
  all_goals
    obtain ⟨_,named,ok⟩ := bind_ok_iff.mp ok
    cases named
    obtain ⟨calls,_,ok⟩ := bind_ok_iff.mp ok
    obtain ⟨w,_,ok⟩ := bind_ok_iff.mp ok
    obtain ⟨info,_,ok⟩ := bind_ok_iff.mp ok
    obtain ⟨_,ok⟩ := throw_or_ok ok
    obtain ⟨gas,_,ok⟩ := bind_ok_iff.mp ok
    obtain ⟨maxFeePerGas,_,ok⟩ := bind_ok_iff.mp ok
    obtain ⟨priority,_,ok⟩ := bind_ok_iff.mp ok
    obtain ⟨_,ok⟩ := throw_or_ok ok
    cases ok
    simp [*]

/-- The terms of a signature, as a stub of this date shows them. -/
def FeeTerms.stubbed (terms : FeeTerms) (op : RpcUserOperation) (validUntil : JsNumber) : FeeTerms :=
  { terms with
    validUntil
    serviceFee := 0
    tokenPerEth := 0
    senderImplementation := (senderImplementationFromOp op).getD zeroAddress }

/-- A stub carries what is signed, but for the date, the service fee, the rate and an
implementation that the operation does not name. -/
theorem stubFeeTerms_signed {r : CheckedRequest} {rate : Int} {validUntil : JsNumber}
    {implementation : Address} {terms : FeeTerms}
    (checked : service.checkRequest platform op context = .ok r)
    (built : service.signedTerms r rate validUntil implementation = .ok terms) :
    service.stubFeeTerms platform op context.address now =
      terms.stubbed op (now + service.config.signatureTtlSec) := by
  have request := checkRequest_ok checked
  obtain ⟨calls,decoded,found⟩ := request.sponsoring
  have sponsored : sponsoring platform service op = .ok r.w :=
    bind_ok_iff.mpr ⟨calls,decoded,found⟩
  obtain ⟨approved,hashed,returned⟩ := bind_ok_iff.mp built
  rw [withdrawalHash_agrees] at hashed
  cases hashed
  cases returned
  rw [stubFeeTerms,stubTerms_found sponsored request.info,(checkRequest_refundTo checked).1]
  simp only [FeeTerms.stubbed]

/-- The operation with a stub in place of the signature. -/
def StubDataResult.submitted (stub : StubDataResult) (op : RpcUserOperation) (x : Quantities) :
    PackedUserOperation :=
  packUserOp op x (packPaymasterAndData stub.paymaster x stub.paymasterData)

/-- The override of a hash does not depend on the paymaster's data. -/
theorem initCodeHashOverride_packed (lib : Eip7702Support) {chain : Chain} {x : Quantities}
    {data : Bytes} {override : Bytes32} (data' : Bytes)
    (computed : lib.initCodeHashOverride chain (packUserOp op x data) = .ok override) :
    lib.initCodeHashOverride chain (packUserOp op x data') = .ok override := by
  by_cases marked : MarkedInitCode (initCodeBytes op)
  · cases current : chain.delegate op.sender with
    | none =>
      obtain ⟨reason,refused⟩ := lib.undelegated chain (packUserOp op x data) marked current
      rw [refused] at computed
      cases computed
    | some delegate =>
      rw [← computed,lib.delegated chain (packUserOp op x data) delegate marked current]
      exact lib.delegated chain (packUserOp op x data') delegate marked current
  · rw [← computed,lib.unmarked chain (packUserOp op x data) marked]
    exact lib.unmarked chain (packUserOp op x data') marked

/-- Where the operation with one set of terms has a hash, so it does with another. -/
theorem getHash_packed_again (lib : Eip7702Support) {chain : Chain} {self : Address} {x : Quantities}
    {data : Bytes} {t : Terms} {hash : Bytes32} (data' : Bytes) (t' : Terms)
    (hashed : getHash lib chain self (packUserOp op x data) t = .ok hash) :
    ∃ hash', getHash lib chain self (packUserOp op x data') t' = .ok hash' := by
  obtain ⟨fieldsHash,fields,_⟩ := bind_ok_iff.mp hashed
  obtain ⟨override,computed,_⟩ := bind_ok_iff.mp fields
  have again := initCodeHashOverride_packed lib data' computed
  exact ⟨_,bind_ok_iff.mpr ⟨_,bind_ok_iff.mpr ⟨override,again,rfl⟩,rfl⟩⟩

/-- A stub in the place of what was signed: as long, with these terms, and validated by the
contract wherever that is. -/
structure StandsIn (stub : StubDataResult) (issued : Issued) (op : RpcUserOperation) (x : Quantities)
    (terms : FeeTerms) : Prop where
  length : stub.paymasterData.length = issued.paymasterData.length
  signed : ∃ signature, parsePaymasterAndData (issued.submitted x).paymasterAndData =
    .ok (Terms.ofFeeTerms issued.terms,signature)
  parses : parsePaymasterAndData (stub.submitted op x).paymasterAndData =
    .ok (Terms.ofFeeTerms terms,DUMMY_SIGNATURE)
  validates : ∀ lib tryRecover d chain msgSender userOpHash validated v,
    validationResult lib tryRecover d chain msgSender (issued.submitted x) userOpHash =
      .ok (validated,v) →
    ∃ v', validationResult lib tryRecover d chain msgSender (stub.submitted op x) userOpHash =
      .ok (⟨validated.userOpHash,validated.sender,Terms.ofFeeTerms terms⟩,v')

/-- An implementation that a stub names is the one that is signed. -/
theorem stubbed_implementation {answers : (query : Query) → Except Thrown query.Answer → Prop}
    (signed : SignedFor platform service answers op issued)
    (bound : (senderImplementationFromOp op).getD zeroAddress ≠ zeroAddress) :
    (senderImplementationFromOp op).getD zeroAddress = issued.terms.senderImplementation := by
  rcases signed.names with named | ⟨unnamed,_⟩
  · rw [named,Option.getD_some]
  · rw [unnamed] at bound
    exact absurd rfl bound

/-- What validation returns once its checks have passed. -/
theorem validationResult_ok {lib : Eip7702Support} {tryRecover : Bytes32 → Bytes → Option Address}
    {d : Deployment} {chain : Chain} {msgSender : Address} {userOp : PackedUserOperation}
    {t : Terms} {sig : Bytes} {hash : Bytes32} (userOpHash : Bytes32)
    (caller : msgSender = d.entryPoint)
    (parses : parsePaymasterAndData userOp.paymasterAndData = .ok (t,sig))
    (delegated : t.senderImplementation ≠ 0 →
      delegatedTo chain userOp.sender t.senderImplementation = true)
    (hashed : getHash lib chain d.self userOp t = .ok hash) :
    ∃ v, validationResult lib tryRecover d chain msgSender userOp userOpHash =
      .ok (⟨userOpHash,userOp.sender,t⟩,v) :=
  ⟨_,(validationResult_ok_iff lib).mpr ⟨caller,t,sig,hash,parses,delegated,hashed,rfl⟩⟩

/-- The contract validates the stub of a signed operation wherever it validates that. -/
theorem validates_stubbed {answers : (query : Query) → Except Thrown query.Answer → Prop}
    {stub : StubDataResult} {x : Quantities} {signature : Bytes} {validUntil : JsNumber}
    (signed : SignedFor platform service answers op issued)
    (parsed : parsePaymasterAndData (issued.submitted x).paymasterAndData =
      .ok (Terms.ofFeeTerms issued.terms,signature))
    (parses : parsePaymasterAndData (stub.submitted op x).paymasterAndData =
      .ok (Terms.ofFeeTerms (issued.terms.stubbed op validUntil),DUMMY_SIGNATURE))
    {lib : Eip7702Support} {tryRecover : Bytes32 → Bytes → Option Address} {d : Deployment}
    {chain : Chain} {msgSender : Address} {userOpHash : Bytes32} {validated : Paymaster.Context}
    {v : ValidationData}
    (accepted : validationResult lib tryRecover d chain msgSender (issued.submitted x) userOpHash =
      .ok (validated,v)) :
    ∃ v', validationResult lib tryRecover d chain msgSender (stub.submitted op x) userOpHash =
      .ok (⟨validated.userOpHash,validated.sender,
        Terms.ofFeeTerms (issued.terms.stubbed op validUntil)⟩,v') := by
  obtain ⟨caller,t,sig,hash,parsed',delegated,hashed,result⟩ :=
    (validationResult_ok_iff lib).mp accepted
  cases parsed.symm.trans parsed'
  have sender : (issued.submitted x).sender = op.sender := congrArg RpcUserOperation.sender signed.same
  obtain ⟨same,_⟩ := Prod.mk.inj result
  rw [Issued.submitted,signed.same] at hashed
  rw [sender] at delegated same
  obtain ⟨hash',hashed'⟩ := getHash_packed_again lib
    (packPaymasterAndData stub.paymaster x stub.paymasterData)
    (Terms.ofFeeTerms (issued.terms.stubbed op validUntil)) hashed
  have bound : (Terms.ofFeeTerms (issued.terms.stubbed op validUntil)).senderImplementation ≠ 0 →
      delegatedTo chain (stub.submitted op x).sender
        (Terms.ofFeeTerms (issued.terms.stubbed op validUntil)).senderImplementation = true := by
    intro bound
    have named : (Terms.ofFeeTerms (issued.terms.stubbed op validUntil)).senderImplementation =
        (Terms.ofFeeTerms issued.terms).senderImplementation := stubbed_implementation signed bound
    rw [named] at bound ⊢
    exact delegated bound
  subst same
  exact validationResult_ok userOpHash caller parses bound hashed'

theorem encodedLength {terms : FeeTerms} {signature data : Bytes}
    (encoded : encodePaymasterData terms signature = .ok data) : data.length = 265 := by
  have total : 52 + data.length = 317 := encodePaymasterData_length encoded
  omega

/-- A stub is returned for every operation while its date fits and its refund address is one.
For a request that gets signed, the contract reads from it the terms that are signed, but for
the date, the service fee, the rate and an implementation the operation does not name. -/
theorem stub_stands_in (service : RelayerService) (platform : Platform) :
    (∀ op context now, (∃ stub, service.stubDataAt platform op context now = .ok stub) ↔
      Dated (now + service.config.signatureTtlSec) ∧
        ¬(service.refunds ∧ context.refundTo = some .invalid)) ∧
    ∀ op context log issued now x,
      ServiceRuns (service.sign platform op context) log (.ok issued) →
      Dated (now + service.config.signatureTtlSec) → readQuantities op = .ok x →
      ∃ stub, service.stubDataAt platform op context now = .ok stub ∧
        StandsIn stub issued op x
          (issued.terms.stubbed op (now + service.config.signatureTtlSec)) := by
  constructor
  · intro op context now
    exact stubDataAt_ok_iff
  · intro op context log issued now x ran dated read
    obtain ⟨r,rate,_,_,_,implementation,validUntil,_,_,checked,_,_,_,_,built⟩ := sign_runs ran
    have signed := sign_returns (runs_returns ran)
    obtain ⟨hash,signature,_,_,encodes⟩ := signed.signed
    obtain ⟨signature',hash',range,_,parsed,_⟩ := signed.parses read
    have stubRange : (service.stubFeeTerms platform op context.address now).InRange :=
      (stubFeeTerms_inRange_iff context.address).mpr dated
    rw [stubFeeTerms_signed checked built] at stubRange
    obtain ⟨data,encoded,parses⟩ :=
      packPaymasterAndData_parses service.config.paymaster range stubRange dummy_length
    obtain ⟨stub,returned⟩ := stubDataAt_ok_iff.mpr ⟨dated,fun unusable =>
      (checkRequest_refundTo checked).2 unusable.2⟩
    obtain ⟨paymaster,carried⟩ := stubDataAt_ok returned
    rw [stubPaymasterData_encodes,stubFeeTerms_signed checked built,encoded] at carried
    obtain rfl := Except.ok.inj carried
    rw [← paymaster] at parses
    refine ⟨stub,returned,?_,⟨_,parsed⟩,parses,?_⟩
    · rw [encodedLength encodes]
      exact encodedLength encoded
    · intro lib tryRecover d chain msgSender userOpHash validated v accepted
      exact validates_stubbed signed parsed parses accepted

/-- A quarter of an hour before the request of a registered master is signed. -/
theorem stub_stands_in_master : ∃ stub issued x,
    masterService.stubDataAt (samplePlatform [1]) (sampleOp 1 SIMPLE_7702_ACCOUNT) ⟨none⟩ 999100 =
      .ok stub ∧
    StandsIn stub issued (sampleOp 1 SIMPLE_7702_ACCOUNT) x
      (issued.terms.stubbed (sampleOp 1 SIMPLE_7702_ACCOUNT)
        (999100 + masterService.config.signatureTtlSec)) := by
  obtain ⟨_,issued,ran⟩ := master_signs
  have dated : Dated (999100 + masterService.config.signatureTtlSec) :=
    ⟨999400,by simp,by simp [masterService,sampleService]; norm_num⟩
  obtain ⟨x,read⟩ : ∃ x, readQuantities (sampleOp 1 SIMPLE_7702_ACCOUNT) = .ok x := ⟨_,rfl⟩
  obtain ⟨stub,shown,stands⟩ := (stub_stands_in masterService (samplePlatform [1])).2 _ _ _ issued
    999100 x ran dated read
  exact ⟨stub,issued,x,shown,stands⟩

end TornadoRelayer
