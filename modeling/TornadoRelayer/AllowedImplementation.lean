import TornadoRelayer.SignatureBinding
import TornadoRelayer.Scripts

/-! Which account code a sponsored operation can run: the implementation the service signs
is one the environment lists, and the contract accepts no other code than its designator,
as long as the implementation is not the zero address. -/
namespace TornadoRelayer

open BigEndian EventLoop Keccak RelayerService Paymaster

/-! ### What an issued signature has been through -/

variable {platform : Platform} {service : RelayerService} {op : RpcUserOperation}
  {answers : (query : Query) → Except Thrown query.Answer → Prop}

abbrev ServiceReturns (answers : (query : Query) → Except Thrown query.Answer → Prop) (p : Async α)
    (a : α) : Prop :=
  Program.Returns (I := serviceInterface) answers p (.ok a)

theorem returns_releasing {p : Async α} {k token : String} {wrap : Thrown → Thrown} {a : α}
    (returned : ServiceReturns answers (releasing k token wrap p) a) :
    ServiceReturns answers p a := by
  rcases returns_catching returned with first | ⟨e,handled⟩
  · exact first
  · obtain ⟨_,_,thrown⟩ := returns_bind handled
    exact absurd (returns_done thrown) (by simp)

/-- Where the signed implementation comes from. -/
def Names (answers : (query : Query) → Except Thrown query.Answer → Prop) (op : RpcUserOperation)
    (implementation : Address) : Prop :=
  senderImplementationFromOp op = some implementation ∨
    senderImplementationFromOp op = none ∧ ∃ code, answers (.getCode op.sender) (.ok code) ∧
      currentDelegation (code.getD []) = .ok implementation

theorem assertAllowed_ok {implementation resolved : Address} {source : String}
    (allowed : service.assertAllowed implementation source = .ok resolved) :
    resolved = implementation ∧ implementation ∈ service.config.allowedSenderImplementations := by
  rw [assertAllowed] at allowed
  split at allowed
  · next listed =>
    cases allowed
    exact ⟨rfl,listed⟩
  · contradiction

theorem resolveSenderImplementation_returns {implementation : Address}
    (returned : ServiceReturns answers (service.resolveSenderImplementation op) implementation) :
    implementation ∈ service.config.allowedSenderImplementations ∧
      Names answers op implementation := by
  rw [resolveSenderImplementation] at returned
  split at returned
  · next named found =>
    obtain ⟨rfl,listed⟩ := assertAllowed_ok (returns_done returned).symm
    exact ⟨listed,.inl found⟩
  · next unnamed =>
    obtain ⟨code,asked,rest⟩ := returns_bind returned
    obtain ⟨current,delegated,rest⟩ := returns_bind rest
    obtain ⟨rfl,listed⟩ := assertAllowed_ok (returns_done rest).symm
    exact ⟨listed,.inr ⟨unnamed,code,returns_ask asked,(returns_done delegated).symm⟩⟩

/-- How the service came to issue a signature. -/
structure SignedFor (platform : Platform) (service : RelayerService)
    (answers : (query : Query) → Except Thrown query.Answer → Prop) (op : RpcUserOperation)
    (s : Issued) : Prop where
  same : s.op = op
  paymaster : s.paymaster = service.config.paymaster
  listed : s.terms.senderImplementation ∈ service.config.allowedSenderImplementations
  names : Names answers op s.terms.senderImplementation
  signed : ∃ hash signature,
    paymasterHash platform.hashText op service.config.chainId service.config.paymaster s.terms =
      .ok hash ∧
    answers (.signMessage hash) (.ok signature) ∧
    encodePaymasterData s.terms signature = .ok s.paymasterData

theorem signedTerms_senderImplementation {r : CheckedRequest} {tokenPerEth : Int}
    {validUntil : JsNumber} {implementation : Address} {terms : FeeTerms}
    (built : service.signedTerms r tokenPerEth validUntil implementation = .ok terms) :
    terms.senderImplementation = implementation := by
  obtain ⟨_,_,returned⟩ := bind_ok_iff.mp built
  cases returned
  rfl

theorem checkReserved_returns {r : CheckedRequest} {now : JsNumber} {implementation : Address}
    (returned : ServiceReturns answers (service.checkReserved platform op r now) implementation) :
    ServiceReturns answers (service.resolveSenderImplementation op) implementation := by
  obtain ⟨resolved,first,rest⟩ := returns_bind returned
  obtain ⟨_,_,rest⟩ := returns_bind rest
  obtain ⟨_,_,rest⟩ := returns_bind rest
  obtain ⟨_,_,rest⟩ := returns_bind rest
  obtain ⟨_,_,rest⟩ := returns_bind rest
  cases returns_done rest
  exact first

theorem signReserved_returns {r : CheckedRequest} {tokenPerEth : Int} {now : JsNumber}
    {token : String} {s : Issued}
    (returned : ServiceReturns answers (service.signReserved platform op r tokenPerEth now token) s) :
    SignedFor platform service answers op s := by
  obtain ⟨implementation,checked,rest⟩ := returns_bind returned
  obtain ⟨listed,names⟩ :=
    resolveSenderImplementation_returns (checkReserved_returns (returns_releasing checked))
  obtain ⟨terms,built,rest⟩ := returns_bind rest
  obtain ⟨hash,hashed,rest⟩ := returns_bind rest
  obtain ⟨signature,signed,rest⟩ := returns_bind rest
  obtain ⟨_,_,rest⟩ := returns_bind rest
  obtain ⟨data,encoded,rest⟩ := returns_bind rest
  cases returns_done rest
  have same := signedTerms_senderImplementation (returns_done built).symm
  exact ⟨rfl,rfl,same ▸ listed,same ▸ names,hash,signature,(returns_done hashed).symm,
    returns_ask (returns_releasing signed),(returns_done encoded).symm⟩

theorem sign_returns {context : SponsorContext} {s : Issued}
    (returned : ServiceReturns answers (service.sign platform op context) s) :
    SignedFor platform service answers op s := by
  obtain ⟨r,_,rest⟩ := returns_bind returned
  obtain ⟨tokenPerEth,_,rest⟩ := returns_bind rest
  obtain ⟨_,_,rest⟩ := returns_bind rest
  obtain ⟨now,_,rest⟩ := returns_bind rest
  obtain ⟨_,_,rest⟩ := returns_bind rest
  obtain ⟨nonce,_,rest⟩ := returns_bind rest
  obtain ⟨reserved,_,rest⟩ := returns_bind rest
  cases reserved with
  | error held => exact absurd (returns_done rest) (by simp)
  | ok token => exact signReserved_returns rest

/-! ### What the contract accepts -/

/-- The operation as the client submits it with the data it got. -/
def RelayerService.Issued.submitted (s : Issued) (x : Quantities) : PackedUserOperation :=
  packUserOp s.op x (packPaymasterAndData s.paymaster x s.paymasterData)

/-- Validation of the submitted operation accepts, whatever `userOpHash` it is given. -/
def Accepts (lib : Eip7702Support) (tryRecover : Bytes32 → Bytes → Option Address) (d : Deployment)
    (chain : Chain) (userOp : PackedUserOperation) : Prop :=
  ∃ userOpHash context validationData,
    validationResult lib tryRecover d chain d.entryPoint userOp userOpHash =
      .ok (context,validationData) ∧ validationData.sigFailed = false

/-- The signed implementation is one the environment lists, and whatever code the sender has
when the operation is validated, it is accepted only if it delegates to that implementation. -/
structure OnlyAllowedCode (lib : Eip7702Support) (tryRecover : Bytes32 → Bytes → Option Address)
    (d : Deployment) (raw : Option String) (chainId : Int) (s : Issued) : Prop where
  listed : ∃ allowed, allowedSenderImplementationsFromEnv raw = .ok allowed ∧
    s.terms.senderImplementation ∈ allowed
  checked : ∀ (chain : Chain) (x : Quantities), readQuantities s.op = .ok x →
    (chain.chainid.toNat : Int) = chainId →
    CollisionFree [chain.code s.op.sender,designator s.terms.senderImplementation] →
    Accepts lib tryRecover d chain (s.submitted x) →
    chain.code s.op.sender = designator s.terms.senderImplementation

/-- What is assumed of the answers: the signer's key is the contract's, and no account
delegates to the zero address, which is what EIP-7702 clears a delegation with. -/
def Answered (tryRecover : Bytes32 → Bytes → Option Address) (d : Deployment) (query : Query)
    (r : Except Thrown query.Answer) : Prop :=
  match query, r with
  | .signMessage hash, .ok signature => signature.length = SIGNATURE_LENGTH ∧
      tryRecover (toEthSignedMessageHash hash) signature = some d.verifyingSigner
  | .getCode _, .ok code => code ≠ some (designator zeroAddress)
  | _, _ => True

variable {lib : Eip7702Support} {tryRecover : Bytes32 → Bytes → Option Address} {d : Deployment}
  {s : Issued}

theorem currentDelegation_ok {code : Bytes} {implementation : Address}
    (delegated : currentDelegation code = .ok implementation) : code = designator implementation := by
  rw [currentDelegation] at delegated
  split at delegated
  · next shape =>
    cases delegated
    have tail : (Word.ofBytes 20 (code.drop 3)).bytes = code.drop 3 :=
      Word.bytes_ofBytes (by simp [shape.2])
    rw [designator,tail,← shape.1,List.take_append_drop]
  · split at delegated <;> contradiction

/-- The code that only the bytes of its designator hash to. -/
theorem delegatedTo_code {chain : Chain} {account implementation : Address}
    (free : CollisionFree [chain.code account,designator implementation])
    (delegated : delegatedTo chain account implementation = true) :
    chain.code account = designator implementation := by
  rw [delegatedTo,Bool.and_eq_true,beq_iff_eq,beq_iff_eq] at delegated
  exact free _ (by simp) _ (by simp) delegated.2

/-- The zero address is signed only when the request names it. -/
theorem SignedFor.zero (signed : SignedFor platform service (Answered tryRecover d) op s)
    (zero : s.terms.senderImplementation = zeroAddress) :
    senderImplementationFromOp op = some zeroAddress := by
  rcases signed.names with named | ⟨_,code,answered,delegated⟩
  · rw [named,zero]
  · have answered : code ≠ some (designator zeroAddress) := answered
    rw [zero] at delegated
    have current := currentDelegation_ok delegated
    cases code with
    | none =>
      have empty := congrArg List.length current
      simp [designator] at empty
    | some code =>
      rw [Option.getD_some] at current
      exact absurd (congrArg some current) answered

/-- The data an issued signature comes with holds its terms and the signature. -/
theorem SignedFor.parses (signed : SignedFor platform service answers op s) {x : Quantities}
    (read : readQuantities op = .ok x) : ∃ signature hash,
      x.InRange ∧ s.terms.InRange ∧
      parsePaymasterAndData (s.submitted x).paymasterAndData =
        .ok (Terms.ofFeeTerms s.terms,signature) ∧
      paymasterHash platform.hashText op service.config.chainId service.config.paymaster s.terms =
        .ok hash ∧
      answers (.signMessage hash) (.ok signature) := by
  obtain ⟨hash,signature,hashed,answered,encoded⟩ := signed.signed
  obtain ⟨x',read',range,termsRange,_⟩ := paymasterHash_ok_range _ hashed
  cases read.symm.trans read'
  obtain ⟨data,encoded',parsed⟩ := packPaymasterAndData_parses s.paymaster range termsRange
    (encodePaymasterData_signature encoded)
  cases encoded.symm.trans encoded'
  exact ⟨signature,hash,range,termsRange,parsed,hashed,answered⟩

/-- With another implementation than the zero address the contract checks the code. -/
theorem SignedFor.checked (signed : SignedFor platform service (Answered tryRecover d) op s)
    (bound : s.terms.senderImplementation ≠ zeroAddress) {chain : Chain} {x : Quantities}
    (read : readQuantities s.op = .ok x)
    (free : CollisionFree [chain.code s.op.sender,designator s.terms.senderImplementation])
    (accepts : Accepts lib tryRecover d chain (s.submitted x)) :
    chain.code s.op.sender = designator s.terms.senderImplementation := by
  rw [signed.same] at read
  obtain ⟨signature,hash,_,_,parsed,_⟩ := signed.parses read
  obtain ⟨userOpHash,context,validationData,validated,_⟩ := accepts
  obtain ⟨_,t,sig,_,parsed',delegated,_⟩ := (validationResult_ok_iff lib).mp validated
  cases parsed.symm.trans parsed'
  exact delegatedTo_code free (delegated bound)

/-- A chain where no account has code. -/
def codelessChain (chainid : Word 32) : Chain where
  chainid
  code _ := []
  noZeroDelegate _ := by simp [designator]

/-- With the zero address it accepts the operation from an account without code. -/
theorem SignedFor.unchecked (lib : Eip7702Support)
    (signed : SignedFor platform service (Answered tryRecover d) op s)
    (deployed : service.config.paymaster = d.self) (submittable : Submittable op)
    (zero : s.terms.senderImplementation = zeroAddress) :
    ∃ (chain : Chain) (x : Quantities), readQuantities s.op = .ok x ∧
      (chain.chainid.toNat : Int) = service.config.chainId ∧ chain.code s.op.sender = [] ∧
      Accepts lib tryRecover d chain (s.submitted x) := by
  obtain ⟨hash,signature,hashed,_⟩ := signed.signed
  obtain ⟨x,read,range,termsRange,positive,fits,initHash,init⟩ := paymasterHash_ok_range _ hashed
  obtain ⟨signature,hash,_,_,parsed,hashed,_,recovered⟩ := signed.parses read
  -- The relayer does not hash a marked initCode for the zero address.
  have plain : ¬MarkedInitCode (initCodeBytes op) := by
    intro marked
    rw [initCodeHash_bytes _ submittable] at init
    simp [delegatedHash,(isEip7702InitCode_iff _).mpr marked,zero] at init
  let chain := codelessChain (BitVec.ofNat 256 service.config.chainId.toNat)
  have chainid : chain.chainid.toNat = service.config.chainId.toNat := by
    change (BitVec.ofNat 256 service.config.chainId.toNat).toNat = _
    rw [BitVec.toNat_ofNat,Nat.mod_eq_of_lt ((Int.toNat_lt positive).mpr (by exact_mod_cast fits))]
  obtain ⟨normal,form,initCode⟩ : ∃ normal,
      normalInitCode chain op.sender (initCodeBytes op) = some normal ∧
      initCodeHash platform.hashText op s.terms.senderImplementation = .ok (keccak256 normal) :=
    initCodeHash_eq _ submittable fun marked => absurd marked plain
  have relayed := paymasterHash_inRange _ read range chain.chainid.isLt service.config.paymaster
    (Terms.ofFeeTerms s.terms) initCode
  rw [Terms.toFeeTerms_ofFeeTerms termsRange,chainid,Int.toNat_of_nonneg positive,hashed] at relayed
  have computed : getHash lib chain d.self (s.submitted x) (Terms.ofFeeTerms s.terms) = .ok hash := by
    rw [Issued.submitted,signed.same,signed.paymaster,← deployed,
      getHash_packed lib range s.paymasterData _ form fun marked => absurd marked plain,chainid]
    exact congrArg Except.ok (Except.ok.inj relayed).symm
  have unbound : (Terms.ofFeeTerms s.terms).senderImplementation = 0 := zero
  refine ⟨chain,x,signed.same ▸ read,?_,rfl,0,_,_,(validationResult_ok_iff lib).mpr
    ⟨rfl,_,_,_,parsed,fun bound => absurd unbound bound,computed,rfl⟩,?_⟩
  · rw [chainid,Int.toNat_of_nonneg positive]
  · simp [recovered]

theorem SignedFor.not_only {raw : Option String}
    (signed : SignedFor platform service (Answered tryRecover d) op s)
    (deployed : service.config.paymaster = d.self) (submittable : Submittable op)
    (named : senderImplementationFromOp op = some zeroAddress) :
    ¬OnlyAllowedCode lib tryRecover d raw service.config.chainId s := by
  intro only
  have zero : s.terms.senderImplementation = zeroAddress := by
    rcases signed.names with found | ⟨none,_⟩
    · exact Option.some.inj (found.symm.trans named)
    · exact absurd (none.symm.trans named) (by simp)
  obtain ⟨chain,x,read,chainid,codeless,accepts⟩ := signed.unchecked lib deployed submittable zero
  have free : CollisionFree [chain.code s.op.sender,designator s.terms.senderImplementation] := by
    rw [codeless,zero]
    decide +kernel
  have code := only.checked chain x read chainid free accepts
  rw [codeless] at code
  have empty := congrArg List.length code
  simp [designator] at empty

/-- Every issued signature binds the operation to listed code, when the request does not name
the zero address; otherwise none does that is for an operation of whole bytes. -/
theorem only_allowed_code_iff {raw : Option String}
    (configured : allowedSenderImplementationsFromEnv raw =
      .ok service.config.allowedSenderImplementations)
    (deployed : service.config.paymaster = d.self) {context : SponsorContext}
    (issued : ServiceReturns (Answered tryRecover d) (service.sign platform op context) s) :
    (senderImplementationFromOp op ≠ some zeroAddress →
      OnlyAllowedCode lib tryRecover d raw service.config.chainId s) ∧
    (Submittable op → OnlyAllowedCode lib tryRecover d raw service.config.chainId s →
      senderImplementationFromOp op ≠ some zeroAddress) := by
  have signed := sign_returns issued
  constructor
  · intro unnamed
    have bound : s.terms.senderImplementation ≠ zeroAddress :=
      fun zero => unnamed (signed.zero zero)
    exact ⟨⟨_,configured,signed.listed⟩,
      fun _ _ read _ free accepts => signed.checked bound read free accepts⟩
  · intro submittable only named
    exact signed.not_only deployed submittable named only

/-! ### Two configurations -/

def sampleDeployment : Deployment where
  self := samplePaymaster
  entryPoint := 0x4337
  owner := 0xa1
  verifyingSigner := 0xa1
  gasMarginBps := 1000
  postOpGasOverhead := 45000
  router := 0

/-- A store with nothing in it. -/
def sampleResults : (op : Op) → op.Result
  | .dateNow => 1000000000
  | .get _ => some ⟨⟨1000300,sampleAccount,0,none⟩,.pending,.string "1000000000-1"⟩
  | .reserve _ _ => .ok "1000000000-1"
  | .signedEntries => .empty
  | .outstanding _ => []
  | .writeFileSync _ | .renameSync => .ok ()
  | .prune _ | .release _ _ | .set _ _ => ()

theorem sampleAnswers_answered (query : Query) :
    Answered (fun _ _ => some 0xa1) sampleDeployment query (sampleAnswers (10 ^ 15) query) := by
  cases query with
  | signMessage hash => exact ⟨by decide,rfl⟩
  | getCode account =>
    change some (delegationCode SIMPLE_7702_ACCOUNT) ≠ some (designator zeroAddress)
    decide
  | _ => trivial

/-- What the service issues for an operation that names this implementation. -/
def sampleIssued (implementation : Address) : Except Thrown Issued :=
  ((sampleService .memory [implementation]).sign (samplePlatform [1]) (sampleOp 1 implementation)
    ⟨none⟩).eval (I := serviceInterface) (sampleAnswers (10 ^ 15)) sampleResults

theorem sampleIssued_returns {implementation : Address} {s : Issued}
    (issued : sampleIssued implementation = .ok s) :
    ServiceReturns (Answered (fun _ _ => some 0xa1) sampleDeployment)
      ((sampleService .memory [implementation]).sign (samplePlatform [1])
        (sampleOp 1 implementation) ⟨none⟩) s := by
  rw [sampleIssued] at issued
  rw [ServiceReturns,← issued]
  exact returns_eval (I := serviceInterface) sampleAnswers_answered sampleResults _

theorem only_allowed_code_default : ∃ s, sampleIssued SIMPLE_7702_ACCOUNT = .ok s ∧
    OnlyAllowedCode Eip7702Support.standard (fun _ _ => some 0xa1) sampleDeployment none 1 s := by
  have signs : (sampleIssued SIMPLE_7702_ACCOUNT).toBool = true := by decide +kernel
  obtain ⟨s,issued⟩ := ok_of_toBool signs
  exact ⟨s,issued,(only_allowed_code_iff rfl rfl (sampleIssued_returns issued)).1 (by decide)⟩

/-- `ALLOWED_SENDER_IMPLEMENTATIONS` may list the zero address, and a request that names it
is signed for any account code. -/
theorem zero_address_runs_any_code :
    ¬∀ (raw : Option String) (service : RelayerService) (op : RpcUserOperation)
      (context : SponsorContext) (s : Issued),
      allowedSenderImplementationsFromEnv raw = .ok service.config.allowedSenderImplementations →
      service.config.paymaster = sampleDeployment.self →
      ServiceReturns (Answered (fun _ _ => some 0xa1) sampleDeployment)
        (service.sign (samplePlatform [1]) op context) s →
      OnlyAllowedCode Eip7702Support.standard (fun _ _ => some 0xa1) sampleDeployment raw
        service.config.chainId s := by
  intro claim
  have configured : allowedSenderImplementationsFromEnv
      (some "0x0000000000000000000000000000000000000000") = .ok [zeroAddress] := by
    decide +kernel
  have signs : (sampleIssued zeroAddress).toBool = true := by decide +kernel
  obtain ⟨s,issued⟩ := ok_of_toBool signs
  have returned := sampleIssued_returns issued
  exact (sign_returns returned).not_only rfl (by decide) (by decide)
    (claim _ (sampleService .memory [zeroAddress]) _ _ s configured rfl returned)

end TornadoRelayer
