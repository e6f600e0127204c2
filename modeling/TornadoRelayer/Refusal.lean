import TornadoRelayer.OwnReservation

/-! What a refused request has done: it has released what it reserved, as long as what it would
have been signed with can be hashed and encoded. -/
namespace TornadoRelayer

open BigEndian EventLoop JavaScript RelayerService Paymaster

variable {platform : Platform} {service : RelayerService} {op : RpcUserOperation}
  {context : SponsorContext} {log : ServiceLog} {k token : String}

/-! ### What can be signed -/

/-- An initCode the relayer can hash: a text, of which the library can hash what is not whole
bytes; and a marker for the account's implementation comes with one. -/
def Hashable (hashText : TextHash) (implementation : Address) : HexField → Prop
  | .bytes initCode => isEip7702InitCode initCode = true → implementation ≠ zeroAddress
  | .text initCode =>
    if isEip7702Text initCode then
      implementation ≠ zeroAddress ∧ ∀ chars,
        concatHex (.bytes implementation.bytes) (.ofText ('0' :: 'x' :: initCode.drop 42)) =
          .ok (.text chars) → ∃ hash, hashText chars = .ok hash
    else ∃ hash, hashText initCode = .ok hash
  | .null | .other _ => False

/-- The terms and the operation fit what they are hashed and packed into. -/
structure Encodable (platform : Platform) (service : RelayerService) (op : RpcUserOperation) (info : InstanceInfo)
    (rate : Int) (validUntil : JsNumber) (implementation : Address) : Prop where
  quantities : ∀ x, readQuantities op = .ok x → x.InRange
  chainId : 0 ≤ service.config.chainId ∧ service.config.chainId < 2 ^ 256
  validUntil : ∃ n : Nat, n < 2 ^ 48 ∧ validUntil = n
  serviceFee : 0 ≤ serviceFeeFor info.denomination service.config.serviceFeeBps ∧
    serviceFeeFor info.denomination service.config.serviceFeeBps < 2 ^ 256
  rate : 0 ≤ rate ∧ rate < 2 ^ 256
  initCode : ∃ initCode, packInitCode op = .ok initCode ∧
    Hashable platform.hashText implementation initCode

variable {r : CheckedRequest} {rate : Int} {validUntil : JsNumber} {implementation : Address}

theorem signedTerms_ok (service : RelayerService) (r : CheckedRequest) (rate : Int)
    (validUntil : JsNumber) (implementation : Address) :
    ∃ terms, service.signedTerms r rate validUntil implementation = .ok terms :=
  ⟨_,bind_ok_iff.mpr ⟨_,withdrawalHash_agrees _,rfl⟩⟩

theorem signedTerms_inRange_iff {terms : FeeTerms}
    (built : service.signedTerms r rate validUntil implementation = .ok terms) :
    terms.InRange ↔ (∃ n : Nat, n < 2 ^ 48 ∧ validUntil = n) ∧
      (0 ≤ serviceFeeFor r.info.denomination service.config.serviceFeeBps ∧
        serviceFeeFor r.info.denomination service.config.serviceFeeBps < 2 ^ 256) ∧
      (0 ≤ rate ∧ rate < 2 ^ 256) := by
  obtain ⟨approved,_,returned⟩ := bind_ok_iff.mp built
  obtain rfl := Except.ok.inj returned
  have fee : (0 : Int) ≤ r.w.fee.toNat ∧ (r.w.fee.toNat : Int) < 2 ^ 256 :=
    ⟨Int.natCast_nonneg _,by exact_mod_cast r.w.fee.isLt⟩
  constructor
  · exact fun range => ⟨range.validUntil,range.serviceFee,range.tokenPerEth⟩
  · rintro ⟨until_,serviceFee,rate⟩
    exact ⟨until_,⟨0,by decide,rfl⟩,fee,serviceFee,rate⟩

theorem ofText_text (text : List Char) : (∃ data, HexField.ofText text = .bytes data) ∨
    ∃ chars, HexField.ofText text = .text chars := by
  unfold HexField.ofText
  split
  · split
    · exact .inl ⟨_,rfl⟩
    · exact .inr ⟨_,rfl⟩
  · exact .inr ⟨_,rfl⟩

/-- Bytes before a text are bytes again, or a text. -/
theorem concatHex_text (head : Bytes) (text : List Char) :
    (∃ data, concatHex (.bytes head) (.ofText text) = .ok (.bytes data)) ∨
      ∃ chars, concatHex (.bytes head) (.ofText text) = .ok (.text chars) := by
  rcases ofText_text text with ⟨tail,same⟩ | ⟨tail,same⟩
  · exact .inl ⟨head ++ tail,by rw [same,concatHex]⟩
  · have joined : concatHex (.bytes head) (.text tail) =
        .ok (.ofText ('0' :: 'x' :: hexDigits head ++ withoutPrefix tail)) := rfl
    rw [same,joined]
    simpa using ofText_text ('0' :: 'x' :: hexDigits head ++ withoutPrefix tail)

theorem initCodeHash_ok_iff {hashText : TextHash} :
    (∃ hash, initCodeHash hashText op implementation = .ok hash) ↔
      ∃ initCode, packInitCode op = .ok initCode ∧ Hashable hashText implementation initCode := by
  rw [initCodeHash]
  cases packInitCode op with
  | error thrown => simp [bind,Except.bind]
  | ok packed =>
    simp only [bind,Except.bind,Except.ok.injEq,exists_eq_left']
    cases packed with
    | bytes initCode =>
      by_cases marked : isEip7702InitCode initCode = true
      · by_cases zero : implementation = zeroAddress
        · simp [delegatedHash,Hashable,marked,zero]
        · simp [delegatedHash,Hashable,marked,zero,concatHex,keccakHex,bind,Except.bind]
      · simp [delegatedHash,Hashable,marked,keccakHex]
    | text initCode =>
      by_cases marked : isEip7702Text initCode = true
      · by_cases zero : implementation = zeroAddress
        · simp [delegatedHash,Hashable,marked,zero]
        · rcases concatHex_text implementation.bytes ('0' :: 'x' :: initCode.drop 42) with
            ⟨data,same⟩ | ⟨chars,same⟩
          · simp [delegatedHash,Hashable,marked,zero,same,keccakHex,bind,Except.bind]
          · simp [delegatedHash,Hashable,marked,zero,same,keccakHex,bind,Except.bind]
      · simp [delegatedHash,Hashable,marked,keccakHex]
    | null => simp [Hashable]
    | other truthy => simp [Hashable]

/-- There is a hash exactly for what is encodable. -/
theorem paymasterHash_ok_iff (checked : CheckedFrom platform service op r) {nonce : Nat}
    (numbered : q op.nonce "nonce" = .ok nonce) {terms : FeeTerms}
    (built : service.signedTerms r rate validUntil implementation = .ok terms) :
    (∃ hash, paymasterHash platform.hashText op service.config.chainId service.config.paymaster terms =
        .ok hash) ↔
      Encodable platform service op r.info rate validUntil implementation := by
  have named := signedTerms_senderImplementation built
  constructor
  · rintro ⟨hash,hashed⟩
    obtain ⟨x,read,range,termsRange,lower,upper,initHash,init⟩ := paymasterHash_ok_range _ hashed
    obtain ⟨until_,serviceFee,rate⟩ := (signedTerms_inRange_iff built).mp termsRange
    refine ⟨fun x' read' => ?_,⟨lower,upper⟩,until_,serviceFee,rate,?_⟩
    · cases read.symm.trans read'
      exact range
    · rw [named] at init
      exact initCodeHash_ok_iff.mp ⟨initHash,init⟩
  · rintro ⟨quantities,chainId,until_,serviceFee,rate,initCode⟩
    obtain ⟨priority,tip,_⟩ := checked.priority
    have read : readQuantities op = .ok ⟨r.gas,nonce,priority,r.maxFeePerGas⟩ :=
      readQuantities_ok_iff.mpr ⟨checked.gas,tip,checked.maxFeePerGas,numbered⟩
    have termsRange := (signedTerms_inRange_iff built).mpr ⟨until_,serviceFee,rate⟩
    obtain ⟨initHash,init⟩ := initCodeHash_ok_iff.mpr initCode
    rw [← named] at init
    obtain ⟨chain,same⟩ := Int.eq_ofNat_of_zero_le chainId.1
    have fits : chain < 2 ^ 256 := by
      have upper := chainId.2
      rw [same] at upper
      exact_mod_cast upper
    have hashed := paymasterHash_inRange _ read (quantities _ read) fits service.config.paymaster
      (Terms.ofFeeTerms terms) init
    rw [Terms.toFeeTerms_ofFeeTerms termsRange] at hashed
    exact ⟨_,same ▸ hashed⟩

theorem encodePaymasterData_ok {terms : FeeTerms} (range : terms.InRange) {signature : Bytes}
    (length : signature.length = SIGNATURE_LENGTH) :
    ∃ data, encodePaymasterData terms signature = .ok data := by
  have encoded := encodePaymasterData_terms (Terms.ofFeeTerms terms) length
  rw [Terms.toFeeTerms_ofFeeTerms range] at encoded
  exact ⟨_,encoded⟩

/-! ### What a refusal has done -/

/-- Neither reserves nor records. -/
def Idling (e : Logged serviceInterface) : Prop :=
  reservation e = none ∧ ∀ k next, e ≠ .performed (Op.set k next) ()

def Idle (log : ServiceLog) : Prop := ∀ e ∈ log, Idling e

theorem Idle.unreserved (idle : Idle log) (k token : String) : ¬Reserves log k token := by
  intro reserves
  obtain ⟨e,member,same⟩ := List.mem_filterMap.mp reserves
  rw [(idle e member).1] at same
  cases same

theorem Idle.unrecorded (idle : Idle log) : ¬Records log := by
  rintro ⟨k,next,member⟩
  exact (idle _ member).2 k next rfl

theorem Idle.append {log' : ServiceLog} (first : Idle log) (second : Idle log') :
    Idle (log ++ log') := List.forall_mem_append.mpr ⟨first,second⟩

theorem silent_idles {p : Async α} (quiet : p.Quiet Op.Silent) : p.Logs Idling := by
  intro log out ran e member
  cases e with
  | answered query r => exact ⟨rfl,by simp⟩
  | performed op result =>
    have calm := logs_quiet quiet log out ran _ member op result rfl
    cases op with
    | reserve => exact calm.elim
    | set => exact calm.elim
    | _ => exact ⟨rfl,by simp⟩

theorem persistSigned_idles (store : StoreKind) (k : String) (next : SponsoredNote) :
    (persistSigned store k next).Logs Idling := by
  cases store with
  | memory => exact logs_done _
  | file path =>
    exact logs_bind (logs_act fun _ => ⟨rfl,by simp⟩) fun _ =>
      logs_bind (logs_act fun _ => ⟨rfl,by simp⟩) fun _ => logs_bind (logs_done _) fun _ =>
      logs_bind (logs_act fun _ => ⟨rfl,by simp⟩) fun _ => logs_done _

/-- A commit that fails has recorded nothing. -/
theorem commit_failed {store : StoreKind} {thrown : Thrown}
    (ran : ServiceRuns (commit store k token) log (.error thrown)) : Idle log := by
  rcases runs_bind ran with ⟨held,first,rest,got,went,rfl⟩ | ⟨_,got,_⟩
  · obtain ⟨_,same,rfl⟩ := runs_act got
    cases same
    have read : Idle [.performed (Op.get k) held] := by simp [Idle,Idling,reservation]
    have refused {e : Thrown} {rest : ServiceLog}
        (ran : ServiceRuns (throw e : Async Unit) rest (.error thrown)) :
        Idle ([.performed (Op.get k) held] ++ rest) := by
      obtain ⟨rfl,_⟩ := runs_done ran
      exact read.append (by simp [Idle])
    cases held with
    | none => exact refused went
    | some held =>
      by_cases own : held.heldBy token = true
      · simp only [own,if_true] at went
        rcases runs_bind went with ⟨_,_,_,_,marking,_⟩ | ⟨_,persisting,_⟩
        · obtain ⟨_,same,_⟩ := runs_act marking
          cases same
        · exact read.append (persistSigned_idles store k _ _ _ persisting)
      · simp only [own] at went
        exact refused went
  · obtain ⟨_,same,_⟩ := runs_act got
    cases same

theorem commit_recorded {store : StoreKind}
    (ran : ServiceRuns (commit store k token) log (.ok ())) : Records log := by
  obtain ⟨held,_,_,_,went,rfl⟩ := runs_bind_ok ran
  have refused {e : Thrown} {rest : ServiceLog} : ¬ServiceRuns (throw e : Async Unit) rest (.ok ()) := by
    intro ran
    cases (runs_done ran).2
  cases held with
  | none => exact (refused went).elim
  | some held =>
    by_cases own : held.heldBy token = true
    · simp only [own,if_true] at went
      obtain ⟨_,_,_,_,marking,rfl⟩ := runs_bind_ok went
      obtain ⟨result,_,rfl⟩ := runs_act marking
      cases result
      exact ⟨k,_,List.mem_append_right _ (List.mem_append_right _ (List.mem_singleton_self _))⟩
    · simp only [own] at went
      exact (refused went).elim

/-- Once a note is reserved: what passes every check can be hashed and encoded, and what is
recorded was signed in 65 bytes. -/
structure SignableAt (platform : Platform) (service : RelayerService) (op : RpcUserOperation)
    (r : CheckedRequest) (rate : Int) (validUntil : JsNumber) (log : ServiceLog) : Prop where
  encodable : ∀ implementation simulated override res result,
    Names (fun query answer => .answered query answer ∈ log) op implementation →
    .answered (Query.estimateUserOperationGas simulated service.config.entryPoint override)
      (.ok res) ∈ log →
    Answers res result → checkEstimate platform op result = .ok () →
    Encodable platform service op r.info rate validUntil implementation
  signature : ∀ hash signature, .answered (Query.signMessage hash) (.ok signature) ∈ log →
    Records log → signature.length = SIGNATURE_LENGTH

theorem SignableAt.mono {later : ServiceLog}
    (signable : SignableAt platform service op r rate validUntil later) (sub : log ⊆ later) :
    SignableAt platform service op r rate validUntil log := by
  have names {implementation : Address}
      (named : Names (fun query answer => .answered query answer ∈ log) op implementation) :
      Names (fun query answer => .answered query answer ∈ later) op implementation := by
    refine named.imp_right ?_
    rintro ⟨unnamed,code,read,current⟩
    exact ⟨unnamed,code,sub read,current⟩
  refine ⟨?_,?_⟩
  · intro implementation simulated override res result named asked
    exact signable.encodable implementation simulated override res result (names named) (sub asked)
  · rintro hash signature asked ⟨k,next,recorded⟩
    exact signable.signature hash signature (sub asked) ⟨k,next,sub recorded⟩

theorem checkReserved_passed {now : JsNumber}
    (ran : ServiceRuns (service.checkReserved platform op r now) log (.ok implementation)) :
    Names (fun query answer => .answered query answer ∈ log) op implementation ∧
      Estimated platform service op log := by
  refine ⟨(resolveSenderImplementation_returns (checkReserved_returns (runs_returns ran))).2,?_⟩
  obtain ⟨_,_,_,_,_,rfl,_,_,_,_,simulated,override,res,result,asked,passed⟩ := checkReserved_parts ran
  exact ⟨simulated,override,res,result,by simp [asked],passed⟩

/-- The log gives the reservation back, and records nothing. -/
structure Frees (log : ServiceLog) (k token : String) : Prop where
  released : Releases log k token
  unrecorded : ¬Records log

theorem Frees.prepend {first : ServiceLog} (unrecorded : ¬Records first) (frees : Frees log k token) :
    Frees (first ++ log) k token := by
  refine ⟨List.mem_append_right _ frees.released,?_⟩
  rintro ⟨k,next,member⟩
  rcases List.mem_append.mp member with early | late
  · exact unrecorded ⟨k,next,early⟩
  · exact frees.unrecorded ⟨k,next,late⟩

/-- A releasing program that fails has released, having recorded nothing before. -/
theorem releasing_frees {p : Async α} {wrap : Thrown → Thrown} {thrown : Thrown}
    (unrecorded : ∀ first e, ServiceRuns p first (.error e) → ¬Records first)
    (ran : ServiceRuns (releasing k token wrap p) log (.error thrown)) : Frees log k token := by
  rcases runs_catching ran with ⟨a,same,_⟩ | ⟨e,first,rest,failed,handled,rfl⟩
  · cases same
  refine .prepend (unrecorded first e failed) ?_
  rcases runs_bind handled with ⟨_,_,_,did,thrown,rfl⟩ | ⟨_,did,_⟩
  · obtain ⟨_,_,rfl⟩ := runs_act did
    obtain ⟨rfl,_⟩ := runs_done thrown
    refine ⟨List.mem_singleton_self _,?_⟩
    rintro ⟨k,next,member⟩
    cases List.mem_singleton.mp member
  · obtain ⟨_,same,_⟩ := runs_act did
    cases same

/-- A request that fails after its reservation has released it, and recorded nothing. -/
theorem signReserved_failed {now : JsNumber} {nonce : Nat} {thrown : Thrown}
    (checked : CheckedFrom platform service op r) (numbered : q op.nonce "nonce" = .ok nonce)
    (signable : SignableAt platform service op r rate (now + service.config.signatureTtlSec) log)
    (ran : ServiceRuns (service.signReserved platform op r rate now token) log (.error thrown)) :
    Frees log r.key token := by
  rcases runs_bind ran with ⟨implementation,checks,_,passes,building,rfl⟩ | ⟨_,failed,_⟩
  swap
  · refine releasing_frees (fun _ _ refused => ?_) failed
    exact Idle.unrecorded (silent_idles (checkReserved_quiet ..) _ _ refused)
  have passes := runs_releasing passes
  obtain ⟨named,simulated,override,res,result,asked,answered,fits⟩ := checkReserved_passed passes
  have encodable := (signable.mono (List.subset_append_left ..)).encodable _ _ _ _ _ named asked
    answered fits
  refine .prepend (Idle.unrecorded (silent_idles (checkReserved_quiet ..) _ _ passes)) ?_
  have signature := (signable.mono (List.subset_append_right ..)).signature
  rcases runs_bind building with ⟨terms,_,_,builds,hashing,rfl⟩ | ⟨_,failed,_⟩
  swap
  · obtain ⟨terms,built⟩ := signedTerms_ok service r rate (now + service.config.signatureTtlSec)
      implementation
    exact absurd (built.symm.trans (runs_done failed).2.symm) (by simp)
  obtain ⟨rfl,built⟩ := runs_done builds
  rcases runs_bind hashing with ⟨hash,_,_,hashes,signing,rfl⟩ | ⟨_,failed,_⟩
  swap
  · obtain ⟨hash,hashed⟩ := (paymasterHash_ok_iff checked numbered built.symm).mpr encodable
    exact absurd (hashed.symm.trans (runs_done failed).2.symm) (by simp)
  obtain ⟨rfl,hashed⟩ := runs_done hashes
  simp only [List.nil_append] at signature ⊢
  rcases runs_bind signing with ⟨bytes,_,_,signs,committing,rfl⟩ | ⟨_,failed,_⟩
  swap
  · refine releasing_frees (fun _ _ refused => ?_) failed
    exact Idle.unrecorded (silent_idles (quiet_ask _) _ _ refused)
  have signs := runs_releasing signs
  refine .prepend (Idle.unrecorded (silent_idles (quiet_ask _) _ _ signs)) ?_
  rcases runs_bind committing with ⟨_,_,_,commits,encoding,rfl⟩ | ⟨_,failed,_⟩
  swap
  · exact releasing_frees (fun _ _ refused => (commit_failed refused).unrecorded) failed
  obtain ⟨k,next,recorded⟩ := commit_recorded (runs_releasing commits)
  -- The signature that was recorded has its length, so that the data can be encoded.
  have length : bytes.length = SIGNATURE_LENGTH := by
    refine signature hash bytes ?_ ⟨k,next,?_⟩
    · rw [runs_ask signs]
      simp
    · simp [recorded]
  obtain ⟨data,encoded⟩ := encodePaymasterData_ok
    ((signedTerms_inRange_iff built.symm).mpr ⟨encodable.validUntil,encodable.serviceFee,
      encodable.rate⟩) length
  rcases runs_bind encoding with ⟨_,_,_,_,returns,_⟩ | ⟨_,failed,_⟩
  · cases (runs_done returns).2
  · exact absurd (encoded.symm.trans (runs_done failed).2.symm) (by simp)

theorem signReserved_unreserved {now : JsNumber} :
    (service.signReserved platform op r rate now token).Logs fun e => reservation e = none := by
  have idles {α : Type} {p : Async α} (each : p.Logs Idling) : p.Logs fun e => reservation e = none :=
    fun log out ran e member => (each log out ran e member).1
  have releasing {α : Type} {p : Async α} {wrap : Thrown → Thrown}
      (each : p.Logs fun e => reservation e = none) :
      (releasing r.key token wrap p).Logs fun e => reservation e = none :=
    logs_catching each fun _ => logs_bind (logs_act fun _ => rfl) fun _ => logs_done _
  have commits (store : StoreKind) : (commit store r.key token).Logs fun e => reservation e = none := by
    refine logs_bind (logs_act fun _ => rfl) fun held => ?_
    cases held with
    | none => exact logs_done _
    | some held =>
      by_cases own : held.heldBy token = true
      · simp only [own,if_true]
        exact logs_bind (idles (persistSigned_idles store _ _)) fun _ => logs_act fun _ => rfl
      · simp only [own]
        exact logs_done _
  exact logs_bind (releasing (idles (silent_idles (checkReserved_quiet ..)))) fun _ =>
    logs_bind (logs_done _) fun _ => logs_bind (logs_done _) fun _ =>
    logs_bind (releasing (idles (silent_idles (quiet_ask _)))) fun _ =>
    logs_bind (releasing (commits _)) fun _ => logs_bind (logs_done _) fun _ => logs_done _

/-- Whatever this request reserves, it can sign once its checks pass. -/
def Signable (platform : Platform) (service : RelayerService) (op : RpcUserOperation)
    (context : SponsorContext) (log : ServiceLog) : Prop :=
  ∀ r rate claim token, service.checkRequest platform op context = .ok r →
    ((r.info.token = zeroAddress ∧ rate = 0) ∨
      .answered (Query.tokenPerEth r.info.token r.info.decimals) (.ok rate) ∈ log) →
    .performed (Op.reserve r.key claim) (.ok token) ∈ log →
    SignableAt platform service op r rate claim.validUntil log

/-- What idles has nothing reserved, so that a refused run that has is one of the rest. -/
theorem runs_past {p : Async α} {f : α → Async β} {thrown : Thrown} (idles : p.Logs Idling)
    (ran : ServiceRuns (p >>= f) log (.error thrown)) (reserves : Reserves log k token) :
    ∃ a first rest, ServiceRuns p first (.ok a) ∧ ServiceRuns (f a) rest (.error thrown) ∧
      Idle first ∧ Reserves rest k token ∧ log = first ++ rest := by
  rcases runs_bind ran with ⟨a,first,rest,went,later,rfl⟩ | ⟨_,failed,_⟩
  · have idle : Idle first := idles _ _ went
    rw [Reserves,List.filterMap_append,List.mem_append] at reserves
    exact ⟨a,first,rest,went,later,idle,reserves.resolve_left (idle.unreserved k token),rfl⟩
  · exact (Idle.unreserved (idles _ _ failed) k token reserves).elim

/-- A request that is refused gives back what it has reserved. -/
theorem sign_refused {thrown : Thrown} (signable : Signable platform service op context log)
    (ran : ServiceRuns (service.sign platform op context) log (.error thrown))
    (reserves : Reserves log k token) : Frees log k token := by
  obtain ⟨r,_,_,checking,pricing,_,later₁,rfl⟩ := runs_past (logs_done _) ran reserves
  obtain ⟨rate,_,_,prices,weighing,priced,later₂,rfl⟩ :=
    runs_past (silent_idles (rateFor_quiet _)) pricing later₁
  obtain ⟨_,_,_,weighs,timing,_,later₃,rfl⟩ := runs_past (logs_done _) weighing later₂
  obtain ⟨now,_,_,_,pruning,timed,later₄,rfl⟩ :=
    runs_past (silent_idles nowSeconds_quiet) timing later₃
  obtain ⟨_,_,_,_,numbering,pruned,later₅,rfl⟩ :=
    runs_past (logs_act fun _ => ⟨rfl,by simp⟩) pruning later₄
  obtain ⟨nonce,_,_,numbers,reserving,_,later₆,rfl⟩ := runs_past (logs_done _) numbering later₅
  obtain ⟨rfl,checked⟩ := runs_done checking
  obtain ⟨rfl,_⟩ := runs_done weighs
  obtain ⟨rfl,numbered⟩ := runs_done numbers
  simp only [List.nil_append] at signable ⊢
  refine .prepend priced.unrecorded (.prepend timed.unrecorded (.prepend pruned.unrecorded ?_))
  rcases runs_bind reserving with ⟨answer,_,rest,asked,signing,rfl⟩ | ⟨_,failed,_⟩
  swap
  · obtain ⟨_,same,_⟩ := runs_act failed
    cases same
  obtain ⟨_,same,rfl⟩ := runs_act asked
  cases same
  cases answer with
  | error held =>
    obtain ⟨rfl,_⟩ := runs_done signing
    cases later₆
  | ok minted =>
    have none : rest.filterMap reservation = [] :=
      List.filterMap_eq_nil_iff.mpr (signReserved_unreserved rest _ signing)
    obtain ⟨rfl,rfl⟩ : k = r.key ∧ token = minted := by
      simpa [Reserves,none,reservation] using later₆
    refine .prepend (by simp [Records]) (signReserved_failed (checkRequest_ok checked.symm)
      numbered.symm ?_ signing)
    let claim : NoteClaim := ⟨now + service.config.signatureTtlSec,op.sender,nonce,some r.maxGasCostWei⟩
    refine (signable r rate claim token checked.symm ?_ ?_).mono fun e member => ?_
    · exact (rateFor_runs prices).imp_right fun member => by simp [member]
    · simp [claim]
    · simp [member]

end TornadoRelayer
