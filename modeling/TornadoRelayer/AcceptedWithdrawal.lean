import TornadoRelayer.HonouredQuote
import TornadoRelayer.Rpc
import TornadoRelayer.SentOperation
import TornadoRelayer.SponsoringCalls

/-! The client and the relayer together: what a sponsored withdrawal sends passes the checks of the
service that quoted it. -/
namespace TornadoRelayer.Flow

open BigEndian EventLoop JavaScript Merkle Quoting RelayerService Rpc

/-! ### A request for a quote -/

theorem isHex_quantity (n : Nat) :
    isHex (String.ofList ('0' :: 'x' :: Nat.toDigits 16 n)) = true := by
  simp only [isHex,String.toList_ofList,List.take_succ_cons,List.take_zero,List.drop_succ_cons,
    List.drop_zero,Bool.and_eq_true,List.all_eq_true]
  exact ⟨rfl,fun c member => mem_toDigits_hex member⟩

theorem parseQuantity_text {v : Int} {text : Json} (written : quantityText v = .ok text)
    (field : String) : parseQuantity text field = .ok v := by
  have value := (quantityText_ok written).2
  rw [quantityText] at written
  split at written
  · cases written
  · cases written
    simp only [parseQuantity,isHex_quantity,if_true]
    exact value

/-- A field is read as it was written, and no other is there. -/
theorem quantityField_ok {name : String} {v : Option Int} {fields : List (String × Json)}
    (written : quantityField name v = .ok fields) :
    (∀ field, optionalQuantity (fields.lookup name) field = .ok v) ∧
      ∀ other, other ≠ name → fields.lookup other = none := by
  cases v with
  | none =>
    cases written
    simp [optionalQuantity]
  | some v =>
    obtain ⟨text,shown,returned⟩ := bind_ok_iff.mp written
    cases returned
    constructor
    · intro field
      simp only [List.lookup_cons_self,optionalQuantity,parseQuantity_text shown]
      rfl
    · intro other apart
      simp [List.lookup_cons,beq_eq_false_iff_ne.mpr apart]

/-- What the server reads of the gas of a request, field by field. -/
structure GasRead (found : String → Option Json) (gas : GasOverrides) : Prop where
  callGasLimit : ∀ field, optionalQuantity (found "callGasLimit") field = .ok gas.callGasLimit
  verificationGasLimit : ∀ field,
    optionalQuantity (found "verificationGasLimit") field = .ok gas.verificationGasLimit
  preVerificationGas : ∀ field,
    optionalQuantity (found "preVerificationGas") field = .ok gas.preVerificationGas
  paymasterVerificationGasLimit : ∀ field,
    optionalQuantity (found "paymasterVerificationGasLimit") field =
      .ok gas.paymasterVerificationGasLimit
  paymasterPostOpGasLimit : ∀ field,
    optionalQuantity (found "paymasterPostOpGasLimit") field = .ok gas.paymasterPostOpGasLimit

theorem gasFields_ok {gas : GasOverrides} {fields : List (String × Json)}
    (written : gasFields gas = .ok fields) : GasRead (fun name => fields.lookup name) gas := by
  obtain ⟨callGasLimit,w1,written⟩ := bind_ok_iff.mp written
  obtain ⟨verificationGasLimit,w2,written⟩ := bind_ok_iff.mp written
  obtain ⟨preVerificationGas,w3,written⟩ := bind_ok_iff.mp written
  obtain ⟨paymasterVerificationGasLimit,w4,written⟩ := bind_ok_iff.mp written
  obtain ⟨paymasterPostOpGasLimit,w5,written⟩ := bind_ok_iff.mp written
  cases written
  obtain ⟨r1,o1⟩ := quantityField_ok w1
  obtain ⟨r2,o2⟩ := quantityField_ok w2
  obtain ⟨r3,o3⟩ := quantityField_ok w3
  obtain ⟨r4,o4⟩ := quantityField_ok w4
  obtain ⟨r5,o5⟩ := quantityField_ok w5
  constructor <;> intro field
  · simp [List.lookup_append,o2,o3,o4,o5,r1]
  · simp [List.lookup_append,o1,o3,o4,o5,r2]
  · simp [List.lookup_append,o1,o2,o4,o5,r3]
  · simp [List.lookup_append,o1,o2,o3,o5,r4]
  · simp [List.lookup_append,o1,o2,o3,o4,r5]

/-- No limit is asked for. -/
def noOverrides : GasOverrides := ⟨none,none,none,none,none⟩

theorem isAddress_addressText (a : Address) : isAddress (addressText a) = true := by
  have read : addressOfHex (addressText a) = some a := by
    have address := getAddress_addressText a
    rw [getAddress] at address
    split at address
    · next b found =>
      cases address
      exact found
    · cases address
  rw [isAddress,read]
  simp [addressText, -String.reduceOfList]

/-- The gas of a request is one field, if any. -/
theorem gasField_ok {gas : Option GasOverrides} {fields : List (String × Json)}
    (written : gasField gas = .ok fields) :
    GasRead (fun name => ((fields.lookup "gas").getD .null).field name) (gas.getD noOverrides) ∧
      ∀ other, other ≠ "gas" → fields.lookup other = none := by
  cases gas with
  | none =>
    cases written
    constructor
    · constructor <;> exact fun _ => rfl
    · simp
  | some gas =>
    obtain ⟨inner,shown,returned⟩ := bind_ok_iff.mp written
    cases returned
    constructor
    · exact gasFields_ok shown
    · intro other apart
      simp [List.lookup_cons,beq_eq_false_iff_ne.mpr apart]

/-- The server reads a request for a quote as the client meant it. -/
theorem parseQuoteParams_encode {r : QuoteRequest} {params : Json}
    (encoded : encodeQuoteRequest r = .ok params) :
    parseQuoteParams params =
      .ok ⟨r.instance_,r.tailCallsGas,r.gas.getD noOverrides,r.maxFeePerGas⟩ := by
  obtain ⟨tailCallsGas,w1,encoded⟩ := bind_ok_iff.mp encoded
  obtain ⟨gas,w2,encoded⟩ := bind_ok_iff.mp encoded
  obtain ⟨maxFeePerGas,w3,encoded⟩ := bind_ok_iff.mp encoded
  cases encoded
  obtain ⟨r1,o1⟩ := quantityField_ok w1
  obtain ⟨r2,o2⟩ := gasField_ok w2
  obtain ⟨r3,o3⟩ := quantityField_ok w3
  let sent : Json := .object (("instance",.string (addressText r.instance_)) ::
    tailCallsGas ++ gas ++ maxFeePerGas)
  have named : sent.field "instance" = some (.string (addressText r.instance_)) := rfl
  have other (name : String) (apart : name ≠ "instance") : sent.field name =
      ((tailCallsGas.lookup name).or (gas.lookup name)).or (maxFeePerGas.lookup name) := by
    simp [sent,Json.field,List.lookup_cons,List.lookup_append,Option.or_assoc,
      beq_eq_false_iff_ne.mpr apart]
  have tail : sent.field "tailCallsGas" = tailCallsGas.lookup "tailCallsGas" := by
    simp [other,o2,o3]
  have limits : sent.field "gas" = gas.lookup "gas" := by simp [other,o1,o3]
  have price : sent.field "maxFeePerGas" = maxFeePerGas.lookup "maxFeePerGas" := by
    simp [other,o1,o2]
  change parseQuoteParams sent = _
  simp only [parseQuoteParams,named,isAddress_addressText,getAddress_addressText,tail,limits,price,
    r1,r3,r2.callGasLimit,r2.verificationGasLimit,r2.preVerificationGas,
    r2.paymasterVerificationGasLimit,r2.paymasterPostOpGasLimit,if_true]
  rfl

/-! ### A quote -/

/-- `BigInt` of the text of an address. -/
theorem hexToBigInt_addressText (a : Address) :
    Quoting.hexToBigInt (some (.string (addressText a))) = .ok (a.toNat : Int) := by
  have values := checksumDigits_values a
  have hex : ∀ c ∈ checksumDigits a, (digitValue c).isSome := by
    intro c member
    have value : digitValue c ∈ (hexDigits a.bytes).map digitValue := by
      rw [← values]
      exact List.mem_map_of_mem member
    obtain ⟨d,digit,same⟩ := List.mem_map.mp value
    obtain ⟨n,small,rfl⟩ := mem_hexDigits digit
    rw [← same,digitValue_digitChar small]
    rfl
  have plain : ∀ c ∈ '0' :: 'x' :: checksumDigits a, isWhitespace c = false :=
    List.forall_mem_cons.mpr ⟨by decide,List.forall_mem_cons.mpr
      ⟨by decide,fun c member => hex_plain (hex c member)⟩⟩
  have letter : radix 'x' = some 16 := by decide
  have some : a.bytes ≠ [] := by
    intro empty
    have none := congrArg List.length empty
    simp at none
  have number : ofBytes a.bytes = a.toNat := ofBytes_toBytes a.toNat_lt
  have read : readDigits 16 (checksumDigits a) = .some a.toNat := by
    rw [readDigits_values values,readDigits_hexDigits some,number]
  have numeral : bigIntOfText (addressText a) = .some (a.toNat : Int) := by
    rw [bigIntOfText,addressText,String.toList_ofList,trim_plain plain,readNumeral,
      if_neg (by decide),if_neg (by decide)]
    simp only [List.head?_cons,Option.bind_some,letter,if_true,List.tail_cons,read,Option.map_some]
  rw [Quoting.hexToBigInt,parseBigInt,bigIntOfJson,numeral]

variable {platform : Platform} {cast : Cast} {s : QuotingService} {answers : QuoteAnswers}
  {slog : ServiceLog} {log : ClientLog} {write : RpcResult → Json}

theorem handle_quote {params : Json} {response : JsonRpcResponse}
    (handled : ServiceRuns (handle platform cast s answers
      (requestBody "tornado_quote" [params])) slog (.ok response)) :
    response.outcome = ((tornadoQuote s params answers).map RpcResult.quote).mapError failure := by
  obtain ⟨served,serves,returned⟩ := runs_settled_iff.mp handled
  cases returned
  have dispatched : serve platform cast s answers (requestBody "tornado_quote" [params]) =
      .done ((tornadoQuote s params answers).map RpcResult.quote) := by
    have quoted : dispatch platform cast s answers "tornado_quote" (.array [params]) =
        .done ((tornadoQuote s params answers).map RpcResult.quote) := by
      simp only [dispatch,String.reduceEq,if_false,if_true,firstParam]
      cases tornadoQuote s params answers <;> rfl
    rw [← quoted]
    rfl
  rw [dispatched] at serves
  obtain ⟨_,rfl⟩ := runs_done serves
  rfl

/-- The relayer is this service; it may be asked at any time. -/
def HonestRelayer (platform : Platform) (cast : Cast) (s : QuotingService)
    (write : RpcResult → Json) (log : ClientLog) : Prop :=
  ∀ body json, .answered (.post body) (.ok json) ∈ log → ∃ answers slog response,
    ServiceRuns (handle platform cast s answers body) slog (.ok response) ∧ json = response.json write

/-- What the service quotes for a request. -/
structure QuotedBy (s : QuotingService) (r : QuoteRequest) (q : RelayerQuote) : Prop where
  honest : ∃ params answers quoted info, Quoting.quote s params answers = .ok quoted ∧
    params = ⟨r.instance_,r.tailCallsGas,r.gas.getD noOverrides,r.maxFeePerGas⟩ ∧
    QuotedAt s params answers quoted info ∧ quoted.Nonneg ∧ q = received quoted

theorem QuotedIn.quotedBy {r : QuoteRequest} {q : RelayerQuote} (quoted : QuotedIn log r q)
    (honest : HonestRelayer platform cast s write log) : QuotedBy s r q := by
  obtain ⟨params,body,raw,encoded,posted,fine,found,read⟩ := quoted
  obtain ⟨answers,slog,response,handled,rfl⟩ := honest _ _ posted
  have outcome := handle_quote handled
  cases answered : tornadoQuote s params answers with
  | error thrown =>
    rw [answered] at outcome
    have object : (response.json write).field "error" = some (.object
        [("code",.number (failure thrown).code),("message",.string (failure thrown).message)]) := by
      rw [JsonRpcResponse.json,outcome]
      rfl
    have harmless := fine _ object
    simp [truthy] at harmless
  | ok json =>
    rw [answered] at outcome
    have result : (response.json write).field "result" = some json := by
      rw [JsonRpcResponse.json,outcome]
      rfl
    obtain rfl : json = raw := Option.some.inj (result.symm.trans found)
    obtain ⟨parsed,reads,answered⟩ := bind_ok_iff.mp answered
    obtain ⟨quoted,returned,sent⟩ := bind_ok_iff.mp answered
    obtain ⟨nonneg,reread⟩ := readQuote_encodeQuote sent
    obtain ⟨info,at_⟩ := quote_ok returned
    obtain rfl : _ = parsed := Except.ok.inj ((parseQuoteParams_encode encoded).symm.trans reads)
    exact ⟨_,answers,quoted,info,returned,rfl,at_,nonneg,Except.ok.inj (read.symm.trans reread)⟩

/-- What a quote says beside its fee. -/
theorem quote_names {params : QuoteParams} {quoted : Quote}
    (returned : Quoting.quote s params answers = .ok quoted) :
    quoted.relayer = s.rewardAccount ∧ quoted.paymaster = s.config.paymaster ∧
      (∀ gas, params.gas = QuotedGas.overrides gas → quoted.gas = gas) ∧
      ∀ price, params.maxFeePerGas = some price → quoted.maxFeePerGas = price := by
  obtain ⟨info,served,returned⟩ := bind_ok_iff.mp returned
  obtain ⟨fees,_,returned⟩ := bind_ok_iff.mp returned
  obtain ⟨tokenPerEth,rate,returned⟩ := bind_ok_iff.mp returned
  obtain ⟨affordable,returned⟩ := error_or_ok returned
  cases returned
  refine ⟨rfl,rfl,?_,?_⟩
  · intro gas asked
    simp [asked,QuotedGas.override,QuotedGas.overrides]
  · intro price asked
    simp [asked]

/-! ### The operation that is sent -/

/-- A text that names this address. -/
def Names (value : Option Json) (a : Address) : Prop :=
  ∃ text, value = some (.string text) ∧ getAddress text = .ok a

theorem names_addressText (a : Address) : Names (some (.string (addressText a))) a :=
  ⟨_,rfl,getAddress_addressText a⟩

theorem Names.unique {value : Option Json} {a b : Address} (first : Names value a)
    (second : Names value b) : a = b := by
  obtain ⟨text,rfl,read⟩ := first
  obtain ⟨_,same,read'⟩ := second
  cases same
  exact Except.ok.inj (read.symm.trans read')

/-- A call of the account as it was asked for. -/
structure Called (call : TailCall) (decoded : DecodedCall) : Prop where
  target : Names call.to_ decoded.target
  value : decoded.value = call.value.getD 0
  data : decoded.data = call.data.getD []

/-- An operation that is made of a request, at no more than its limits and its price. -/
structure Carries (platform : Platform) (p : SponsoredWithdrawParams) (request : OperationRequest)
    (op : RpcUserOperation) (context : SponsorContext) : Prop where
  sender : op.sender = p.owner
  calls : ∃ calls, decodeAccountCalls platform.decoder op.callData = .ok calls ∧
    List.Forall₂ Called request.calls calls
  paymaster : ∀ a, op.paymaster = some a → ∃ call, request.calls.head? = some call ∧ Names call.to_ a
  gas : ∃ gas, readGas op = .ok gas ∧ (Quoting.quotedGas gas).Within request.gas
  price : ∃ price priority : Nat, q op.maxFeePerGas "maxFeePerGas" = .ok price ∧
    (price : Int) ≤ request.maxFeePerGas ∧
    q op.maxPriorityFeePerGas "maxPriorityFeePerGas" = .ok priority ∧ priority ≤ price
  refundTo : context.refundTo = some (.valid request.refundTo)

/-- No call but the first is of the paymaster or withdraws from a pool. -/
def TailsFree (platform : Platform) (s : RelayerService) (op : RpcUserOperation) : Prop :=
  ∀ calls, decodeAccountCalls platform.decoder op.callData = .ok calls →
    ∀ call ∈ calls.tail, call.target ≠ s.config.paymaster ∧ ¬call.Withdraws platform.decoder

/-- A list of calls that starts with this withdrawal is accepted as far as the others allow. -/
theorem sponsors_first_iff {decoder : Decoder} {rules : SponsorRules} {call : DecodedCall}
    {rest : List DecodedCall} {w : Withdrawal} (called : call.target = rules.paymaster)
    (free : call.value = 0) (decoded : decoder.paymaster call.data = some (.relayWithdraw w))
    (pool : w.pool ∈ rules.allowedInstances) (relayer : w.relayer = rules.rewardAccount)
    (recipient : w.recipient = rules.sender) {found : TornadoWithdrawCall} :
    findSponsoringWithdraw decoder (call :: rest) rules = .ok found ↔
      found = { w with index := 0, refund := 0, via := .paymaster } ∧
        ∀ other ∈ rest, other.target ≠ rules.paymaster ∧ ¬other.Withdraws decoder := by
  rw [findSponsoringWithdraw_ok_iff]
  constructor
  · intro sponsors
    have first : found.index = 0 := by
      by_contra later
      exact sponsors.alone 0 call rfl (Ne.symm later) called
    obtain ⟨own,at_,_,_,relays⟩ := sponsors.call
    rw [first] at at_
    obtain rfl : call = own := Option.some.inj at_
    have same : w = found.toWithdrawal := by
      rw [decoded] at relays
      exact PaymasterCall.relayWithdraw.inj (Option.some.inj relays)
    constructor
    · obtain ⟨withdrawal,index,refund,via⟩ := found
      have refund' := sponsors.refund
      have via' := sponsors.via
      simp only at first same refund' via'
      rw [first,refund',via',same]
    · intro other member
      obtain ⟨i,there⟩ := List.mem_iff_getElem?.mp member
      have apart : i + 1 ≠ found.index := by omega
      exact ⟨sponsors.alone (i + 1) other there apart,sponsors.single (i + 1) other there apart⟩
  · rintro ⟨rfl,others⟩
    have tail (i : Nat) (other : DecodedCall) (there : (call :: rest)[i]? = some other) (later : i ≠ 0) :
        other ∈ rest := by
      obtain ⟨j,rfl⟩ := Nat.exists_eq_succ_of_ne_zero later
      exact List.mem_of_getElem? there
    constructor
    · exact ⟨call,rfl,called,free,decoded⟩
    · exact pool
    · exact relayer
    · exact recipient
    · rfl
    · rfl
    · exact fun i other there later => (others other (tail i other there later)).1
    · exact fun i other there later => (others other (tail i other there later)).2

theorem Sent.mono {before after : ClientLog} {lib : Libraries} {p : SponsoredWithdrawParams}
    {request : OperationRequest} {authorization : Option SignedAuthorization} {path : MerklePath}
    {first last : RelayerQuote} {w : Withdrawal}
    (sent : Sent lib p before request authorization path first last w) (kept : before ⊆ after) :
    Sent lib p after request authorization path first last w := by
  obtain ⟨denomination,read,calls⟩ := sent.calls
  obtain ⟨output,answered,shown⟩ := sent.proof
  obtain ⟨delegated,authorized,override⟩ := sent.delegation
  refine { sent with
    known := kept sent.known
    quoted := sent.quoted.mono kept
    sized := ?_
    proof := ⟨output,kept answered,shown⟩
    calls := ⟨denomination,kept read,calls⟩
    delegation := ⟨delegated,authorized.mono kept,override⟩ }
  intro size
  obtain ⟨estimating,est,estimated,quoted⟩ := sent.sized size
  exact ⟨estimating,est,kept estimated,quoted.mono kept⟩

theorem instanceOf_ok {a : Address} {info : InstanceInfo} (served : s.instanceOf a = .ok info) :
    info ∈ s.instances ∧ info.address = a := by
  rw [RelayerService.instanceOf] at served
  split at served
  · next found =>
    cases served
    exact ⟨List.mem_of_find?_eq_some found,by simpa using List.find?_some found⟩
  · cases served

/-- Both quotes are for the pool, and the withdrawal names whom they name. -/
theorem Sent.quotedBy {lib : Libraries} {p : SponsoredWithdrawParams} {request : OperationRequest}
    {authorization : Option SignedAuthorization} {path : MerklePath} {first last : RelayerQuote}
    {w : Withdrawal} (sent : Sent lib p log request authorization path first last w)
    (honest : HonestRelayer platform cast s write log) :
    (∃ r, r.instance_ = p.instance_ ∧ QuotedBy s r last) ∧ w.relayer = s.rewardAccount := by
  have start := sent.quoted.quotedBy honest
  have named {r : QuoteRequest} {q : RelayerQuote} (quoted : QuotedBy s r q) :
      q.relayer = some (.string (addressText s.rewardAccount)) := by
    obtain ⟨params,answers,quoted,info,returned,_,_,_,rfl⟩ := quoted.honest
    rw [received,(quote_names returned).1]
  have ends : ∃ r, r.instance_ = p.instance_ ∧ QuotedBy s r last := by
    cases skip : p.skipEstimation with
    | true =>
      rw [sent.skipped skip]
      exact ⟨_,rfl,start⟩
    | false =>
      obtain ⟨_,est,_,quoted⟩ := sent.sized skip
      exact ⟨_,rfl,quoted.quotedBy honest⟩
  refine ⟨ends,?_⟩
  obtain ⟨r,_,finish⟩ := ends
  have relayer := sent.relayer
  have text : (if last.fee = first.fee then first else last).relayer =
      some (.string (addressText s.rewardAccount)) := by
    split
    · exact named start
    · exact named finish
  rw [text,hexToBigInt_addressText] at relayer
  exact bitVec_of_cast (Except.ok.inj relayer).symm

/-- What is sent was quoted at the limits the bundler found, with their margins. -/
def Sized (p : SponsoredWithdrawParams) (log : ClientLog) (first last : RelayerQuote) : Prop :=
  p.skipEstimation = false → ∃ request est,
    .answered (.estimateUserOperationGas request) (.ok est) ∈ log ∧
    last.gas = bumped est first.gas ∧ last.maxFeePerGas = first.maxFeePerGas

theorem Sent.sizes {lib : Libraries} {p : SponsoredWithdrawParams} {request : OperationRequest}
    {authorization : Option SignedAuthorization} {path : MerklePath} {first last : RelayerQuote}
    {w : Withdrawal} (sent : Sent lib p log request authorization path first last w)
    (honest : HonestRelayer platform cast s write log) : Sized p log first last := by
  intro size
  obtain ⟨request,est,estimated,quoted⟩ := sent.sized size
  obtain ⟨params,answers,quoted,info,returned,asked,_,_,rfl⟩ := (quoted.quotedBy honest).honest
  subst asked
  obtain ⟨_,_,gas,price⟩ := quote_names returned
  exact ⟨request,est,estimated,gas _ rfl,price _ rfl⟩

/-- Of the operations made of a request, the service takes those whose other calls leave the
paymaster and the pools alone; their fee is enough. -/
theorem Sent.accepted {lib : Libraries} {p : SponsoredWithdrawParams} {request : OperationRequest}
    {authorization : Option SignedAuthorization} {path : MerklePath} {first last : RelayerQuote}
    {w : Withdrawal} (sent : Sent lib p log request authorization path first last w)
    (honest : HonestRelayer platform cast s write log)
    (listed : ∀ info ∈ s.instances, info.address ∈ s.config.instances)
    (decodes : platform.decoder.paymaster (lib.encodeRelayWithdraw w) = some (.relayWithdraw w))
    {op : RpcUserOperation} {context : SponsorContext} (carries : Carries platform p request op context) :
    ((∃ r, s.checkRequest platform op context = .ok r) ↔ TailsFree platform s.toRelayerService op) ∧
    ∀ r, s.checkRequest platform op context = .ok r →
      r.w.toWithdrawal = w ∧ s.checkFee r last.tokenPerEth = .ok () := by
  obtain ⟨⟨asked,pool,quotedBy⟩,relayer⟩ := sent.quotedBy honest
  obtain ⟨params,answers,quoted,info,returned,asks,at_,nonneg,rfl⟩ := quotedBy.honest
  subst asks
  have honoured := honoured_of_quoted platform at_ nonneg
  have served : s.instanceOf p.instance_ = .ok info := pool ▸ at_.served
  obtain ⟨member,address⟩ := instanceOf_ok served
  have allowed : w.pool ∈ (s.rules op.sender).allowedInstances := by
    rw [sent.pool,← address]
    exact listed info member
  have recipient : w.recipient = (s.rules op.sender).sender := by
    rw [sent.recipient,← carries.sender]
    rfl
  have paymaster : Names (received quoted).paymaster s.config.paymaster := by
    rw [received,(quote_names returned).2.1]
    exact names_addressText _
  obtain ⟨_,_,built⟩ := sent.calls
  obtain ⟨calls,decoded,made⟩ := carries.calls
  rw [built] at made
  obtain ⟨call,rest,called,_,rfl⟩ := List.forall₂_cons_left_iff.mp made
  have target : call.target = (s.rules op.sender).paymaster := called.target.unique paymaster
  have data : platform.decoder.paymaster call.data = some (.relayWithdraw w) := by
    rw [called.data]
    exact decodes
  have found_iff {found : TornadoWithdrawCall} :
      findSponsoringWithdraw platform.decoder (call :: rest) (s.rules op.sender) = .ok found ↔
        found = { w with index := 0, refund := 0, via := .paymaster } ∧
          ∀ other ∈ rest, other.target ≠ s.config.paymaster ∧ ¬other.Withdraws platform.decoder :=
    sponsors_first_iff target called.value data allowed relayer recipient
  have free_iff : TailsFree platform s.toRelayerService op ↔
      ∀ other ∈ rest, other.target ≠ s.config.paymaster ∧ ¬other.Withdraws platform.decoder := by
    constructor
    · exact fun free => free _ decoded
    · intro free calls decoded'
      cases decoded.symm.trans decoded'
      exact free
  have checked_found {r : CheckedRequest} (checked : s.checkRequest platform op context = .ok r) :
      findSponsoringWithdraw platform.decoder (call :: rest) (s.rules op.sender) = .ok r.w := by
    obtain ⟨calls,decoded',found⟩ := (checkRequest_ok checked).sponsoring
    cases decoded.symm.trans decoded'
    exact found
  have accepts (free : ∀ other ∈ rest, other.target ≠ s.config.paymaster ∧
      ¬other.Withdraws platform.decoder) : ∃ r, s.checkRequest platform op context = .ok r ∧
        s.checkFee r (received quoted).tokenPerEth = .ok () := by
    obtain ⟨gas,read,within⟩ := carries.gas
    obtain ⟨price,priority,priced,cheap,tipped,tip⟩ := carries.price
    have presents : Presents s.toRelayerService platform op context
        { w with index := 0, refund := 0, via := .paymaster } gas price priority := by
      constructor
      · rintro ⟨some,apart⟩
        obtain ⟨a,own⟩ := Option.isSome_iff_exists.mp some
        obtain ⟨head,first,names⟩ := carries.paymaster a own
        rw [built] at first
        cases first
        rw [own,names.unique paymaster] at apart
        exact apart rfl
      · simp [carries.refundTo]
      · exact ⟨_,decoded,found_iff.mpr ⟨rfl,free⟩⟩
      · exact read
      · exact priced
      · exact tipped
    have enough : (received quoted).fee = w.fee.toNat := sent.fee.symm
    have affordable : (w.fee.toNat : Int) ≤ (received quoted).denomination := by
      rw [← enough]
      exact honoured.affordable.le
    rw [sent.gas] at within
    rw [sent.maxFeePerGas] at cheap
    obtain ⟨r,checked,_,weighed⟩ := honoured.accepted op context _ gas price priority presents
      (sent.pool.trans pool.symm) within cheap tip enough.le affordable
    exact ⟨r,checked,weighed⟩
  constructor
  · rw [free_iff]
    constructor
    · rintro ⟨r,checked⟩
      exact (found_iff.mp (checked_found checked)).2
    · intro free
      obtain ⟨r,checked,_⟩ := accepts free
      exact ⟨r,checked⟩
  · intro r checked
    obtain ⟨same,free⟩ := found_iff.mp (checked_found checked)
    obtain ⟨r',checked',weighed⟩ := accepts free
    cases checked.symm.trans checked'
    exact ⟨by rw [same],weighed⟩

/-- A sponsored withdrawal against the service it is meant for: what is sent names the service's
relayer, at the limits the bundler found; and of the operations made of it, the service takes
exactly those whose other calls leave the paymaster and the pools alone, their fee being enough at
the rate last quoted. -/
theorem sponsored_withdrawal_accepted {lib : Libraries} {p : SponsoredWithdrawParams}
    {out : Except Thrown SponsoredWithdrawResult} {request : OperationRequest}
    {authorization : Option SignedAuthorization} {hash : Except Thrown Bytes32}
    (listed : ∀ info ∈ s.instances, info.address ∈ s.config.instances)
    (ran : (sponsoredWithdraw lib p).Runs log out) (prover : HonestProver log)
    (relayer : HonestRelayer platform cast s write log)
    (sent : .answered (.sendUserOperation request authorization) hash ∈ log) :
    ∃ path first last w, Sent lib p log request authorization path first last w ∧
      w.relayer = s.rewardAccount ∧ Sized p log first last ∧
      (platform.decoder.paymaster (lib.encodeRelayWithdraw w) = some (.relayWithdraw w) →
        ∀ op context, Carries platform p request op context →
          ((∃ r, s.checkRequest platform op context = .ok r) ↔
            TailsFree platform s.toRelayerService op) ∧
          ∀ r, s.checkRequest platform op context = .ok r →
            r.w.toWithdrawal = w ∧ s.checkFee r last.tokenPerEth = .ok ()) := by
  obtain ⟨before,after,_,_,_,split,_,same,path,first,last,w,holds⟩ := sent_once ran prover sent trivial
  cases same
  have kept : before ⊆ log := by
    rw [split]
    exact List.subset_append_left _ _
  have all := holds.mono kept
  refine ⟨path,first,last,w,all,(all.quotedBy relayer).2,all.sizes relayer,?_⟩
  intro decodes op context carries
  exact all.accepted relayer listed decodes carries

/-! ### A run -/

def word (data : Bytes) (i : Nat) : Nat := ofBytes (slice data i (i + 32))

/-- The decoding of `execute`. -/
def decodeExecute (data : Bytes) : Option AccountCall :=
  if data.take 4 = [0xb6, 0x1d, 0x27, 0xf6] then
    some (.execute ⟨BitVec.ofNat _ (word data 4),word data 36,slice data 132 (132 + word data 100)⟩)
  else none

/-- The decoding of `relayWithdraw`. -/
def decodeRelayWithdraw (data : Bytes) : Option PaymasterCall :=
  if data.take 4 = [0x27, 0x2b, 0x87, 0xb9] then
    some (.relayWithdraw {
      pool := BitVec.ofNat _ (word data 4)
      proof := slice data 260 (260 + word data 228)
      root := BitVec.ofNat _ (word data 68)
      nullifierHash := BitVec.ofNat _ (word data 100)
      recipient := BitVec.ofNat _ (word data 132)
      relayer := BitVec.ofNat _ (word data 164)
      fee := BitVec.ofNat _ (word data 196) })
  else none

def abiPlatform : Platform :=
  { samplePlatform [] with decoder := ⟨decodeExecute,decodeRelayWithdraw,fun _ => none⟩ }

/-- A word of some fields, where those before it end. -/
theorem word_flatten {fields : List Bytes} {k i n : Nat} (inside : k < fields.length)
    (start : (fields.take k).flatten.length = i) (here : fields[k] = toBytes 32 n)
    (fits : n < 256 ^ 32) : word fields.flatten i = n := by
  have long : fields[k].length = i + 32 - i := by simp [here]
  rw [word,slice_flatten inside start long,here,ofBytes_toBytes fits]

theorem address_fits (a : Address) : a.toNat < 256 ^ 32 := by
  have small := a.isLt
  omega

theorem decodeExecute_executeCall {call : DecodedCall} (value : call.value < 256 ^ 32)
    (long : call.data.length < 256 ^ 32) :
    decodeExecute (executeCall call) = some (.execute call) := by
  let fields : List Bytes := [[0xb6, 0x1d, 0x27, 0xf6],toBytes 32 call.target.toNat,
    toBytes 32 call.value,toBytes 32 96,toBytes 32 call.data.length,call.data,
    List.replicate ((32 - call.data.length % 32) % 32) 0]
  have layout : executeCall call = fields.flatten := by simp [executeCall,abiBytes,fields]
  have selector : (executeCall call).take 4 = [0xb6, 0x1d, 0x27, 0xf6] := rfl
  have w1 : word fields.flatten 4 = call.target.toNat :=
    word_flatten (k := 1) (by simp [fields]) rfl rfl (address_fits _)
  have w2 : word fields.flatten 36 = call.value :=
    word_flatten (k := 2) (by simp [fields]) (by simp [fields]) rfl value
  have w4 : word fields.flatten 100 = call.data.length :=
    word_flatten (k := 4) (by simp [fields]) (by simp [fields]) rfl long
  have data : slice fields.flatten 132 (132 + call.data.length) = call.data :=
    slice_flatten (k := 5) (by simp [fields]) (by simp [fields]) (by simp [fields])
  rw [decodeExecute,if_pos selector,layout,w1,w2,w4,data]
  simp

theorem decodeRelayWithdraw_relayWithdrawCall {w : Withdrawal} (long : w.proof.length < 256 ^ 32) :
    decodeRelayWithdraw (relayWithdrawCall w) = some (.relayWithdraw w) := by
  let fields : List Bytes := [[0x27, 0x2b, 0x87, 0xb9],toBytes 32 w.pool.toNat,toBytes 32 224,
    w.root.bytes,w.nullifierHash.bytes,toBytes 32 w.recipient.toNat,toBytes 32 w.relayer.toNat,
    w.fee.bytes,toBytes 32 w.proof.length,w.proof,
    List.replicate ((32 - w.proof.length % 32) % 32) 0]
  have layout : relayWithdrawCall w = fields.flatten := by simp [relayWithdrawCall,abiBytes,fields]
  have selector : (relayWithdrawCall w).take 4 = [0x27, 0x2b, 0x87, 0xb9] := rfl
  have w1 : word fields.flatten 4 = w.pool.toNat :=
    word_flatten (k := 1) (by simp [fields]) rfl rfl (address_fits _)
  have w3 : word fields.flatten 68 = w.root.toNat :=
    word_flatten (k := 3) (by simp [fields]) (by simp [fields]) rfl w.root.toNat_lt
  have w4 : word fields.flatten 100 = w.nullifierHash.toNat :=
    word_flatten (k := 4) (by simp [fields]) (by simp [fields]) rfl w.nullifierHash.toNat_lt
  have w5 : word fields.flatten 132 = w.recipient.toNat :=
    word_flatten (k := 5) (by simp [fields]) (by simp [fields]) rfl (address_fits _)
  have w6 : word fields.flatten 164 = w.relayer.toNat :=
    word_flatten (k := 6) (by simp [fields]) (by simp [fields]) rfl (address_fits _)
  have w7 : word fields.flatten 196 = w.fee.toNat :=
    word_flatten (k := 7) (by simp [fields]) (by simp [fields]) rfl w.fee.toNat_lt
  have w8 : word fields.flatten 228 = w.proof.length :=
    word_flatten (k := 8) (by simp [fields]) (by simp [fields]) rfl long
  have proof : slice fields.flatten 260 (260 + w.proof.length) = w.proof :=
    slice_flatten (k := 9) (by simp [fields]) (by simp [fields]) (by simp [fields])
  rw [decodeRelayWithdraw,if_pos selector,layout,w1,w3,w4,w5,w6,w7,w8,proof]
  simp

/-- The service answers the client over its server. -/
def relayerAnswer (body : Json) : Except Thrown Json :=
  ((handle abiPlatform sampleCast quotingService sampleFees body).eval (I := serviceInterface)
    (sampleAnswers 0) sampleResults).map (JsonRpcResponse.json fun _ => .null)

theorem relayerAnswer_honest (p : Client α) :
    HonestRelayer abiPlatform sampleCast quotingService (fun _ => .null)
      (p.trace (I := clientInterface) (clientAnswers relayerAnswer) clientResults) := by
  intro body json answered
  have same : Except.ok json = relayerAnswer body := trace_answered (I := clientInterface) answered
  have ran := runs_trace (I := serviceInterface) (sampleAnswers 0) sampleResults
    (handle abiPlatform sampleCast quotingService sampleFees body)
  rw [relayerAnswer] at same
  cases served : (handle abiPlatform sampleCast quotingService sampleFees body).eval
      (I := serviceInterface) (sampleAnswers 0) sampleResults with
  | error e =>
    rw [served] at same
    cases same
  | ok response =>
    rw [served] at same ran
    exact ⟨sampleFees,_,response,ran,Except.ok.inj same⟩

theorem proveOutput_proof {proof : Bytes} {inputs : TornadoWithdrawInputs}
    {output : TornadoProveOutput} (shown : proveOutput proof inputs = .ok output) :
    output.proof = proof := by
  obtain ⟨_,_,shown⟩ := bind_ok_iff.mp shown
  obtain ⟨_,_,shown⟩ := bind_ok_iff.mp shown
  obtain ⟨_,_,shown⟩ := bind_ok_iff.mp shown
  obtain ⟨_,_,shown⟩ := bind_ok_iff.mp shown
  obtain ⟨_,_,shown⟩ := bind_ok_iff.mp shown
  obtain ⟨_,_,shown⟩ := bind_ok_iff.mp shown
  cases shown
  rfl

/-- The operation of a request for one withdrawal, with the limits and the price of a quote. -/
def carryingOp (quote : RelayerQuote) (w : Withdrawal) : RpcUserOperation :=
  { sampleOp 1 SIMPLE_7702_ACCOUNT with
    callData := executeCall ⟨samplePaymaster,0,relayWithdrawCall w⟩
    callGasLimit := .value quote.gas.callGasLimit.toNat
    verificationGasLimit := .value quote.gas.verificationGasLimit.toNat
    preVerificationGas := .value quote.gas.preVerificationGas.toNat
    paymasterVerificationGasLimit := .value quote.gas.paymasterVerificationGasLimit.toNat
    paymasterPostOpGasLimit := .value quote.gas.paymasterPostOpGasLimit.toNat
    maxFeePerGas := .value quote.maxFeePerGas.toNat
    maxPriorityFeePerGas := .value 0 }

theorem carryingOp_calls {quote : RelayerQuote} {w : Withdrawal} (bare : w.proof = []) :
    decodeAccountCalls abiPlatform.decoder (carryingOp quote w).callData =
      .ok [⟨samplePaymaster,0,relayWithdrawCall w⟩] := by
  have long : (relayWithdrawCall w).length < 256 ^ 32 := by
    simp [relayWithdrawCall,abiBytes,bare]
  have decoded := @decodeExecute_executeCall ⟨samplePaymaster,0,relayWithdrawCall w⟩
    (by simp) long
  simp only [decodeAccountCalls,abiPlatform,carryingOp,decoded]

theorem carryingOp_carries {request : OperationRequest} {authorization : Option SignedAuthorization}
    {path : MerklePath} {first last : RelayerQuote} {w : Withdrawal}
    (sent : Sent sampleLibraries sampleParams log request authorization path first last w)
    (honest : HonestRelayer abiPlatform sampleCast quotingService write log) (bare : w.proof = []) :
    Carries abiPlatform sampleParams request (carryingOp last w) ⟨some (.valid 0xa1)⟩ := by
  obtain ⟨⟨r,_,quotedBy⟩,_⟩ := sent.quotedBy honest
  obtain ⟨_,_,quoted,_,returned,_,_,nonneg,rfl⟩ := quotedBy.honest
  obtain ⟨_,_,calls⟩ := sent.calls
  have paymaster : Names (received quoted).paymaster samplePaymaster := by
    rw [received,(quote_names returned).2.1]
    exact names_addressText _
  constructor
  · rfl
  · refine ⟨_,carryingOp_calls bare,?_⟩
    rw [calls]
    exact .cons ⟨paymaster,rfl,rfl⟩ .nil
  · rintro _ ⟨⟩
  · refine ⟨_,rfl,?_⟩
    rw [sent.gas]
    constructor
    · exact (Int.toNat_of_nonneg nonneg.gas.callGasLimit).le
    · exact (Int.toNat_of_nonneg nonneg.gas.verificationGasLimit).le
    · exact (Int.toNat_of_nonneg nonneg.gas.preVerificationGas).le
    · exact (Int.toNat_of_nonneg nonneg.gas.paymasterVerificationGasLimit).le
    · exact (Int.toNat_of_nonneg nonneg.gas.paymasterPostOpGasLimit).le
  · refine ⟨_,_,rfl,?_,rfl,Nat.zero_le _⟩
    rw [sent.maxFeePerGas]
    exact (Int.toNat_of_nonneg nonneg.maxFeePerGas).le
  · rw [sent.refundTo]
    rfl

theorem sponsored_withdrawal_accepted_sample : ∃ log out request authorization hash op r rate,
    (sponsoredWithdraw sampleLibraries sampleParams).Runs log out ∧
    .answered (.sendUserOperation request authorization) hash ∈ log ∧
    Carries abiPlatform sampleParams request op ⟨some (.valid 0xa1)⟩ ∧
    quotingService.checkRequest abiPlatform op ⟨some (.valid 0xa1)⟩ = .ok r ∧
    quotingService.checkFee r rate = .ok () := by
  let answer := clientAnswers relayerAnswer
  have ran := runs_trace (I := clientInterface) answer clientResults
    (sponsoredWithdraw sampleLibraries sampleParams)
  have returns : ((sponsoredWithdraw sampleLibraries sampleParams).eval (I := clientInterface) answer
      clientResults).toBool = true := by
    decide +kernel
  obtain ⟨result,out⟩ := ok_of_toBool returns
  rw [out] at ran
  have prover := @clientAnswers_honest _ relayerAnswer
    (sponsoredWithdraw sampleLibraries sampleParams)
  have relayer := relayerAnswer_honest (sponsoredWithdraw sampleLibraries sampleParams)
  obtain ⟨request,authorization,_,_,_,_,sent,_⟩ := returned_sent ran prover
  obtain ⟨path,first,last,w,holds,_,_,accepts⟩ :=
    sponsored_withdrawal_accepted (by decide) ran prover relayer sent
  obtain ⟨output,answered,shown⟩ := holds.proof
  have proved : Except.ok output = proveOutput [] _ := trace_answered (I := clientInterface) answered
  have bare : w.proof = [] := (proveOutput_proof shown).symm.trans (proveOutput_proof proved.symm)
  have decodes : decodeRelayWithdraw (relayWithdrawCall w) = some (.relayWithdraw w) :=
    decodeRelayWithdraw_relayWithdrawCall (by simp [bare])
  have carries : Carries abiPlatform sampleParams request (carryingOp last w)
      ⟨some (.valid 0xa1)⟩ := carryingOp_carries holds relayer bare
  have free : TailsFree abiPlatform quotingService.toRelayerService (carryingOp last w) := by
    intro calls decoded call member
    cases (carryingOp_calls bare).symm.trans decoded
    cases member
  have taken := accepts decodes _ _ carries
  obtain ⟨r,checked⟩ := taken.1.mpr free
  exact ⟨_,_,request,authorization,_,_,r,_,ran,sent,carries,checked,(taken.2 r checked).2⟩

end TornadoRelayer.Flow
