import TornadoRelayer.HashAgreement
import TornadoRelayer.Scripts
import TornadoRelayer.SponsoredWithdraw

/-! What the client sends, whatever it is answered: one operation at most, and what it pays is what
was quoted last. -/
namespace TornadoRelayer.Flow

open BigEndian EventLoop JavaScript Merkle Paymaster Quoting RelayerService

variable {lib : Libraries} {p : SponsoredWithdrawParams} {log : ClientLog}

/-! ### The steps -/

/-- The log has this quote, as the answer to this request. -/
def QuotedIn (log : ClientLog) (r : QuoteRequest) (q : RelayerQuote) : Prop :=
  ∃ params body raw, encodeQuoteRequest r = .ok params ∧
    .answered (.post (requestBody "tornado_quote" [params])) (.ok body) ∈ log ∧
    (∀ error, body.field "error" = some error → truthy error = false) ∧
    body.field "result" = some raw ∧ readQuote raw = .ok q

theorem QuotedIn.mono {later : ClientLog} {r : QuoteRequest} {q : RelayerQuote}
    (quoted : QuotedIn log r q) (kept : log ⊆ later) : QuotedIn later r q := by
  obtain ⟨params,body,raw,encoded,posted,fine⟩ := quoted
  exact ⟨params,body,raw,encoded,kept posted,fine⟩

theorem await_runs {query : ClientQuery} {a : query.Answer} (ran : (await query).Runs log (.ok a)) :
    log = [.answered query (.ok a)] := runs_ask ran

theorem lift_runs {x : Except Thrown α} {a : α}
    (ran : (liftM x : Client α).Runs log (.ok a)) : log = [] ∧ x = .ok a := by
  obtain ⟨empty,returned⟩ := runs_done ran
  exact ⟨empty,returned.symm⟩

theorem request_runs {method : String} {params : List Json} {result : Option Json}
    (ran : (request method params).Runs log (.ok result)) : ∃ body,
      log = [.answered (.post (requestBody method params)) (.ok body)] ∧
      (∀ error, body.field "error" = some error → truthy error = false) ∧
      body.field "result" = result := by
  obtain ⟨body,_,_,posted,reading,rfl⟩ := runs_bind_ok ran
  obtain ⟨error,_,_,read,returns,rfl⟩ := runs_bind_ok reading
  obtain ⟨rfl,found⟩ := lift_runs read
  rw [await_runs posted]
  have field : body.field "error" = error := by
    cases body <;> first | exact Except.ok.inj found | cases found
  split at returns
  · next absent =>
    obtain ⟨rfl,returned⟩ := runs_done returns
    refine ⟨body,rfl,?_,(Except.ok.inj returned).symm⟩
    simp [field]
  · next thrown =>
    split at returns
    · obtain ⟨_,impossible⟩ := runs_done returns
      cases impossible
    · next harmless =>
      obtain ⟨rfl,returned⟩ := runs_done returns
      refine ⟨body,rfl,?_,(Except.ok.inj returned).symm⟩
      intro error found
      rw [field] at found
      cases found
      simpa using harmless

theorem quote_runs {r : QuoteRequest} {q : RelayerQuote} (ran : (quote r).Runs log (.ok q)) :
    QuotedIn log r q := by
  obtain ⟨params,_,_,encodes,requesting,rfl⟩ := runs_bind_ok ran
  obtain ⟨rfl,encoded⟩ := lift_runs encodes
  obtain ⟨result,_,_,requested,reads,rfl⟩ := runs_bind_ok requesting
  obtain ⟨body,rfl,fine,found⟩ := request_runs requested
  split at reads
  · obtain ⟨_,impossible⟩ := runs_done reads
    cases impossible
  · obtain ⟨rfl,read⟩ := lift_runs reads
    exact ⟨params,body,_,encoded,by simp,fine,found,read⟩

theorem checkRoot_runs {path : MerklePath} (ran : (checkRoot p path).Runs log (.ok ())) :
    path.root < 256 ^ 32 ∧
      .answered (.isKnownRoot p.instance_ (BitVec.ofNat _ path.root)) (.ok true) ∈ log := by
  obtain ⟨root,_,_,converts,asking,rfl⟩ := runs_bind_ok ran
  obtain ⟨rfl,fits⟩ := lift_runs converts
  obtain ⟨known,_,_,asked,returns,rfl⟩ := runs_bind_ok asking
  obtain ⟨_,upper,rfl⟩ := numberToHex_ok_iff.mp fits
  rw [await_runs asked]
  split at returns
  · next yes =>
    subst yes
    exact ⟨by exact_mod_cast upper,by simp⟩
  · obtain ⟨_,impossible⟩ := runs_done returns
    cases impossible

theorem prove_runs {path : MerklePath} {relayerAddress : Option Json} {fee : Int}
    {output : TornadoProveOutput} (ran : (prove p path relayerAddress fee).Runs log (.ok output)) :
    ∃ relayer, hexToBigInt relayerAddress = .ok relayer ∧
      .answered (.prove (proveInputs p path relayer fee)) (.ok output) ∈ log := by
  obtain ⟨relayer,_,_,reads,proves,rfl⟩ := runs_bind_ok ran
  obtain ⟨rfl,read⟩ := lift_runs reads
  rw [await_runs proves]
  exact ⟨relayer,read,by simp⟩

/-- The proof is for the fee of the quote, and for its relayer or that of a quote of the same fee. -/
def Proved (p : SponsoredWithdrawParams) (log : ClientLog) (path : MerklePath)
    (first last : RelayerQuote) (proof : TornadoProveOutput) : Prop :=
  ∃ relayer, hexToBigInt (if last.fee = first.fee then first else last).relayer = .ok relayer ∧
    .answered (.prove (proveInputs p path relayer last.fee)) (.ok proof) ∈ log

theorem sizeOperation_runs {denomination : Nat} {path : MerklePath} {asset : Option Json}
    {delegated : Bool} {first last : RelayerQuote} {proof again : TornadoProveOutput}
    {before : ClientLog} (proved : Proved p before path first first proof)
    (ran : (sizeOperation lib p denomination path asset delegated first proof).Runs log
      (.ok (last,again))) :
    (∃ request est, .answered (.estimateUserOperationGas request) (.ok est) ∈ log ∧
      QuotedIn log ⟨p.instance_,none,some (QuotedGas.overrides (bumped est first.gas)),
        some first.maxFeePerGas⟩ last) ∧
    Proved p (before ++ log) path first last again := by
  obtain ⟨calls,_,_,builds,estimating,rfl⟩ := runs_bind_ok ran
  obtain ⟨rfl,_⟩ := lift_runs builds
  obtain ⟨est,_,_,estimated,quoting,rfl⟩ := runs_bind_ok estimating
  obtain ⟨requote,_,_,quoted,proving,rfl⟩ := runs_bind_ok quoting
  rw [await_runs estimated]
  split at proving
  · next moved =>
    obtain ⟨output,_,_,proves,returns,rfl⟩ := runs_bind_ok proving
    obtain ⟨rfl,returned⟩ := runs_done returns
    cases returned
    obtain ⟨relayer,read,answered⟩ := prove_runs proves
    constructor
    · refine ⟨_,est,List.mem_cons_self,(quote_runs quoted).mono ?_⟩
      intro e member
      simp [member]
    · refine ⟨relayer,?_,?_⟩
      · rw [if_neg moved]
        exact read
      · simp [answered]
  · next same =>
    rw [not_not] at same
    obtain ⟨rfl,returned⟩ := runs_done proving
    cases returned
    constructor
    · refine ⟨_,est,List.mem_cons_self,(quote_runs quoted).mono ?_⟩
      intro e member
      simp [member]
    · obtain ⟨relayer,read,answered⟩ := proved
      rw [if_pos rfl] at read
      refine ⟨relayer,?_,?_⟩
      · rw [if_pos same]
        exact read
      · rw [same]
        exact List.mem_append_left _ answered

/-- What is known when the operation is ready. -/
structure Readied (lib : Libraries) (p : SponsoredWithdrawParams) (log : ClientLog)
    (path : MerklePath) (first : RelayerQuote) (ready : Prepared) : Prop where
  denomination : .answered (.denomination p.instance_) (.ok ready.denomination) ∈ log
  located : merklePath lib.tree p.leaves p.note.commitment = .ok path
  root : path.root < 256 ^ 32
  known : .answered (.isKnownRoot p.instance_ (BitVec.ofNat _ path.root)) (.ok true) ∈ log
  quoted : QuotedIn log ⟨p.instance_,p.tailCallsGas,none,none⟩ first
  asset : ready.asset = first.feeToken
  skipped : p.skipEstimation = true → ready.quote = first
  sized : p.skipEstimation = false → ∃ request est,
    .answered (.estimateUserOperationGas request) (.ok est) ∈ log ∧
    QuotedIn log ⟨p.instance_,none,some (QuotedGas.overrides (bumped est first.gas)),
      some first.maxFeePerGas⟩ ready.quote
  proved : Proved p log path first ready.quote ready.proof

theorem prepare_runs {ready : Prepared} (ran : (prepare lib p).Runs log (.ok ready)) :
    ∃ path first, Readied lib p log path first ready := by
  obtain ⟨denomination,_,_,read,seeking,rfl⟩ := runs_bind_ok ran
  obtain ⟨path,_,_,seeks,checking,rfl⟩ := runs_bind_ok seeking
  obtain ⟨rfl,found⟩ := lift_runs seeks
  obtain ⟨⟨⟩,_,_,checked,quoting,rfl⟩ := runs_bind_ok checking
  obtain ⟨first,_,_,quoted,proving,rfl⟩ := runs_bind_ok quoting
  obtain ⟨proof,_,_,proves,deploying,rfl⟩ := runs_bind_ok proving
  obtain ⟨delegated,_,_,deployed,sizing,rfl⟩ := runs_bind_ok deploying
  obtain ⟨⟨last,again⟩,_,_,sizes,returns,rfl⟩ := runs_bind_ok sizing
  obtain ⟨rfl,returned⟩ := runs_done returns
  cases returned
  obtain ⟨root,known⟩ := checkRoot_runs checked
  obtain ⟨relayer,address,answered⟩ := prove_runs proves
  rw [await_runs read]
  refine ⟨path,first,by simp,found,root,by simp [known],?_,rfl,?_,?_,?_⟩
  · apply (quote_runs quoted).mono
    intro e member
    simp [member]
  · intro skip
    rw [sizeUnlessSkipped,if_pos skip] at sizes
    obtain ⟨_,returned⟩ := runs_done sizes
    cases returned
    rfl
  · intro size
    rw [sizeUnlessSkipped,if_neg (by simp [size])] at sizes
    have proved : Proved p _ path first first proof := ⟨relayer,by simpa using address,answered⟩
    obtain ⟨⟨request,est,estimated,requoted⟩,_⟩ := sizeOperation_runs proved sizes
    refine ⟨request,est,by simp [estimated],requoted.mono ?_⟩
    intro e member
    simp [member]
  · rw [sizeUnlessSkipped] at sizes
    split at sizes
    · obtain ⟨_,returned⟩ := runs_done sizes
      cases returned
      exact ⟨relayer,by simpa using address,by simp [answered]⟩
    · have proved : Proved p _ path first first proof := ⟨relayer,by simpa using address,answered⟩
      obtain ⟨_,relayer',address',answered'⟩ := sizeOperation_runs proved sizes
      refine ⟨relayer',address',?_⟩
      rcases List.mem_append.mp answered' with early | late
      · simp [early]
      · simp [late]

/-! ### The operation -/

/-- An operation is handed to the bundler. -/
def Sends : Logged clientInterface → Prop
  | .answered (.sendUserOperation ..) _ => True
  | _ => False

theorem await_logs {query : ClientQuery} (quiet : ∀ r, ¬Sends (.answered query r)) :
    (await query).Logs (¬Sends ·) := logs_ask quiet

theorem lift_logs (x : Except Thrown α) : (liftM x : Client α).Logs (¬Sends ·) := logs_done _

theorem request_logs (method : String) (params : List Json) :
    (request method params).Logs (¬Sends ·) := by
  apply logs_bind (await_logs fun _ => id)
  intro body
  apply logs_bind (lift_logs _)
  intro error
  split
  · exact logs_done _
  · split <;> exact logs_done _

theorem quote_logs (r : QuoteRequest) : (quote r).Logs (¬Sends ·) := by
  apply logs_bind (lift_logs _)
  intro params
  apply logs_bind (request_logs _ _)
  intro raw
  split
  · exact logs_done _
  · exact lift_logs _

theorem prove_logs (path : MerklePath) (relayerAddress : Option Json) (fee : Int) :
    (prove p path relayerAddress fee).Logs (¬Sends ·) :=
  logs_bind (lift_logs _) fun _ => await_logs fun _ => id

theorem checkRoot_logs (path : MerklePath) : (checkRoot p path).Logs (¬Sends ·) := by
  apply logs_bind (lift_logs _)
  intro root
  apply logs_bind (await_logs fun _ => id)
  intro known
  split <;> exact logs_done _

theorem sizeUnlessSkipped_logs (denomination : Nat) (path : MerklePath) (asset : Option Json)
    (delegated : Bool) (first : RelayerQuote) (proof : TornadoProveOutput) :
    (sizeUnlessSkipped lib p denomination path asset delegated first proof).Logs (¬Sends ·) := by
  unfold sizeUnlessSkipped
  split
  · exact logs_done _
  apply logs_bind (lift_logs _)
  intro calls
  apply logs_bind (await_logs fun _ => id)
  intro est
  apply logs_bind (quote_logs _)
  intro requote
  split
  · exact logs_bind (prove_logs _ _ _) fun _ => logs_done _
  · exact logs_done _

theorem prepare_logs : (prepare lib p).Logs (¬Sends ·) := by
  apply logs_bind (await_logs fun _ => id)
  intro denomination
  apply logs_bind (lift_logs _)
  intro path
  apply logs_bind (checkRoot_logs path)
  intro _
  apply logs_bind (quote_logs _)
  intro first
  apply logs_bind (prove_logs _ _ _)
  intro proof
  apply logs_bind (await_logs fun _ => id)
  intro delegated
  exact logs_bind (sizeUnlessSkipped_logs _ _ _ _ _ _) fun _ => logs_done _

theorem authorize_logs (delegated : Bool) : (authorize lib p delegated).Logs (¬Sends ·) := by
  unfold authorize
  split
  · exact logs_done _
  apply logs_bind (await_logs fun _ => id)
  intro nonce
  exact logs_bind (await_logs fun _ => id) fun _ => logs_done _

/-- The authorization that goes with the operation: none once the sender is delegated. -/
def Authorized (lib : Libraries) (p : SponsoredWithdrawParams) (log : ClientLog) (delegated : Bool)
    (authorization : Option SignedAuthorization) : Prop :=
  if delegated then authorization = none
  else ∃ signed nonce, authorization = some signed ∧
    .answered (.getTransactionCount p.owner) (.ok nonce) ∈ log ∧
    .answered (.signAuthorization (implementation lib p) p.chainId nonce) (.ok signed) ∈ log

theorem authorize_runs {delegated : Bool} {authorization : Option SignedAuthorization}
    (ran : (authorize lib p delegated).Runs log (.ok authorization)) :
    Authorized lib p log delegated authorization := by
  unfold authorize at ran
  unfold Authorized
  split at ran
  · next already =>
    obtain ⟨_,returned⟩ := runs_done ran
    rw [if_pos already]
    exact Except.ok.inj returned
  · next fresh =>
    obtain ⟨nonce,_,_,counted,signing,rfl⟩ := runs_bind_ok ran
    obtain ⟨signed,_,_,signs,returns,rfl⟩ := runs_bind_ok signing
    obtain ⟨rfl,returned⟩ := runs_done returns
    rw [if_neg fresh,await_runs counted,await_runs signs]
    exact ⟨signed,nonce,Except.ok.inj returned,by simp,by simp⟩

/-- What is handed over, once it is ready; nothing but its receipt is asked for afterwards. -/
theorem send_runs {ready : Prepared} {out : Except Thrown SponsoredWithdrawResult}
    {e : Logged clientInterface} (ran : (send lib p ready).Runs log out) (member : e ∈ log)
    (sends : Sends e) : ∃ before after authorization calls sent,
      log = before ++ e :: after ∧ (∀ e ∈ before ++ after, ¬Sends e) ∧
      e = .answered (.sendUserOperation (quotedRequest lib p calls ready.quote ready.delegated)
        authorization) sent ∧
      buildCalls lib p ready.denomination ready.proof ready.quote.fee ready.asset
        ready.quote.paymaster = .ok calls ∧
      Authorized lib p before ready.delegated authorization := by
  obtain ⟨authorization,before,_,authorizes,building,rfl,later⟩ :=
    runs_bind_reached ran (authorize_logs _) member sends
  obtain ⟨calls,_,_,builds,sending,rfl,sent⟩ := runs_bind_reached building (lift_logs _) later sends
  obtain ⟨rfl,built⟩ := lift_runs builds
  have quiet (hash : Bytes32) :
      (do
        let receipt : Json ← await (.waitForUserOperationReceipt hash)
        return ({
          userOpHash := hash
          receipt
          sender := p.owner
          quote := ready.quote
          proof := ready.proof
          fee := ready.quote.fee
          amountToSender := ready.denomination - ready.quote.fee } : SponsoredWithdrawResult) :
        Client SponsoredWithdrawResult).Logs (¬Sends ·) :=
    logs_bind (await_logs fun _ => id) fun _ => logs_done _
  have unsent : ∀ e ∈ before, ¬Sends e := authorize_logs _ _ _ authorizes
  rcases runs_bind sending with ⟨hash,_,after,asked,waits,rfl⟩ | ⟨error,asked,rfl⟩
  · rw [runs_ask asked] at sent ⊢
    rcases List.mem_append.mp sent with here | beyond
    · obtain rfl := List.mem_singleton.mp here
      refine ⟨before,after,authorization,calls,_,by simp,?_,rfl,built,authorize_runs authorizes⟩
      intro e found
      rcases List.mem_append.mp found with early | late
      · exact unsent e early
      · exact quiet hash _ _ waits e late
    · exact absurd sends (quiet hash _ _ waits e beyond)
  · rw [runs_ask asked] at sent ⊢
    obtain rfl := List.mem_singleton.mp sent
    refine ⟨before,[],authorization,calls,_,by simp,?_,rfl,built,authorize_runs authorizes⟩
    simpa using unsent

/-! ### The withdrawal -/

/-- The withdrawal has these public inputs. -/
structure Opens (w : Withdrawal) (inputs : TornadoWithdrawInputs) : Prop where
  root : w.root.toNat = inputs.root
  nullifierHash : w.nullifierHash.toNat = inputs.nullifierHash
  recipient : w.recipient.toNat = inputs.recipient
  relayer : w.relayer.toNat = inputs.relayer
  fee : w.fee.toNat = inputs.fee

theorem toHexOf_ok {size : Nat} {v : Int} {bytes : Bytes} (shown : toHexOf size v = .ok bytes) :
    bytes.length = size ∧ ofBytes bytes = v ∧ (Word.ofBytes size bytes).toNat = v := by
  obtain ⟨n,converted,returned⟩ := bind_ok_iff.mp shown
  obtain ⟨lower,upper,rfl⟩ := numberToHex_ok_iff.mp converted
  cases returned
  have fits : v.toNat < 256 ^ size := (Int.toNat_lt lower).mpr (by exact_mod_cast upper)
  have value : ofBytes (toBytes size v.toNat) = v.toNat := ofBytes_toBytes fits
  have same : (v.toNat : Int) = v := Int.toNat_of_nonneg lower
  refine ⟨toBytes_length _ _,by rw [value,same],?_⟩
  rw [Word.ofBytes,value,BitVec.toNat_ofNat,two_pow_bytes,Nat.mod_eq_of_lt fits,same]

theorem bytesOf_ok {size : Nat} {bytes : Bytes} (long : bytes.length = size) (name : String) :
    bytesOf size bytes name = .ok (Word.ofBytes size bytes) := if_pos long

/-- The arguments that go with a proof are what it proves. -/
theorem relayWithdrawArgs_proved {proof : Bytes} {inputs : TornadoWithdrawInputs}
    {output : TornadoProveOutput} (shown : proveOutput proof inputs = .ok output) (pool : Address) :
    ∃ w, relayWithdrawArgs pool output = .ok w ∧ w.pool = pool ∧ w.proof = proof ∧ Opens w inputs := by
  obtain ⟨root,h1,shown⟩ := bind_ok_iff.mp shown
  obtain ⟨nullifierHash,h2,shown⟩ := bind_ok_iff.mp shown
  obtain ⟨recipient,h3,shown⟩ := bind_ok_iff.mp shown
  obtain ⟨relayer,h4,shown⟩ := bind_ok_iff.mp shown
  obtain ⟨fee,h5,shown⟩ := bind_ok_iff.mp shown
  obtain ⟨refund,_,shown⟩ := bind_ok_iff.mp shown
  cases shown
  obtain ⟨l1,_,v1⟩ := toHexOf_ok h1
  obtain ⟨l2,_,v2⟩ := toHexOf_ok h2
  obtain ⟨l3,_,v3⟩ := toHexOf_ok h3
  obtain ⟨l4,_,v4⟩ := toHexOf_ok h4
  obtain ⟨l5,_,v5⟩ := toHexOf_ok h5
  have some : fee ≠ [] := by
    rintro rfl
    cases l5
  have fits : ofBytes fee < 256 ^ 32 := l5 ▸ ofBytes_lt fee
  have read : numberToHex 32 (ofBytes fee) = .ok (ofBytes fee) := by
    apply numberToHex_ok_iff.mpr
    exact ⟨Int.natCast_nonneg _,by exact_mod_cast fits,Int.toNat_natCast _⟩
  refine ⟨⟨pool,proof,Word.ofBytes 32 root,Word.ofBytes 32 nullifierHash,Word.ofBytes 20 recipient,
    Word.ofBytes 20 relayer,Word.ofBytes 32 fee⟩,?_,rfl,rfl,?_⟩
  · simp only [relayWithdrawArgs,if_neg some,bytesOf_ok l1,bytesOf_ok l2,bytesOf_ok l3,bytesOf_ok l4,
      read]
    rfl
  · exact ⟨by exact_mod_cast v1,by exact_mod_cast v2,v3,v4,v5⟩

/-- The prover answers with the proof of what it was given. -/
def HonestProver (log : ClientLog) : Prop :=
  ∀ inputs output, .answered (.prove inputs) (.ok output) ∈ log →
    ∃ proof, proveOutput proof inputs = .ok output

/-- An operation that is sent: its withdrawal is of the note, against a root that the pool knows,
to the sender, at the fee of the last quote; the tail calls get what is left of the
denomination; limits, prices and paymaster are those of the last quote. -/
structure Sent (lib : Libraries) (p : SponsoredWithdrawParams) (log : ClientLog)
    (request : OperationRequest) (authorization : Option SignedAuthorization) (path : MerklePath)
    (first last : RelayerQuote) (w : Withdrawal) : Prop where
  located : merklePath lib.tree p.leaves p.note.commitment = .ok path
  known : .answered (.isKnownRoot p.instance_ w.root) (.ok true) ∈ log
  quoted : QuotedIn log ⟨p.instance_,p.tailCallsGas,none,none⟩ first
  skipped : p.skipEstimation = true → last = first
  sized : p.skipEstimation = false → ∃ request est,
    .answered (.estimateUserOperationGas request) (.ok est) ∈ log ∧
    QuotedIn log ⟨p.instance_,none,some (QuotedGas.overrides (bumped est first.gas)),
      some first.maxFeePerGas⟩ last
  pool : w.pool = p.instance_
  root : w.root.toNat = path.root
  note : w.nullifierHash.toNat = p.note.nullifierHash
  recipient : w.recipient = p.owner
  relayer : hexToBigInt (if last.fee = first.fee then first else last).relayer = .ok w.relayer.toNat
  fee : w.fee.toNat = last.fee
  proof : ∃ output, .answered (.prove (proveInputs p path w.relayer.toNat w.fee.toNat)) (.ok output) ∈ log ∧
    proveOutput w.proof (proveInputs p path w.relayer.toNat w.fee.toNat) = .ok output
  calls : ∃ denomination : Nat, .answered (.denomination p.instance_) (.ok denomination) ∈ log ∧
    request.calls = ⟨last.paymaster,some 0,some (lib.encodeRelayWithdraw w)⟩ ::
      p.tailCalls p.owner (denomination - w.fee.toNat) first.feeToken
  gas : request.gas = last.gas
  maxFeePerGas : request.maxFeePerGas = last.maxFeePerGas
  maxPriorityFeePerGas : request.maxPriorityFeePerGas = last.maxPriorityFeePerGas
  refundTo : request.refundTo = p.refundTo
  delegation : ∃ delegated, Authorized lib p log delegated authorization ∧
    request.stateOverride = stateOverride lib p delegated

theorem bitVec_of_cast {n : Nat} {v w : BitVec n} (same : (v.toNat : Int) = w.toNat) : v = w :=
  BitVec.toNat_inj.mp (by exact_mod_cast same)

theorem Readied.sent {path : MerklePath} {first : RelayerQuote}
    {ready : Prepared} {calls : List TailCall} {authorization : Option SignedAuthorization}
    (readied : Readied lib p log path first ready) (honest : HonestProver log)
    (built : buildCalls lib p ready.denomination ready.proof ready.quote.fee ready.asset
      ready.quote.paymaster = .ok calls)
    (authorized : Authorized lib p log ready.delegated authorization) :
    ∃ w, Sent lib p log (quotedRequest lib p calls ready.quote ready.delegated) authorization path
      first ready.quote w := by
  obtain ⟨relayer,address,answered⟩ := readied.proved
  obtain ⟨proof,shown⟩ := honest _ _ answered
  obtain ⟨w,args,pool,same,opens⟩ := relayWithdrawArgs_proved shown p.instance_
  obtain ⟨w',args',returned⟩ := bind_ok_iff.mp built
  obtain rfl : w = w' := Except.ok.inj (args.symm.trans args')
  cases returned
  have fee : (w.fee.toNat : Int) = ready.quote.fee := opens.fee
  have root : w.root = BitVec.ofNat _ path.root := by
    apply BitVec.toNat_inj.mp
    rw [opens.root,BitVec.toNat_ofNat]
    exact (Nat.mod_eq_of_lt readied.root).symm
  refine ⟨w,{
    located := readied.located
    known := ?_
    quoted := readied.quoted
    skipped := readied.skipped
    sized := readied.sized
    pool
    root := opens.root
    note := opens.nullifierHash
    recipient := bitVec_of_cast opens.recipient
    relayer := ?_
    fee
    proof := ?_
    calls := ?_
    gas := rfl
    maxFeePerGas := rfl
    maxPriorityFeePerGas := rfl
    refundTo := rfl
    delegation := ⟨_,authorized,rfl⟩ }⟩
  · rw [root]
    exact readied.known
  · rw [address]
    exact congrArg Except.ok opens.relayer.symm
  · have inputs : proveInputs p path w.relayer.toNat w.fee.toNat =
        proveInputs p path relayer ready.quote.fee := by
      rw [fee,opens.relayer]
      rfl
    rw [inputs,same]
    exact ⟨_,answered,shown⟩
  · refine ⟨ready.denomination,readied.denomination,?_⟩
    rw [quotedRequest,fee,readied.asset]

theorem Authorized.mono {before after : ClientLog} {delegated : Bool}
    {authorization : Option SignedAuthorization} (authorized : Authorized lib p before delegated authorization)
    (sub : before ⊆ after) : Authorized lib p after delegated authorization := by
  unfold Authorized at authorized ⊢
  split
  · simpa [*] using authorized
  · next fresh =>
    rw [if_neg fresh] at authorized
    obtain ⟨signed,nonce,same,counted,signs⟩ := authorized
    exact ⟨signed,nonce,same,sub counted,sub signs⟩

theorem Readied.mono {before after : ClientLog} {path : MerklePath} {first : RelayerQuote}
    {ready : Prepared} (readied : Readied lib p before path first ready) (sub : before ⊆ after) :
    Readied lib p after path first ready := by
  obtain ⟨relayer,address,answered⟩ := readied.proved
  refine { readied with
    denomination := sub readied.denomination
    known := sub readied.known
    quoted := readied.quoted.mono sub
    sized := ?_
    proved := ⟨relayer,address,sub answered⟩ }
  intro size
  obtain ⟨request,est,estimated,quoted⟩ := readied.sized size
  exact ⟨request,est,sub estimated,quoted.mono sub⟩

/-- An operation that is sent is sent once, as it was prepared. -/
theorem sent_once {out : Except Thrown SponsoredWithdrawResult}
    (ran : (sponsoredWithdraw lib p).Runs log out) (honest : HonestProver log)
    {e : Logged clientInterface} (member : e ∈ log) (sends : Sends e) :
    ∃ before after request authorization hash, log = before ++ e :: after ∧
      (∀ e ∈ before ++ after, ¬Sends e) ∧
      e = .answered (.sendUserOperation request authorization) hash ∧
      ∃ path first last w, Sent lib p before request authorization path first last w := by
  obtain ⟨ready,prepared,_,prepares,sending,rfl,later⟩ :=
    runs_bind_reached ran prepare_logs member sends
  obtain ⟨before,after,authorization,calls,sent,rfl,quiet,same,built,authorized⟩ :=
    send_runs sending later sends
  obtain ⟨path,first,readied⟩ := prepare_runs prepares
  refine ⟨prepared ++ before,after,_,authorization,sent,by simp,?_,same,?_⟩
  · intro e found
    rw [List.append_assoc] at found
    rcases List.mem_append.mp found with early | late
    · exact prepare_logs _ _ prepares e early
    · exact quiet e late
  · have known : HonestProver (prepared ++ before) := by
      intro inputs output answered
      apply honest inputs output
      rw [← List.append_assoc]
      exact List.mem_append_left _ answered
    obtain ⟨w,holds⟩ := (readied.mono (List.subset_append_left _ _)).sent known built
      (authorized.mono (List.subset_append_right _ _))
    exact ⟨path,first,_,w,holds⟩

/-- What is returned is what was sent. -/
theorem returned_sent {result : SponsoredWithdrawResult}
    (ran : (sponsoredWithdraw lib p).Runs log (.ok result)) (honest : HonestProver log) :
    ∃ request authorization path first w, Sent lib p log request authorization path first result.quote w ∧
      .answered (.sendUserOperation request authorization) (.ok result.userOpHash) ∈ log ∧
      result.sender = w.recipient ∧ result.fee = w.fee.toNat ∧
      ∃ denomination : Nat, .answered (.denomination p.instance_) (.ok denomination) ∈ log ∧
        result.fee + result.amountToSender = denomination := by
  obtain ⟨ready,prepared,_,prepares,sends,rfl⟩ := runs_bind_ok ran
  obtain ⟨authorization,before,_,authorizes,building,rfl⟩ := runs_bind_ok sends
  obtain ⟨calls,_,_,builds,sending,rfl⟩ := runs_bind_ok building
  obtain ⟨rfl,built⟩ := lift_runs builds
  obtain ⟨hash,_,_,asked,waiting,rfl⟩ := runs_bind_ok sending
  obtain ⟨receipt,_,_,_,returns,rfl⟩ := runs_bind_ok waiting
  obtain ⟨rfl,returned⟩ := runs_done returns
  cases returned
  obtain ⟨path,first,readied⟩ := prepare_runs prepares
  rw [await_runs asked] at honest ⊢
  obtain ⟨w,holds⟩ := (readied.mono (List.subset_append_left _ _)).sent honest built
    ((authorize_runs authorizes).mono
      (List.Subset.trans (List.subset_append_left _ _) (List.subset_append_right _ _)))
  refine ⟨_,authorization,path,first,w,holds,by simp,holds.recipient.symm,holds.fee.symm,
    ready.denomination,List.mem_append_left _ readied.denomination,?_⟩
  simp

/-- Whatever the chain, the relayer and the bundler answer: at most one operation is sent; it
withdraws the note to its sender against a root that the pool knows, at the fee that was quoted
last, and hands the tail calls what is left; and what is returned says so. -/
theorem sent_operation_pays {out : Except Thrown SponsoredWithdrawResult}
    (ran : (sponsoredWithdraw lib p).Runs log out) (honest : HonestProver log) :
    (∀ e ∈ log, Sends e → ∃ before after request authorization hash, log = before ++ e :: after ∧
      (∀ e ∈ before ++ after, ¬Sends e) ∧
      e = .answered (.sendUserOperation request authorization) hash ∧
      ∃ path first last w, Sent lib p before request authorization path first last w) ∧
    ∀ result, out = .ok result → ∃ request authorization path first w,
      Sent lib p log request authorization path first result.quote w ∧
      .answered (.sendUserOperation request authorization) (.ok result.userOpHash) ∈ log ∧
      result.sender = w.recipient ∧ result.fee = w.fee.toNat ∧
      ∃ denomination : Nat, .answered (.denomination p.instance_) (.ok denomination) ∈ log ∧
        result.fee + result.amountToSender = denomination := by
  constructor
  · intro e member sends
    exact sent_once ran honest member sends
  · intro result returned
    subst returned
    exact returned_sent ran honest

/-! ### A run -/

def sampleLibraries : Libraries where
  tree := sampleTree
  encodeRelayWithdraw := relayWithdrawCall
  defaultImplementation := SIMPLE_7702_ACCOUNT

def sampleParams : SponsoredWithdrawParams where
  chainId := 1
  instance_ := samplePool
  note := {
    nullifier := 1
    secret := 2
    commitment := Tornado.sampleCommitment.toNat
    nullifierHash := 1
    preimage := [] }
  leaves := [Tornado.sampleCommitment.toNat]
  owner := sampleAccount
  refundTo := 0xa1
  tailCalls _ _ _ := []
  tailCallsGas := none
  implementation := none
  skipEstimation := false

/-- Everything goes well; the relayer answers like this. -/
def clientAnswers (relayer : Json → Except Thrown Json) :
    (query : ClientQuery) → Except Thrown query.Answer
  | .denomination _ => .ok (10 ^ 17)
  | .isKnownRoot .. => .ok true
  | .post body => relayer body
  | .prove inputs => proveOutput [] inputs
  | .isDeployed => .ok false
  | .estimateUserOperationGas _ => .ok ⟨600000,100000,80000,some 50000,some 90000⟩
  | .getTransactionCount _ => .ok 0
  | .signAuthorization address chainId nonce => .ok ⟨address,chainId,nonce,[]⟩
  | .sendUserOperation .. => .ok 7
  | .waitForUserOperationReceipt _ => .ok .null

def clientResults : (op : Empty) → Empty := id

theorem clientAnswers_honest {relayer : Json → Except Thrown Json} (p : Client α) :
    HonestProver (p.trace (I := clientInterface) (clientAnswers relayer) clientResults) := by
  intro inputs output answered
  have same : Except.ok output = proveOutput [] inputs := trace_answered (I := clientInterface) answered
  exact ⟨[],same.symm⟩

/-- A response that quotes a hundredth of an ether, whatever the gas. -/
def sampleResponse : Json := .object [("jsonrpc",.string "2.0"),("id",.number 1),("result",.object [
  ("relayer",.string (toHex samplePaymaster.bytes)),("paymaster",.string (toHex samplePaymaster.bytes)),
  ("denomination",.string "0x16345785d8a0000"),("feeToken",.string (toHex zeroAddress.bytes)),
  ("tokenPerEth",.string "0x0"),("serviceFee",.string "0x0"),("serviceFeeBps",.string "0x0"),
  ("gasMarginBps",.string "0x0"),("gas",.object [("callGasLimit",.string "0x927c0"),
    ("verificationGasLimit",.string "0x186a0"),("preVerificationGas",.string "0x15f90"),
    ("paymasterVerificationGasLimit",.string "0xea60"),("paymasterPostOpGasLimit",.string "0x15f90")]),
  ("maxFeePerGas",.string "0x3b9aca00"),("maxPriorityFeePerGas",.string "0x3b9aca00"),
  ("fee",.string "0x2386f26fc10000")])]

theorem sent_operation_pays_sample : ∃ log result,
    (sponsoredWithdraw sampleLibraries sampleParams).Runs log (.ok result) ∧
    result.fee + result.amountToSender = 10 ^ 17 := by
  let answer := clientAnswers fun _ => .ok sampleResponse
  have ran := runs_trace (I := clientInterface) answer clientResults
    (sponsoredWithdraw sampleLibraries sampleParams)
  have returns : ((sponsoredWithdraw sampleLibraries sampleParams).eval (I := clientInterface) answer
      clientResults).toBool = true := by
    decide +kernel
  obtain ⟨result,out⟩ := ok_of_toBool returns
  rw [out] at ran
  obtain ⟨_,_,_,_,_,_,_,_,_,denomination,read,whole⟩ :=
    (sent_operation_pays ran (clientAnswers_honest _)).2 result rfl
  have same : Except.ok denomination = .ok (10 ^ 17) := trace_answered (I := clientInterface) read
  cases same
  exact ⟨_,result,ran,by exact_mod_cast whole⟩

end TornadoRelayer.Flow
