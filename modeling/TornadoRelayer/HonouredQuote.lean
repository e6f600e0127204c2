import TornadoRelayer.FailClosed
import TornadoRelayer.Quote

/-! What the client reads of a quote, against the checks of `sign` that an operation at the
quoted limits meets later. -/
namespace TornadoRelayer.Quoting

open BigEndian EventLoop JavaScript RelayerService

/-! ### The trip -/

theorem quantityText_ok {v : Int} {text : Json} (written : quantityText v = .ok text) :
    0 ≤ v ∧ hexToBigInt (some text) = .ok v := by
  rw [quantityText] at written
  split at written
  · cases written
  · next nonneg =>
    cases written
    refine ⟨not_lt.mp nonneg,?_⟩
    rw [hexToBigInt,parseBigInt,bigIntOfJson,bigIntOfText_hex]
    exact congrArg Except.ok (Int.toNat_of_nonneg (not_lt.mp nonneg))

/-- What the client should read of a quote. -/
def received (quote : Quote) : RelayerQuote where
  relayer := some (.string (addressText quote.relayer))
  paymaster := some (.string (addressText quote.paymaster))
  entryPoint := some (.string (addressText quote.entryPoint))
  instance_ := some (.string (addressText quote.instance_))
  denomination := quote.denomination
  feeToken := some (.string (addressText quote.feeToken))
  decimals := some (.number quote.decimals)
  symbol := some (.string quote.symbol)
  tokenPerEth := quote.tokenPerEth
  serviceFee := quote.serviceFee
  serviceFeeBps := quote.serviceFeeBps
  gasMarginBps := quote.gasMarginBps
  gas := quote.gas
  maxFeePerGas := quote.maxFeePerGas
  maxPriorityFeePerGas := quote.maxPriorityFeePerGas
  fee := quote.fee
  validForSec := some (.number quote.validForSec)

structure QuotedGas.Nonneg (gas : QuotedGas) : Prop where
  callGasLimit : 0 ≤ gas.callGasLimit
  verificationGasLimit : 0 ≤ gas.verificationGasLimit
  preVerificationGas : 0 ≤ gas.preVerificationGas
  paymasterVerificationGasLimit : 0 ≤ gas.paymasterVerificationGasLimit
  paymasterPostOpGasLimit : 0 ≤ gas.paymasterPostOpGasLimit

/-- The quantities that the texts of an answer can carry. -/
structure Quote.Nonneg (quote : Quote) : Prop where
  gas : quote.gas.Nonneg
  maxFeePerGas : 0 ≤ quote.maxFeePerGas
  gasMarginBps : 0 ≤ quote.gasMarginBps
  tokenPerEth : 0 ≤ quote.tokenPerEth

/-- An answer that is sent is read as it was meant. -/
theorem readQuote_encodeQuote {quote : Quote} {json : Json} (sent : encodeQuote quote = .ok json) :
    quote.Nonneg ∧ readQuote json = .ok (received quote) := by
  obtain ⟨denomination,h1,sent⟩ := bind_ok_iff.mp sent
  obtain ⟨tokenPerEth,h2,sent⟩ := bind_ok_iff.mp sent
  obtain ⟨serviceFeeBps,h3,sent⟩ := bind_ok_iff.mp sent
  obtain ⟨serviceFee,h4,sent⟩ := bind_ok_iff.mp sent
  obtain ⟨gasMarginBps,h5,sent⟩ := bind_ok_iff.mp sent
  obtain ⟨gas,h6,sent⟩ := bind_ok_iff.mp sent
  obtain ⟨maxFeePerGas,h7,sent⟩ := bind_ok_iff.mp sent
  obtain ⟨maxPriorityFeePerGas,h8,sent⟩ := bind_ok_iff.mp sent
  obtain ⟨fee,h9,sent⟩ := bind_ok_iff.mp sent
  obtain ⟨callGasLimit,g1,h6⟩ := bind_ok_iff.mp h6
  obtain ⟨verificationGasLimit,g2,h6⟩ := bind_ok_iff.mp h6
  obtain ⟨preVerificationGas,g3,h6⟩ := bind_ok_iff.mp h6
  obtain ⟨paymasterVerificationGasLimit,g4,h6⟩ := bind_ok_iff.mp h6
  obtain ⟨paymasterPostOpGasLimit,g5,h6⟩ := bind_ok_iff.mp h6
  cases h6
  cases sent
  refine ⟨⟨⟨(quantityText_ok g1).1,(quantityText_ok g2).1,(quantityText_ok g3).1,
    (quantityText_ok g4).1,(quantityText_ok g5).1⟩,(quantityText_ok h7).1,(quantityText_ok h5).1,
    (quantityText_ok h2).1⟩,?_⟩
  refine bind_ok_iff.mpr ⟨_,rfl,?_⟩
  refine bind_ok_iff.mpr ⟨_,(quantityText_ok h1).2,?_⟩
  refine bind_ok_iff.mpr ⟨_,(quantityText_ok h2).2,?_⟩
  refine bind_ok_iff.mpr ⟨_,(quantityText_ok h4).2,?_⟩
  refine bind_ok_iff.mpr ⟨_,(quantityText_ok h3).2,?_⟩
  refine bind_ok_iff.mpr ⟨_,(quantityText_ok h5).2,?_⟩
  refine bind_ok_iff.mpr ⟨_,rfl,bind_ok_iff.mpr ⟨_,(quantityText_ok g1).2,?_⟩⟩
  refine bind_ok_iff.mpr ⟨_,rfl,bind_ok_iff.mpr ⟨_,(quantityText_ok g2).2,?_⟩⟩
  refine bind_ok_iff.mpr ⟨_,rfl,bind_ok_iff.mpr ⟨_,(quantityText_ok g3).2,?_⟩⟩
  refine bind_ok_iff.mpr ⟨_,rfl,bind_ok_iff.mpr ⟨_,(quantityText_ok g4).2,?_⟩⟩
  refine bind_ok_iff.mpr ⟨_,rfl,bind_ok_iff.mpr ⟨_,(quantityText_ok g5).2,?_⟩⟩
  refine bind_ok_iff.mpr ⟨_,(quantityText_ok h7).2,?_⟩
  refine bind_ok_iff.mpr ⟨_,(quantityText_ok h8).2,?_⟩
  refine bind_ok_iff.mpr ⟨_,(quantityText_ok h9).2,?_⟩
  rfl

/-! ### The floor -/

/-- The gas limits of an operation among those of a quote. -/
def quotedGas (gas : UserOpGas) : QuotedGas where
  callGasLimit := gas.callGasLimit
  verificationGasLimit := gas.verificationGasLimit
  preVerificationGas := gas.preVerificationGas
  paymasterVerificationGasLimit := gas.paymasterVerificationGasLimit
  paymasterPostOpGasLimit := gas.paymasterPostOpGasLimit

theorem quotedGas_total (gas : UserOpGas) : (quotedGas gas).total = totalGas gas := by
  simp [quotedGas,QuotedGas.total,totalGas]

theorem quotedGas_nonneg (gas : UserOpGas) : (quotedGas gas).Nonneg := by
  constructor <;> simp [quotedGas]

/-- Quotes and signatures go by the same floor. -/
theorem minimumFee_quotedGas (gas : UserOpGas) (maxFeePerGas gasMarginBps serviceFee rate : Int) :
    minimumFee (quotedGas gas) maxFeePerGas gasMarginBps serviceFee rate =
      TornadoRelayer.minimumFee gas maxFeePerGas gasMarginBps serviceFee rate := by
  rw [minimumFee,quotedGas_total]
  rfl

structure QuotedGas.Within (gas limits : QuotedGas) : Prop where
  callGasLimit : gas.callGasLimit ≤ limits.callGasLimit
  verificationGasLimit : gas.verificationGasLimit ≤ limits.verificationGasLimit
  preVerificationGas : gas.preVerificationGas ≤ limits.preVerificationGas
  paymasterVerificationGasLimit :
    gas.paymasterVerificationGasLimit ≤ limits.paymasterVerificationGasLimit
  paymasterPostOpGasLimit : gas.paymasterPostOpGasLimit ≤ limits.paymasterPostOpGasLimit

theorem QuotedGas.Nonneg.total {gas : QuotedGas} (nonneg : gas.Nonneg) : 0 ≤ gas.total := by
  obtain ⟨_,_,_,_,_⟩ := nonneg
  rw [QuotedGas.total]
  omega

theorem QuotedGas.Within.total {gas limits : QuotedGas} (within : gas.Within limits) :
    gas.total ≤ limits.total := by
  obtain ⟨_,_,_,_,_⟩ := within
  rw [QuotedGas.total,QuotedGas.total]
  omega

theorem tdiv_mono {a b c : Int} (nonneg : 0 ≤ a) (less : a ≤ b) (positive : 0 < c) :
    a.tdiv c ≤ b.tdiv c := by
  rw [Int.tdiv_eq_ediv_of_nonneg nonneg,Int.tdiv_eq_ediv_of_nonneg (nonneg.trans less)]
  exact Int.ediv_le_ediv positive less

/-- The floor grows with each gas limit and with the price. -/
theorem minimumFee_mono {gas limits : QuotedGas} {price maxFeePerGas gasMarginBps rate : Int}
    (serviceFee : Int) (nonneg : gas.Nonneg) (within : gas.Within limits) (priced : 0 ≤ price)
    (cheaper : price ≤ maxFeePerGas) (margin : 0 ≤ gasMarginBps) (rated : 0 ≤ rate) :
    minimumFee gas price gasMarginBps serviceFee rate ≤
      minimumFee limits maxFeePerGas gasMarginBps serviceFee rate := by
  have total := nonneg.total
  have prefund : gas.total * price ≤ limits.total * maxFeePerGas :=
    mul_le_mul within.total cheaper priced (total.trans within.total)
  have start : 0 ≤ gas.total * price := mul_nonneg total priced
  have scaled : gas.total * price * gasMarginBps ≤ limits.total * maxFeePerGas * gasMarginBps :=
    mul_le_mul_of_nonneg_right prefund margin
  have extra := tdiv_mono (mul_nonneg start margin) scaled (by decide : (0 : Int) < BPS)
  have extra_nonneg : 0 ≤ (gas.total * price * gasMarginBps).tdiv BPS :=
    Int.tdiv_nonneg (mul_nonneg start margin) (by decide)
  have keepEth := add_le_add prefund extra
  have keepEth_nonneg := add_nonneg start extra_nonneg
  simp only [minimumFee]
  apply Int.add_le_add_right
  split
  · -- Rounding up at the rate keeps the order.
    have converted := mul_le_mul_of_nonneg_right keepEth rated
    have converted_nonneg := mul_nonneg keepEth_nonneg rated
    have scale : (0 : Int) < RATE_SCALE := by decide
    exact tdiv_mono (by omega) (by omega) scale
  · exact keepEth

/-! ### A quote and a signature -/

/-- What a returned quote is made of. -/
structure QuotedAt (s : QuotingService) (params : QuoteParams) (answers : QuoteAnswers)
    (quote : Quote) (info : InstanceInfo) : Prop where
  served : s.instanceOf params.instance_ = .ok info
  rate : rateFrom info answers.tokenPerEth = .ok quote.tokenPerEth
  denomination : quote.denomination = info.denomination
  gasMarginBps : quote.gasMarginBps = s.gasMarginBps
  serviceFee : quote.serviceFee = serviceFeeFor info.denomination s.config.serviceFeeBps
  fee : quote.fee = minimumFee quote.gas quote.maxFeePerGas quote.gasMarginBps quote.serviceFee
    quote.tokenPerEth
  affordable : quote.fee < quote.denomination
  priority : quote.maxPriorityFeePerGas ≤ quote.maxFeePerGas

theorem error_or_ok {c : Prop} [Decidable c] {e : Thrown} {x : Except Thrown α} {a : α}
    (ok : (if c then .error e else x) = .ok a) : ¬c ∧ x = .ok a := by
  split at ok
  · cases ok
  · next passed => exact ⟨passed,ok⟩

theorem clamped_le (tip price : Int) : (if tip > price then price else tip) ≤ price := by
  split <;> omega

theorem quote_ok {s : QuotingService} {params : QuoteParams} {answers : QuoteAnswers} {quoted : Quote}
    (returned : quote s params answers = .ok quoted) : ∃ info, QuotedAt s params answers quoted info := by
  obtain ⟨info,served,returned⟩ := bind_ok_iff.mp returned
  obtain ⟨fees,_,returned⟩ := bind_ok_iff.mp returned
  obtain ⟨tokenPerEth,rate,returned⟩ := bind_ok_iff.mp returned
  obtain ⟨affordable,returned⟩ := error_or_ok returned
  cases returned
  refine ⟨info,served,rate,rfl,rfl,rfl,rfl,not_le.mp affordable,?_⟩
  exact clamped_le _ _

/-- Everything that `sign` reads of an operation but its fee and its price. -/
structure Presents (s : RelayerService) (platform : Platform) (op : RpcUserOperation)
    (context : SponsorContext) (w : TornadoWithdrawCall) (gas : UserOpGas) (price priority : Nat) :
    Prop where
  paymaster : ¬(op.paymaster.isSome ∧ op.paymaster ≠ some s.config.paymaster)
  refundTo : context.refundTo ≠ some .invalid
  sponsoring : ∃ calls, decodeAccountCalls platform.decoder op.callData = .ok calls ∧
    findSponsoringWithdraw platform.decoder calls (s.rules op.sender) = .ok w
  gas : readGas op = .ok gas
  maxFeePerGas : q op.maxFeePerGas "maxFeePerGas" = .ok price
  maxPriorityFeePerGas : q op.maxPriorityFeePerGas "maxPriorityFeePerGas" = .ok priority

theorem checkRequest_presents {s : RelayerService} {platform : Platform} {op : RpcUserOperation}
    {context : SponsorContext} {w : TornadoWithdrawCall} {gas : UserOpGas} {price priority : Nat}
    {info : InstanceInfo} (presents : Presents s platform op context w gas price priority)
    (served : s.instanceOf w.pool = .ok info) (fee : w.fee.toNat ≤ info.denomination)
    (tip : priority ≤ price) :
    ∃ refundTo, s.checkRequest platform op context = .ok ⟨w,info,gas,price,refundTo⟩ := by
  obtain ⟨calls,decoded,found⟩ := presents.sponsoring
  unfold checkRequest
  rw [if_neg presents.paymaster]
  rcases named : context.refundTo with _ | (a | _)
  case some.invalid => exact absurd named presents.refundTo
  all_goals
    apply Exists.intro
    refine bind_ok_iff.mpr ⟨_,rfl,bind_ok_iff.mpr ⟨calls,decoded,bind_ok_iff.mpr ⟨w,found,
      bind_ok_iff.mpr ⟨info,served,?_⟩⟩⟩⟩
    rw [if_neg (not_lt.mpr fee)]
    refine bind_ok_iff.mpr ⟨gas,presents.gas,bind_ok_iff.mpr ⟨price,presents.maxFeePerGas,
      bind_ok_iff.mpr ⟨priority,presents.maxPriorityFeePerGas,?_⟩⟩⟩
    rw [if_neg (not_lt.mpr tip)]
    rfl

/-- What a quote promises of the checks that `sign` makes later. -/
structure Honoured (s : QuotingService) (platform : Platform) (instance_ : Address)
    (tokenPerEth : Except Thrown Int) (d : RelayerQuote) : Prop where
  rate : ∃ info, s.instanceOf instance_ = .ok info ∧
    ∀ (answer : (query : Query) → Except Thrown query.Answer) (result : (op : Op) → op.Result),
      answer (.tokenPerEth info.token info.decimals) = tokenPerEth →
      (rateFor info).eval (I := serviceInterface) answer result = .ok d.tokenPerEth
  priority : d.maxPriorityFeePerGas ≤ d.maxFeePerGas
  affordable : d.fee < d.denomination
  accepted : ∀ op context w gas price priority,
    Presents s.toRelayerService platform op context w gas price priority → w.pool = instance_ →
    (quotedGas gas).Within d.gas → (price : Int) ≤ d.maxFeePerGas → priority ≤ price →
    d.fee ≤ w.fee.toNat → (w.fee.toNat : Int) ≤ d.denomination →
    ∃ r, s.checkRequest platform op context = .ok r ∧ r.w = w ∧ s.checkFee r d.tokenPerEth = .ok ()
  refused : ∀ op context r, s.checkRequest platform op context = .ok r → r.w.pool = instance_ →
    quotedGas r.gas = d.gas → (r.maxFeePerGas : Int) = d.maxFeePerGas → (r.w.fee.toNat : Int) < d.fee →
    ∃ message, s.checkFee r d.tokenPerEth = .error (.validation message (-32002))
  floor : ∀ r : CheckedRequest, s.instanceOf instance_ = .ok r.info → quotedGas r.gas = d.gas →
    (r.maxFeePerGas : Int) = d.maxFeePerGas → s.floorFee r d.tokenPerEth = d.fee
  monotone : ∀ gas limits : UserOpGas, (quotedGas gas).Within (quotedGas limits) →
    ∀ price maxFeePerGas : Nat, price ≤ maxFeePerGas →
    TornadoRelayer.minimumFee gas price d.gasMarginBps d.serviceFee d.tokenPerEth ≤
      TornadoRelayer.minimumFee limits maxFeePerGas d.gasMarginBps d.serviceFee d.tokenPerEth

theorem checkFee_iff {s : RelayerService} {r : CheckedRequest} {rate : Int} :
    (s.checkFee r rate = .ok () ↔ s.floorFee r rate ≤ r.w.fee.toNat) ∧
    ((r.w.fee.toNat : Int) < s.floorFee r rate →
      ∃ message, s.checkFee r rate = .error (.validation message (-32002))) := by
  rw [checkFee]
  constructor
  · simp
  · intro below
    exact ⟨_,if_pos below⟩

/-- `sign` reads the rate as a quote does. -/
theorem rateFor_eval (info : InstanceInfo) (answer : (query : Query) → Except Thrown query.Answer)
    (result : (op : Op) → op.Result) :
    (rateFor info).eval (I := serviceInterface) answer result =
      rateFrom info (answer (.tokenPerEth info.token info.decimals)) := by
  by_cases eth : info.token = zeroAddress
  · simp only [rateFor,rateFrom.eq_def,if_pos eth]
    rfl
  · simp only [rateFor,rateFrom.eq_def,if_neg eth]
    change (Program.catching (I := serviceInterface)
      (.done (answer (.tokenPerEth info.token info.decimals))) _).eval answer result = _
    cases answer (.tokenPerEth info.token info.decimals) <;> rfl

/-- A quote that reaches the client is honoured. -/
theorem honoured_of_quoted {s : QuotingService} {params : QuoteParams} {answers : QuoteAnswers}
    {quote : Quote} {info : InstanceInfo} (platform : Platform)
    (quoted : QuotedAt s params answers quote info) (nonneg : quote.Nonneg) :
    Honoured s platform params.instance_ answers.tokenPerEth (received quote) := by
  have margin : 0 ≤ s.gasMarginBps := quoted.gasMarginBps ▸ nonneg.gasMarginBps
  have fee : quote.fee = minimumFee quote.gas quote.maxFeePerGas s.gasMarginBps
      (serviceFeeFor info.denomination s.config.serviceFeeBps) quote.tokenPerEth := by
    rw [quoted.fee,quoted.gasMarginBps,quoted.serviceFee]
  have floor (r : CheckedRequest) (served : s.instanceOf params.instance_ = .ok r.info) :
      s.floorFee r quote.tokenPerEth = minimumFee (quotedGas r.gas) r.maxFeePerGas s.gasMarginBps
        (serviceFeeFor info.denomination s.config.serviceFeeBps) quote.tokenPerEth := by
    have same : r.info = info := Except.ok.inj (served.symm.trans quoted.served)
    rw [floorFee,same,minimumFee_quotedGas]
  have exactly (r : CheckedRequest) (served : s.instanceOf params.instance_ = .ok r.info)
      (gas : quotedGas r.gas = quote.gas) (price : (r.maxFeePerGas : Int) = quote.maxFeePerGas) :
      s.floorFee r quote.tokenPerEth = quote.fee := by
    rw [floor r served,gas,price,fee]
  refine ⟨⟨info,quoted.served,?_⟩,quoted.priority,quoted.affordable,?_,?_,exactly,?_⟩
  · intro answer result same
    rw [rateFor_eval,same]
    exact quoted.rate
  · intro op context w gas price priority presents pool within cheaper tip enough affordable
    have served : s.instanceOf w.pool = .ok info := pool ▸ quoted.served
    have denomination : w.fee.toNat ≤ info.denomination := by
      have same : (received quote).denomination = info.denomination :=
        congrArg Nat.cast quoted.denomination
      rw [same] at affordable
      exact_mod_cast affordable
    obtain ⟨refundTo,checked⟩ := checkRequest_presents presents served denomination tip
    refine ⟨_,checked,rfl,checkFee_iff.1.mpr ?_⟩
    calc s.floorFee ⟨w,info,gas,price,refundTo⟩ quote.tokenPerEth
        = minimumFee (quotedGas gas) price s.gasMarginBps
            (serviceFeeFor info.denomination s.config.serviceFeeBps) quote.tokenPerEth :=
          floor ⟨w,info,gas,price,refundTo⟩ quoted.served
      _ ≤ quote.fee := by
          rw [fee]
          exact minimumFee_mono _ (quotedGas_nonneg gas) within (Int.natCast_nonneg price) cheaper
            margin nonneg.tokenPerEth
      _ ≤ w.fee.toNat := enough
  · intro op context r checked pool gas price below
    have served : s.instanceOf params.instance_ = .ok r.info := pool ▸ (checkRequest_ok checked).info
    exact checkFee_iff.2 (below.trans_eq (exactly r served gas price).symm)
  · intro gas limits within price maxFeePerGas cheaper
    rw [← minimumFee_quotedGas,← minimumFee_quotedGas]
    exact minimumFee_mono _ (quotedGas_nonneg gas) within (Int.natCast_nonneg price)
      (by exact_mod_cast cheaper) nonneg.gasMarginBps nonneg.tokenPerEth

theorem quote_honoured (s : QuotingService) (platform : Platform) :
    (∀ params answers quoted, quote s params answers = .ok quoted →
      quoted.maxPriorityFeePerGas ≤ quoted.maxFeePerGas ∧ quoted.fee < quoted.denomination) ∧
    ∀ p answers json, tornadoQuote s p answers = .ok json →
      ∃ params quoted, parseQuoteParams p = .ok params ∧ quote s params answers = .ok quoted ∧
        readQuote json = .ok (received quoted) ∧
        Honoured s platform params.instance_ answers.tokenPerEth (received quoted) := by
  constructor
  · intro params answers quoted returned
    obtain ⟨info,at_⟩ := quote_ok returned
    exact ⟨at_.priority,at_.affordable⟩
  · intro p answers json answered
    obtain ⟨params,parsed,answered⟩ := bind_ok_iff.mp answered
    obtain ⟨quoted,returned,sent⟩ := bind_ok_iff.mp answered
    obtain ⟨nonneg,read⟩ := readQuote_encodeQuote sent
    obtain ⟨info,at_⟩ := quote_ok returned
    exact ⟨params,quoted,parsed,returned,read,honoured_of_quoted platform at_ nonneg⟩

def quotingService : QuotingService where
  toRelayerService := sampleService .memory [SIMPLE_7702_ACCOUNT]
  gasPriceMarginBps := 11000

def sampleRequest : Json := .object [("instance",.string (toHex samplePool.bytes)),
  ("gas",.object [("callGasLimit",.string "0x927c0")]),("tailCallsGas",.number 50000)]

def sampleFees : QuoteAnswers where
  bundlerGasPrice := .error (.error "fetch failed")
  estimateFeesPerGas := .ok (10 ^ 9,10 ^ 8)
  tokenPerEth := .ok 0

theorem quote_honoured_eth : ∃ json params quoted,
    tornadoQuote quotingService sampleRequest sampleFees = .ok json ∧
    parseQuoteParams sampleRequest = .ok params ∧ readQuote json = .ok (received quoted) ∧
    Honoured quotingService (samplePlatform [1]) params.instance_ (.ok 0) (received quoted) := by
  have sends : (tornadoQuote quotingService sampleRequest sampleFees).toBool = true := by
    decide +kernel
  obtain ⟨json,answered⟩ := ok_of_toBool sends
  obtain ⟨params,quoted,parsed,_,read,honoured⟩ :=
    (quote_honoured quotingService (samplePlatform [1])).2 sampleRequest sampleFees json answered
  exact ⟨json,params,quoted,answered,parsed,read,honoured⟩

end TornadoRelayer.Quoting
