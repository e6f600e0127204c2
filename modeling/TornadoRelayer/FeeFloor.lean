import TornadoRelayer.Price
import TornadoRelayer.Service
import TornadoRelayer.Settlement

/-! The fee floor against what `postOp` keeps at the largest cost the gas limits allow. The
floor rounds up and the contract down, and they agree up to that unit wherever the rate is
not zero: the service takes a zero rate for an ETH instance, the contract goes by the token. -/
namespace TornadoRelayer

open BigEndian EventLoop JavaScript RelayerService Paymaster

/-! ### What the contract keeps -/

/-- `keepEth` or `keepToken` for this gas cost. -/
def keptFor (gasMarginBps : Nat) (feeToken : Address) (tokenPerEth serviceFee gasCost : Nat) : Nat :=
  let keepEth := gasCost + gasCost * gasMarginBps / BPS
  if feeToken = zeroAddress then keepEth + serviceFee
  else keepEth * tokenPerEth / RATE_SCALE + serviceFee

/-- Where nothing overflows, that is what `postOp` computes. -/
theorem keepAmount_kept {d : Deployment} {terms : Terms} {cost price keep : Nat}
    (computed : keepAmount d terms cost price = .ok keep) :
    keep = keptFor d.gasMarginBps.toNat terms.feeToken terms.tokenPerEth.toNat
      terms.serviceFee.toNat (cost + d.postOpGasOverhead.toNat * price) := by
  obtain ⟨overhead,h1,computed⟩ := bind_ok_iff.mp computed
  obtain ⟨gasCost,h2,computed⟩ := bind_ok_iff.mp computed
  obtain ⟨margin,h3,computed⟩ := bind_ok_iff.mp computed
  obtain ⟨keepEth,h4,computed⟩ := bind_ok_iff.mp computed
  rw [checked_ok h1,checked_ok h2]
  have eth : keepEth = gasCost + gasCost * d.gasMarginBps.toNat / BPS := by
    rw [checked_ok h3]
    exact (checked_ok h4).symm
  simp only [keptFor,← eth]
  split at computed
  · next token =>
    have none : terms.feeToken = zeroAddress := token
    rw [if_pos none]
    exact (checked_ok computed).symm
  · next token =>
    obtain ⟨scaled,h5,computed⟩ := bind_ok_iff.mp computed
    have some : ¬terms.feeToken = zeroAddress := token
    rw [if_neg some,checked_ok h5]
    exact (checked_ok computed).symm

theorem keptFor_mono {gasMarginBps tokenPerEth serviceFee cost cost' : Nat} {feeToken : Address}
    (less : cost ≤ cost') : keptFor gasMarginBps feeToken tokenPerEth serviceFee cost ≤
      keptFor gasMarginBps feeToken tokenPerEth serviceFee cost' := by
  have margin := Nat.div_le_div_right (c := BPS) (Nat.mul_le_mul_right gasMarginBps less)
  have eth := Nat.add_le_add less margin
  simp only [keptFor]
  split
  · omega
  · have token := Nat.div_le_div_right (c := RATE_SCALE) (Nat.mul_le_mul_right tokenPerEth eth)
    omega

/-! ### The floor -/

variable {gas : UserOpGas} {maxFeePerGas gasMarginBps serviceFee : Nat}

/-- What the EntryPoint can charge, and the margin on it. -/
def keepEthAtLimits (gas : UserOpGas) (maxFeePerGas gasMarginBps : Nat) : Nat :=
  totalGas gas * maxFeePerGas + totalGas gas * maxFeePerGas * gasMarginBps / BPS

theorem minimumFee_keepEth (tokenPerEth : Int) :
    minimumFee gas maxFeePerGas gasMarginBps serviceFee tokenPerEth =
      (if tokenPerEth ≠ 0 then ceilDiv (keepEthAtLimits gas maxFeePerGas gasMarginBps * tokenPerEth)
        RATE_SCALE else keepEthAtLimits gas maxFeePerGas gasMarginBps) + serviceFee := by
  have margin : ((totalGas gas : Int) * maxFeePerGas * gasMarginBps).tdiv BPS =
      ((totalGas gas * maxFeePerGas * gasMarginBps / BPS : Nat) : Int) := by
    rw [Int.tdiv_eq_ediv_of_nonneg (by positivity)]
    simp
  simp [minimumFee,keepEthAtLimits,margin]

theorem ceilDiv_cast (a : Nat) :
    ceilDiv a RATE_SCALE = ((a + (RATE_SCALE - 1)) / RATE_SCALE : Nat) := by
  have scale : RATE_SCALE = 1000000000000000000 := rfl
  rw [ceilDiv,Int.tdiv_eq_ediv_of_nonneg (by omega),scale]
  omega

/-- The floor is the worst case: what is kept at the limits, up to the rounding. -/
structure WorstCase (gas : UserOpGas) (maxFeePerGas gasMarginBps : Nat) (feeToken : Address)
    (tokenPerEth serviceFee : Nat) : Prop where
  kept : ∀ (d : Deployment) (terms : Terms) (cost price keep : Nat),
    d.gasMarginBps.toNat = gasMarginBps → terms.feeToken = feeToken →
    terms.tokenPerEth.toNat = tokenPerEth → terms.serviceFee.toNat = serviceFee →
    keepAmount d terms cost price = .ok keep →
    keep = keptFor gasMarginBps feeToken tokenPerEth serviceFee
      (cost + d.postOpGasOverhead.toNat * price)
  tight : ∃ rounding : Nat, rounding ≤ 1 ∧
    minimumFee gas maxFeePerGas gasMarginBps serviceFee tokenPerEth =
      keptFor gasMarginBps feeToken tokenPerEth serviceFee (totalGas gas * maxFeePerGas) + rounding
  monotone : ∀ cost cost', cost ≤ cost' → keptFor gasMarginBps feeToken tokenPerEth serviceFee cost ≤
    keptFor gasMarginBps feeToken tokenPerEth serviceFee cost'
  covered : ∀ cost, cost ≤ totalGas gas * maxFeePerGas →
    (keptFor gasMarginBps feeToken tokenPerEth serviceFee cost : Int) ≤
      minimumFee gas maxFeePerGas gasMarginBps serviceFee tokenPerEth
  signed : ∀ fee : Nat, minimumFee gas maxFeePerGas gasMarginBps serviceFee tokenPerEth ≤ fee →
    ∀ cost, cost ≤ totalGas gas * maxFeePerGas →
      keptFor gasMarginBps feeToken tokenPerEth serviceFee cost ≤ fee

/-- An ETH instance, a rate that is not zero, or no gas to speak of. -/
theorem tight_iff {feeToken : Address} {tokenPerEth : Nat}
    (eth : feeToken = zeroAddress → tokenPerEth = 0) :
    (∃ rounding : Nat, rounding ≤ 1 ∧
      minimumFee gas maxFeePerGas gasMarginBps serviceFee tokenPerEth =
        keptFor gasMarginBps feeToken tokenPerEth serviceFee (totalGas gas * maxFeePerGas) +
          rounding) ↔
    feeToken = zeroAddress ∨ tokenPerEth ≠ 0 ∨ keepEthAtLimits gas maxFeePerGas gasMarginBps ≤ 1 := by
  have limits : keptFor gasMarginBps feeToken tokenPerEth serviceFee (totalGas gas * maxFeePerGas) =
      if feeToken = zeroAddress then keepEthAtLimits gas maxFeePerGas gasMarginBps + serviceFee
      else keepEthAtLimits gas maxFeePerGas gasMarginBps * tokenPerEth / RATE_SCALE + serviceFee := rfl
  rw [limits,minimumFee_keepEth]
  generalize keepEthAtLimits gas maxFeePerGas gasMarginBps = keepEth
  have scale : RATE_SCALE = 1000000000000000000 := rfl
  by_cases token : feeToken = zeroAddress
  · simp [token,eth token]
  by_cases free : tokenPerEth = 0
  · simp only [token,free]
    constructor
    · rintro ⟨rounding,unit,same⟩
      simp at same
      omega
    · rintro (none | some | small)
      · exact absurd none id
      · exact absurd rfl some
      · exact ⟨keepEth,small,by simp; omega⟩
  · have priced : (tokenPerEth : Int) ≠ 0 := by exact_mod_cast free
    have rounded := ceilDiv_cast (keepEth * tokenPerEth)
    rw [Nat.cast_mul] at rounded
    simp only [token,free,priced,if_true,if_false,ne_eq,not_false_eq_true]
    rw [rounded,scale]
    generalize keepEth * tokenPerEth = scaled
    constructor
    · simp
    · intro _
      refine ⟨(scaled + (1000000000000000000 - 1)) / 1000000000000000000 -
        scaled / 1000000000000000000,?_,?_⟩ <;> omega

/-- What the service settles a fee of the instance at. -/
inductive Priced (source : PriceSource) (info : InstanceInfo) : Nat → Prop where
  | eth : info.token = zeroAddress → Priced source info 0
  | token {rate : Nat} : info.token ≠ zeroAddress →
    source.Returns info.token info.decimals rate → Priced source info rate

/-- The price source answers with one of its rates, or fails. -/
def Quoted (source : PriceSource) (query : Query) (r : Except Thrown query.Answer) : Prop :=
  match query, r with
  | .tokenPerEth token decimals, .ok rate =>
    ∃ value : Nat, (rate : Int) = value ∧ source.Returns token decimals value
  | _, _ => True

theorem rateFor_priced {source : PriceSource} {info : InstanceInfo} {rate : Int}
    (returned : Program.Returns (I := serviceInterface) (Quoted source) (rateFor info) (.ok rate)) :
    ∃ value : Nat, rate = value ∧ Priced source info value := by
  rw [rateFor] at returned
  split at returned
  · next eth =>
    cases returns_done returned
    exact ⟨0,rfl,.eth eth⟩
  · next token =>
    rcases returns_catching returned with asked | ⟨e,thrown⟩
    · obtain ⟨value,same,quoted⟩ := returns_ask asked
      exact ⟨value,same,.token token quoted⟩
    · exact absurd (returns_done thrown) (by simp)

/-- The token, the rate and the service fee are the ones the floor was computed from. -/
theorem signedTerms_floor {s : RelayerService} {r : CheckedRequest} {rate : Int}
    {validUntil : JsNumber} {implementation : Address} {terms : FeeTerms}
    (signed : s.signedTerms r rate validUntil implementation = .ok terms) :
    terms.feeToken = r.info.token ∧ s.floorFee r rate =
      minimumFee r.gas r.maxFeePerGas s.gasMarginBps terms.serviceFee terms.tokenPerEth := by
  obtain ⟨approved,_,signed⟩ := bind_ok_iff.mp signed
  cases signed
  exact ⟨rfl,rfl⟩

/-- The floor is the worst case unless a zero rate prices an ERC-20 instance. -/
theorem worstCase_iff {source : PriceSource} {info : InstanceInfo} {rate : Nat}
    (priced : Priced source info rate) :
    WorstCase gas maxFeePerGas gasMarginBps info.token rate serviceFee ↔
      info.token = zeroAddress ∨ rate ≠ 0 ∨ keepEthAtLimits gas maxFeePerGas gasMarginBps ≤ 1 := by
  have eth : info.token = zeroAddress → rate = 0 := by
    intro none
    cases priced with
    | eth => rfl
    | token some => exact absurd none some
  rw [← @tight_iff gas maxFeePerGas gasMarginBps serviceFee info.token rate eth]
  constructor
  · intro worst
    exact worst.tight
  · intro tight
    have covered : ∀ cost, cost ≤ totalGas gas * maxFeePerGas →
        (keptFor gasMarginBps info.token rate serviceFee cost : Int) ≤
          minimumFee gas maxFeePerGas gasMarginBps serviceFee rate := by
      intro cost within
      obtain ⟨rounding,_,same⟩ := tight
      have most : keptFor gasMarginBps info.token rate serviceFee cost ≤
          keptFor gasMarginBps info.token rate serviceFee (totalGas gas * maxFeePerGas) :=
        keptFor_mono within
      omega
    refine ⟨?_,tight,fun _ _ => keptFor_mono,covered,?_⟩
    · intro d terms cost price keep margin token rate serviceFee computed
      rw [← margin,← token,← rate,← serviceFee]
      exact keepAmount_kept computed
    · intro fee floor cost within
      have most := covered cost within
      omega

def tokenInstance (decimals : Nat) : InstanceInfo :=
  { address := 1, denomination := 100 * 10 ^ decimals, token := 2, decimals, symbol := "TOKEN" }

def priceOf (price : String) : PriceSource := .fixed ⟨InsertionMap.empty.set 2 price⟩

def quotedGas : UserOpGas :=
  { callGasLimit := 450000, verificationGasLimit := 100000, preVerificationGas := 120000
    paymasterVerificationGasLimit := 60000, paymasterPostOpGasLimit := 90000 }

theorem worstCase_dollar : Priced (priceOf "3000.5") (tokenInstance 18) 3000500000000000000000 ∧
    WorstCase quotedGas 2000000000 1000 2 3000500000000000000000 7 := by
  have priced : Priced (priceOf "3000.5") (tokenInstance 18) 3000500000000000000000 :=
    .token (by decide) rfl
  exact ⟨priced,(worstCase_iff priced).mpr (.inr (.inl (by decide)))⟩

/-- A price below one base unit is a zero rate: the contract keeps nothing for the gas. -/
theorem zero_rate_floor_not_kept : Priced (priceOf "0.0000001") (tokenInstance 6) 0 ∧
    keptFor 1000 (tokenInstance 6).token 0 7 (totalGas quotedGas * 1000000000) = 7 ∧
    minimumFee quotedGas (1000000000 : Nat) (1000 : Nat) (7 : Nat) (0 : Nat) = 902000000000007 ∧
    ¬WorstCase quotedGas 1000000000 1000 (tokenInstance 6).token 0 7 := by
  refine ⟨.token (by decide) rfl,by decide +kernel,by decide +kernel,?_⟩
  intro worst
  obtain ⟨rounding,unit,same⟩ := worst.tight
  rw [show minimumFee quotedGas (1000000000 : Nat) (1000 : Nat) (7 : Nat) (0 : Nat) =
    902000000000007 by decide +kernel] at same
  rw [show keptFor 1000 (tokenInstance 6).token 0 7 (totalGas quotedGas * 1000000000) = 7
    by decide +kernel] at same
  omega

end TornadoRelayer
