import TornadoRelayer.Paymaster
import TornadoRelayer.Price

/-! What `postOp` keeps and refunds, against what the EntryPoint charges. The fee
floor bounds the charge by the gas limits; the contract's own figure adds a fixed
overhead and the margin to the gas spent before it runs. -/
namespace TornadoRelayer.Paymaster

/-- Checked arithmetic on `uint256`. -/
def checked (n : Nat) : Except Revert Nat := if n < 2 ^ 256 then .ok n else .error .other

/-- The part of the fee `postOp` means to keep. -/
def keepAmount (d : Deployment) (terms : Terms) (actualGasCost actualUserOpFeePerGas : Nat) :
    Except Revert Nat := do
  let overhead ← checked (d.postOpGasOverhead.toNat * actualUserOpFeePerGas)
  let gasCost ← checked (actualGasCost + overhead)
  let margin ← checked (gasCost * d.gasMarginBps.toNat)
  let keepEth ← checked (gasCost + margin / BPS)
  if terms.feeToken = 0 then checked (keepEth + terms.serviceFee.toNat)
  else
    let scaled ← checked (keepEth * terms.tokenPerEth.toNat)
    checked (scaled / RATE_SCALE + terms.serviceFee.toNat)

/-- The refund `postOp` attempts out of what was received. -/
def refundDue (terms : Terms) (keep balance : Nat) : Nat :=
  if terms.refundTo = 0 then 0
  else if terms.fee.toNat > keep then min (terms.fee.toNat - keep) balance
  else 0

/-- The refund that leaves the contract; a transfer that fails leaves nothing. -/
def refundPaid (d : Deployment) (terms : Terms) (actualGasCost actualUserOpFeePerGas balance : Nat)
    (accepted : Bool) : Except Revert Nat := do
  let keep ← keepAmount d terms actualGasCost actualUserOpFeePerGas
  return if accepted then refundDue terms keep balance else 0

/-! ### The EntryPoint's charge -/

def PENALTY_GAS_THRESHOLD : Nat := 40000

/-- A tenth of the unused part of a gas limit, once that part is large. -/
def unusedGasPenalty (gasUsed gasLimit : Nat) : Nat :=
  if gasLimit - gasUsed > PENALTY_GAS_THRESHOLD then (gasLimit - gasUsed) * 10 / 100 else 0

/-- An operation the relayer signed: the terms carry a fee at the floor. -/
structure SignedOperation (d : Deployment) where
  gas : UserOpGas
  maxFeePerGas : Nat
  terms : Terms
  ethUnpriced : terms.feeToken = 0 → terms.tokenPerEth = 0
  floor : minimumFee gas maxFeePerGas d.gasMarginBps.toNat terms.serviceFee.toNat
    terms.tokenPerEth.toNat ≤ terms.fee.toNat

/-- A successful execution of it: `gasBefore` until `postOp` is called, `gasAround`
spent in and around it. -/
structure Execution {d : Deployment} (s : SignedOperation d) where
  price : Nat
  gasBefore : Nat
  gasAround : Nat
  postOpGasUsed : Nat
  received : Nat
  priceBound : price ≤ s.maxFeePerGas
  overheadBound : gasAround ≤ d.postOpGasOverhead.toNat
  usedBound : postOpGasUsed ≤ gasAround
  limitBound : (gasBefore + gasAround +
    unusedGasPenalty postOpGasUsed s.gas.paymasterPostOpGasLimit) * price ≤
    totalGas s.gas * s.maxFeePerGas
  feeReceived : s.terms.refundTo ≠ 0 → received = s.terms.fee.toNat

variable {d : Deployment} {s : SignedOperation d}

def Execution.penalty (x : Execution s) : Nat :=
  unusedGasPenalty x.postOpGasUsed s.gas.paymasterPostOpGasLimit

def Execution.actualGasCost (x : Execution s) : Nat := x.gasBefore * x.price

def Execution.charge (x : Execution s) : Nat :=
  (x.gasBefore + x.gasAround + x.penalty) * x.price

/-- Fee-token units per 1e18 wei; an ETH fee is its own value. -/
def SignedOperation.rate (s : SignedOperation d) : Nat :=
  if s.terms.feeToken = 0 then RATE_SCALE else s.terms.tokenPerEth.toNat

/-- What is charged after `postOp` was told the cost so far. -/
def Execution.chargedLater (x : Execution s) : Nat := (x.gasAround + x.penalty) * x.price

/-- What `postOp` adds to the cost so far: the overhead and the margin. -/
def Execution.keptExtra (x : Execution s) : Nat :=
  d.postOpGasOverhead.toNat * x.price +
    (x.gasBefore * x.price + d.postOpGasOverhead.toNat * x.price) * d.gasMarginBps.toNat / BPS

/-- The later charges exceed the overhead and the margin by no more than the unit
that rounding may take. -/
def Execution.Covered (x : Execution s) : Prop :=
  x.chargedLater ≤ x.keptExtra ∨
    (x.chargedLater - x.keptExtra) * s.rate ≤
      RATE_SCALE - (x.actualGasCost + x.keptExtra) * s.rate % RATE_SCALE

/-- What is kept of the fee, in base units and up to one of them, pays the charge and
the service fee. -/
def Execution.KeepsEnough (x : Execution s) (refund : Nat) : Prop :=
  x.charge * s.rate + s.terms.serviceFee.toNat * RATE_SCALE ≤
    (s.terms.fee.toNat - refund + 1) * RATE_SCALE

/-! ### The figures compared -/

theorem checked_ok {n v : Nat} (fits : checked n = .ok v) : n = v := by
  rw [checked] at fits
  split at fits
  · exact Except.ok.inj fits
  · contradiction

/-- A settlement that does not overflow keeps the cost so far plus `keptExtra`. -/
theorem keepAmount_value (x : Execution s) {keep : Nat}
    (computed : keepAmount d s.terms x.actualGasCost x.price = .ok keep) :
    keep = (x.actualGasCost + x.keptExtra) * s.rate / RATE_SCALE + s.terms.serviceFee.toNat := by
  obtain ⟨overhead,h1,computed⟩ := bind_ok_iff.mp computed
  obtain ⟨gasCost,h2,computed⟩ := bind_ok_iff.mp computed
  obtain ⟨margin,h3,computed⟩ := bind_ok_iff.mp computed
  obtain ⟨keepEth,h4,computed⟩ := bind_ok_iff.mp computed
  have total : keepEth = x.actualGasCost + x.keptExtra := by
    rw [← checked_ok h4,← checked_ok h3,← checked_ok h2,← checked_ok h1,Nat.add_assoc]
    rfl
  rw [← total,SignedOperation.rate]
  split at computed
  · next eth =>
    rw [if_pos eth,Nat.mul_div_cancel _ (by decide)]
    exact (checked_ok computed).symm
  · next token =>
    obtain ⟨scaled,h5,computed⟩ := bind_ok_iff.mp computed
    rw [if_neg token,checked_ok h5]
    exact (checked_ok computed).symm

theorem floor_covers {scale owed value : Nat} (positive : 0 < scale) :
    owed ≤ (value / scale + 1) * scale ↔ owed ≤ value ∨ owed - value ≤ scale - value % scale := by
  have split := Nat.div_add_mod value scale
  have small := Nat.mod_lt value positive
  rw [Nat.add_mul,one_mul,Nat.mul_comm (value / scale)]
  omega

theorem Execution.covered_iff (x : Execution s) :
    x.Covered ↔ x.charge * s.rate ≤
      ((x.actualGasCost + x.keptExtra) * s.rate / RATE_SCALE + 1) * RATE_SCALE := by
  have parts : x.charge = x.actualGasCost + x.chargedLater := by
    rw [Execution.charge,Execution.actualGasCost,Execution.chargedLater]
    ring
  rw [floor_covers (by decide),← Nat.sub_mul,Execution.Covered,parts,Nat.add_sub_add_left]
  constructor
  · rintro (less | rounding)
    · exact .inl (Nat.mul_le_mul_right _ (Nat.add_le_add_left less _))
    · exact .inr rounding
  · rintro (less | rounding)
    · by_cases worthless : s.rate = 0
      · exact .inr (by simp [worthless])
      · exact .inl (Nat.le_of_add_le_add_left
          (Nat.le_of_mul_le_mul_right less (Nat.pos_of_ne_zero worthless)))
    · exact .inr rounding

/-- The whole fee pays the largest charge the gas limits allow. -/
theorem Execution.fee_covers (x : Execution s) :
    x.charge * s.rate + s.terms.serviceFee.toNat * RATE_SCALE ≤ s.terms.fee.toNat * RATE_SCALE := by
  have floor := minimumFee_covers s.floor
  have bound : x.charge ≤ totalGas s.gas * s.maxFeePerGas := x.limitBound
  have rate : s.rate ≤
      if s.terms.tokenPerEth.toNat = 0 then RATE_SCALE else s.terms.tokenPerEth.toNat := by
    rw [SignedOperation.rate]
    by_cases eth : s.terms.feeToken = 0
    · simp [eth,s.ethUnpriced eth]
    · rw [if_neg eth]
      split
      · next free => omega
      · rfl
  have worst := Nat.mul_le_mul bound rate
  omega

/-- The refund is what the fee exceeds the amount kept by, if it is paid at all. -/
theorem refundPaid_cases (x : Execution s) {accepted : Bool} {refund : Nat}
    (settled : refundPaid d s.terms x.actualGasCost x.price x.received accepted = .ok refund) :
    ∃ keep, keepAmount d s.terms x.actualGasCost x.price = .ok keep ∧
      (refund = 0 ∧ (s.terms.refundTo = 0 ∨ accepted = false ∨ s.terms.fee.toNat ≤ keep) ∨
       s.terms.refundTo ≠ 0 ∧ accepted = true ∧ keep < s.terms.fee.toNat ∧
        refund = s.terms.fee.toNat - keep) := by
  obtain ⟨keep,computed,settled⟩ := bind_ok_iff.mp settled
  refine ⟨keep,computed,?_⟩
  cases accepted with
  | false => exact .inl ⟨(Except.ok.inj settled).symm,.inr (.inl rfl)⟩
  | true =>
    have due : refundDue s.terms keep x.received = refund := Except.ok.inj settled
    rw [refundDue] at due
    by_cases unpaid : s.terms.refundTo = 0
    · rw [if_pos unpaid] at due
      exact .inl ⟨due.symm,.inl unpaid⟩
    · rw [if_neg unpaid,x.feeReceived unpaid] at due
      by_cases more : s.terms.fee.toNat > keep
      · rw [if_pos more,Nat.min_eq_left (Nat.sub_le ..)] at due
        exact .inr ⟨unpaid,rfl,more,due.symm⟩
      · rw [if_neg more] at due
        exact .inl ⟨due.symm,.inr (.inr (Nat.le_of_not_lt more))⟩

/-- A successful operation pays for itself exactly when no refund leaves the contract
or the later charges are covered by the overhead and the margin. -/
theorem keepsEnough_iff (x : Execution s) (accepted : Bool) {refund : Nat}
    (settled : refundPaid d s.terms x.actualGasCost x.price x.received accepted = .ok refund) :
    x.KeepsEnough refund ↔ s.terms.refundTo = 0 ∨ accepted = false ∨ x.Covered := by
  have fee := x.fee_covers
  rw [Execution.KeepsEnough,Execution.covered_iff]
  obtain ⟨keep,computed,unrefunded | refunded⟩ := refundPaid_cases x settled
  · obtain ⟨rfl,reason⟩ := unrefunded
    have kept : x.charge * s.rate + s.terms.serviceFee.toNat * RATE_SCALE ≤
        (s.terms.fee.toNat - 0 + 1) * RATE_SCALE := by
      rw [Nat.add_mul]
      exact fee.trans (Nat.le_add_right ..)
    refine iff_of_true kept ?_
    rcases reason with worker | refused | small
    · exact .inl worker
    · exact .inr (.inl refused)
    · have value := keepAmount_value x computed
      have scaled := Nat.mul_le_mul_right RATE_SCALE small
      rw [value,Nat.add_mul] at scaled
      rw [Nat.add_mul]
      exact .inr (.inr (by omega))
  · obtain ⟨promised,accepts,more,rfl⟩ := refunded
    have kept : s.terms.fee.toNat - (s.terms.fee.toNat - keep) = keep := by omega
    rw [kept,keepAmount_value x computed]
    simp only [promised,accepts,Bool.true_eq_false,false_or]
    rw [Nat.add_right_comm,Nat.add_mul _ s.terms.serviceFee.toNat]
    exact Nat.add_le_add_iff_right

/-- The default margin and overhead. -/
def defaultDeployment : Deployment where
  self := 0xf1
  entryPoint := 0xe1
  owner := 0xf1
  verifyingSigner := 0xa1
  gasMarginBps := 1000
  postOpGasOverhead := 45000
  router := 0

/-- 0.04 ETH for an operation with the given limit on `postOp`. -/
def ethOperation (paymasterPostOpGasLimit : Nat)
    (moderate : paymasterPostOpGasLimit ≤ 2000000 := by decide) :
    SignedOperation defaultDeployment where
  gas := ⟨450000,100000,120000,60000,paymasterPostOpGasLimit⟩
  maxFeePerGas := 10 ^ 10
  terms := ⟨0,0,4 * 10 ^ 16,10 ^ 15,0xc1,0,0,0,0⟩
  ethUnpriced := fun _ => rfl
  floor := by
    change (((450000 + 100000 + 120000 + 60000 + paymasterPostOpGasLimit : Nat) : Int) * 10 ^ 10 +
      (((450000 + 100000 + 120000 + 60000 + paymasterPostOpGasLimit : Nat) : Int) * 10 ^ 10 *
        1000).tdiv 10000) + 10 ^ 15 ≤ 4 * 10 ^ 16
    rw [Int.tdiv_eq_ediv_of_nonneg (by positivity)]
    omega

theorem default_postOp_limit_keepsEnough :
    ∃ x : Execution (ethOperation 90000), x.KeepsEnough (4 * 10 ^ 16 - 8095 * 10 ^ 12) := by
  let x : Execution (ethOperation 90000) :=
    ⟨10 ^ 10,600000,45000,40000,4 * 10 ^ 16,by decide,by decide,by decide,by decide,fun _ => rfl⟩
  exact ⟨x,(keepsEnough_iff x true (by decide +kernel)).mpr (.inr (.inr (.inl (by decide))))⟩

/-- A large limit on `postOp` is penalised after the amount to keep is computed. -/
theorem large_postOp_limit_loses :
    ¬∀ (d : Deployment) (s : SignedOperation d) (x : Execution s) (accepted : Bool) (refund : Nat),
      refundPaid d s.terms x.actualGasCost x.price x.received accepted = .ok refund →
      x.KeepsEnough refund := by
  intro always
  let x : Execution (ethOperation 2000000) :=
    ⟨10 ^ 10,600000,45000,40000,4 * 10 ^ 16,by decide,by decide,by decide,by decide,fun _ => rfl⟩
  have kept := always _ _ x true (4 * 10 ^ 16 - 8095 * 10 ^ 12) (by decide +kernel)
  revert kept
  rw [Execution.KeepsEnough]
  decide

end TornadoRelayer.Paymaster
