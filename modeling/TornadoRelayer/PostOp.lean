import TornadoRelayer.EthSettlement
import TornadoRelayer.FailClosed
import TornadoRelayer.FeeFloor

/-! `postOp` to its end, whatever the contracts it calls do: the fee of a signed operation
keeps its arithmetic in range, no call that fails makes it revert, and what was received is
refunded, deposited or left. -/
namespace TornadoRelayer.Paymaster

open BigEndian Keccak CallStack

/-! ### Nothing overflows -/

theorem checked_fits {n : Nat} (fits : n < 2 ^ 256) : checked n = .ok n := if_pos fits

/-- What a fee below `2 ^ 180` at its floor bounds. -/
theorem floor_bounds {gas : UserOpGas} {maxFeePerGas gasMarginBps serviceFee tokenPerEth fee : Nat}
    (floor : minimumFee gas maxFeePerGas gasMarginBps serviceFee tokenPerEth ≤ fee)
    (small : fee < 2 ^ 180) :
    keepEthAtLimits gas maxFeePerGas gasMarginBps < 2 ^ 240 ∧
    keepEthAtLimits gas maxFeePerGas gasMarginBps * tokenPerEth < 2 ^ 240 ∧
    serviceFee ≤ fee := by
  rw [minimumFee_keepEth] at floor
  generalize keepEthAtLimits gas maxFeePerGas gasMarginBps = limits at *
  have scale : fee * RATE_SCALE < 2 ^ 240 := by
    have scaled := Nat.mul_lt_mul_of_pos_right small (show 0 < RATE_SCALE by decide)
    exact scaled.trans (by decide)
  by_cases free : tokenPerEth = 0
  · simp only [free,Nat.cast_zero,ne_eq,not_true_eq_false,if_false] at floor
    refine ⟨?_,by simp [free],?_⟩ <;> omega
  · have priced : ((tokenPerEth : Nat) : Int) ≠ 0 := by exact_mod_cast free
    simp only [priced,ne_eq,not_false_eq_true,if_true] at floor
    have rounded : ((limits * tokenPerEth : Nat) : Int) ≤
        ceilDiv (limits * tokenPerEth : Nat) RATE_SCALE * RATE_SCALE :=
      le_ceilDiv_mul (by positivity) (by decide)
    rw [Nat.cast_mul] at rounded
    have positive := ceilDiv_cast (limits * tokenPerEth)
    rw [Nat.cast_mul] at positive
    rw [positive] at rounded floor
    generalize (limits * tokenPerEth + (RATE_SCALE - 1)) / RATE_SCALE = kept at *
    have whole : kept + serviceFee ≤ fee := by exact_mod_cast floor
    have rounded : limits * tokenPerEth ≤ kept * RATE_SCALE := by exact_mod_cast rounded
    have within : limits * tokenPerEth < 2 ^ 240 :=
      (rounded.trans (Nat.mul_le_mul_right _ (by omega))).trans_lt scale
    exact ⟨(Nat.le_mul_of_pos_right _ (Nat.pos_of_ne_zero free)).trans_lt within,within,by omega⟩

/-- What `postOp` computes at a cost within the limits of a signed operation. -/
theorem keepAmount_computes {d : Deployment} {terms : Terms} {gas : UserOpGas}
    {maxFeePerGas cost price : Nat}
    (floor : minimumFee gas maxFeePerGas d.gasMarginBps.toNat terms.serviceFee.toNat
      terms.tokenPerEth.toNat ≤ terms.fee.toNat)
    (small : terms.fee.toNat < 2 ^ 180)
    (within : cost + d.postOpGasOverhead.toNat * price ≤ totalGas gas * maxFeePerGas) :
    keepAmount d terms cost price = .ok (keptFor d.gasMarginBps.toNat terms.feeToken
      terms.tokenPerEth.toNat terms.serviceFee.toNat (cost + d.postOpGasOverhead.toNat * price)) := by
  obtain ⟨limits,scaledLimits,serviceFee⟩ := floor_bounds floor small
  rw [keepEthAtLimits] at limits scaledLimits
  rw [keepAmount]
  generalize d.postOpGasOverhead.toNat * price = overhead at *
  generalize totalGas gas * maxFeePerGas = prefund at *
  generalize d.gasMarginBps.toNat = gasMarginBps at *
  have prefundFits : prefund < 2 ^ 240 := (Nat.le_add_right ..).trans_lt limits
  have margins := Nat.mul_le_mul_right gasMarginBps within
  have rounded := Nat.div_le_div_right (c := BPS) margins
  have marginFits : (cost + overhead) * gasMarginBps < 2 ^ 256 := by
    have split := Nat.div_add_mod (prefund * gasMarginBps) BPS
    have rest := Nat.mod_lt (prefund * gasMarginBps) (show 0 < BPS by decide)
    rw [show BPS = 10000 from rfl] at *
    omega
  have keepEth : cost + overhead + (cost + overhead) * gasMarginBps / BPS ≤
      prefund + prefund * gasMarginBps / BPS := Nat.add_le_add within rounded
  have scaled := (Nat.mul_le_mul_right terms.tokenPerEth.toNat keepEth).trans_lt scaledLimits
  have unscaled := Nat.div_le_self ((cost + overhead + (cost + overhead) * gasMarginBps / BPS) *
    terms.tokenPerEth.toNat) RATE_SCALE
  refine bind_ok_iff.mpr ⟨overhead,checked_fits (by omega),?_⟩
  refine bind_ok_iff.mpr ⟨cost + overhead,checked_fits (by omega),?_⟩
  refine bind_ok_iff.mpr ⟨_,checked_fits marginFits,?_⟩
  refine bind_ok_iff.mpr ⟨_,checked_fits (by omega),?_⟩
  by_cases eth : terms.feeToken = 0
  · have none : terms.feeToken = zeroAddress := eth
    simp only [eth,if_true,keptFor]
    rw [checked_fits (by omega)]
    rfl
  · have some : ¬terms.feeToken = zeroAddress := eth
    simp only [eth,if_false,keptFor]
    refine bind_ok_iff.mpr ⟨_,checked_fits (by omega),?_⟩
    rw [checked_fits (by omega),if_neg some]

/-! ### What moves -/

/-- So much of the asset has left the contract, and the balance accounts for it. -/
structure Moved (s w : World) (asset : Asset) (amount : Nat) : Prop where
  transient : w.transient = s.transient
  left : ∀ a, leftTotal a w.history = leftTotal a s.history + if a = asset then amount else 0
  balance : w.balance + leftTotal .eth w.history + enteredTotal .eth s.history =
    s.balance + leftTotal .eth s.history + enteredTotal .eth w.history

variable {lib : Eip7702Support} {tryRecover : Bytes32 → Bytes → Option Address} {d : Deployment}
  {s v w : World} {asset : Asset} {m n : Nat} {ks : List Pending}

theorem Moved.trans (first : Moved s v asset m) (second : Moved v w asset n) :
    Moved s w asset (m + n) := by
  refine ⟨second.transient.trans first.transient,fun a => ?_,?_⟩
  · rw [second.left,first.left]
    split <;> omega
  · have before := first.balance
    have after := second.balance
    omega

theorem moved_emit (s : World) (event : Event) : Moved s (s.emit event) asset 0 :=
  ⟨rfl,by simp [World.emit],rfl⟩

theorem moved_same (s : World) : Moved s s asset 0 := ⟨rfl,by simp,rfl⟩

theorem moved_act (a : Act) (s : World) :
    Moved s ((paymaster lib tryRecover d).act a ks s) asset 0 := by
  cases a with
  | receive b amount =>
    cases b with
    | eth =>
      refine ⟨rfl,by simp [paymaster,World.setHolding,World.note,leftTotal],?_⟩
      simp only [paymaster,World.setHolding,World.note,World.holding,leftTotal,enteredTotal,if_true]
      omega
    | token t =>
      refine ⟨rfl,by simp [paymaster,World.setHolding,World.note,leftTotal],?_⟩
      simp [paymaster,World.setHolding,World.note,leftTotal,enteredTotal]
  | report t amount => exact ⟨rfl,by simp [paymaster,World.setHolding],rfl⟩

theorem moved_acted (acts : List Act) (s : World) :
    Moved s ((paymaster lib tryRecover d).acted acts ks s) asset 0 := by
  induction acts generalizing s with
  | nil => exact moved_same s
  | cons a acts ih => exact (moved_act a s).trans (ih _)

theorem moved_pay (enough : asset = .eth → n ≤ s.balance) : Moved s (s.pay asset n) asset n := by
  refine ⟨?_,fun a => ?_,?_⟩
  · cases asset <;> rfl
  · cases asset <;> simp [World.pay,World.setHolding,World.note,leftTotal,eq_comm]
  · cases asset with
    | eth =>
      have fits := enough rfl
      simp only [World.pay,World.setHolding,World.note,World.holding,leftTotal,enteredTotal,if_true]
      omega
    | token t => simp [World.pay,World.setHolding,World.note,leftTotal,enteredTotal]

theorem logged_acted (acts : List Act) (logged : s.events ⊆ v.events) :
    s.events ⊆ ((paymaster lib tryRecover d).acted acts ks v).events := by
  induction acts generalizing v with
  | nil => exact logged
  | cons a acts ih =>
    refine ih ?_
    cases a with
    | receive b amount => cases b <;> exact logged
    | report t amount => exact logged

/-! ### Whatever the calls do -/

/-- What a token does on `transfer`: it reverts, or acts and returns a flag or nothing. -/
inductive Transfer where
  | reverted
  | returned (flag : Option Bool) (acts : List Act)

/-- `SafeERC20.safeTransfer`, which reverts on a flag that is false. -/
def safeTransfer : Transfer → Option (List Act)
  | .reverted | .returned (some false) _ => none
  | .returned _ acts => some acts

/-- What the contracts that a settlement calls do; one that fails does nothing. -/
structure Outcomes where
  refund : Option (List Act)
  transfer : Transfer
  depositTo : Option (List Act)

def Outcomes.of (o : Outcomes) : Pending → Option (List Act)
  | .refundingEth .. => o.refund
  | .refundingToken .. => safeTransfer o.transfer
  | .depositing .. => o.depositTo
  | _ => none

/-- The refund arrives: its call succeeds, and has the ETH it sends. -/
def Outcomes.Delivers (o : Outcomes) (ctx : Context) (due : Nat) (s : World) : Prop :=
  if ctx.terms.feeToken = 0 then o.refund.isSome ∧ due ≤ s.balance
  else (safeTransfer o.transfer).isSome

instance (o : Outcomes) (ctx : Context) (due : Nat) (s : World) : Decidable (o.Delivers ctx due s) := by
  unfold Outcomes.Delivers
  infer_instance

/-- The asset a fee is paid in. -/
def feeAsset (terms : Terms) : Asset := if terms.feeToken = 0 then .eth else .token terms.feeToken

/-- What a settlement comes to: it reports what it refunds, and nothing if that fails. -/
structure Settles (ctx : Context) (cost keep received : Nat) (o : Outcomes) (s w : World)
    (refund deposited left : Nat) : Prop where
  reported : w.events.head? = some (.sponsored ctx.userOpHash ctx.terms.refundTo ctx.terms.feeToken
    ctx.terms.fee cost refund)
  refunded : refund = if o.Delivers ctx (refundDue ctx.terms keep received) s then
    refundDue ctx.terms keep received else 0
  failed : 0 < refundDue ctx.terms keep received → refund = 0 →
    .refundFailed ctx.userOpHash ctx.terms.refundTo ctx.terms.feeToken
      (refundDue ctx.terms keep received) ∈ w.events
  credited : 0 < deposited → ctx.terms.feeToken = 0 ∧ o.depositTo.isSome
  conserved : received = refund + deposited + left
  moved : Moved s w (feeAsset ctx.terms) (refund + deposited)

variable {ctx : Context} {cost keep balance refund : Nat} {o : Outcomes}

theorem refundDue_le_excess (terms : Terms) (keep balance : Nat) :
    refundDue terms keep balance ≤ terms.fee.toNat - keep := by
  rw [refundDue]
  split
  · omega
  · split <;> omega

/-- It ends with its report, having moved so much. -/
structure Closes (ctx : Context) (cost refund : Nat) (asset : Asset) (amount : Nat) (s w : World) :
    Prop where
  reported : w.events.head? = some (.sponsored ctx.userOpHash ctx.terms.refundTo ctx.terms.feeToken
    ctx.terms.fee cost refund)
  logged : s.events ⊆ w.events
  moved : Moved s w asset amount

theorem finish_completes (moved : Moved s v asset m) (logged : s.events ⊆ v.events) : ∃ w,
    (paymaster lib tryRecover d).complete o.of ks n (finish ctx cost refund v) = some (.ok w) ∧
    Closes ctx cost refund asset m s w := by
  refine ⟨_,complete_returned _,rfl,?_,?_⟩
  · exact List.subset_cons_of_subset _ logged
  · exact moved.trans (moved_emit v _)

/-- The end of a settlement in ETH. -/
theorem depositRest_completes (s : World) :
    ∃ w deposited, (paymaster lib tryRecover d).complete o.of ks (n + 1)
        (depositRest ctx cost balance refund s) = some (.ok w) ∧
      (0 < deposited → o.depositTo.isSome) ∧ deposited ≤ balance ∧
      Closes ctx cost refund .eth deposited s w := by
  have unpaid {v : World} (moved : Moved s v .eth 0) (logged : s.events ⊆ v.events) (n : Nat) :
      ∃ w, (paymaster lib tryRecover d).complete o.of ks n (finish ctx cost refund v) = some (.ok w) ∧
        (0 < 0 → o.depositTo.isSome) ∧ 0 ≤ balance ∧ Closes ctx cost refund .eth 0 s w := by
    obtain ⟨w,completes,closes⟩ := finish_completes moved logged
    exact ⟨w,completes,by simp,Nat.zero_le _,closes⟩
  have failed : Moved s (s.emit (.depositFailed ctx.userOpHash balance)) .eth 0 := moved_emit ..
  have reported : s.events ⊆ (s.emit (.depositFailed ctx.userOpHash balance)).events :=
    List.subset_cons_self ..
  rw [depositRest]
  by_cases none : balance = 0
  · rw [if_pos none]
    obtain ⟨w,rest⟩ := unpaid (moved_same s) (List.Subset.refl _) (n + 1)
    exact ⟨w,0,rest⟩
  rw [if_neg none]
  by_cases short : s.balance < balance
  · rw [if_pos short]
    obtain ⟨w,rest⟩ := unpaid failed reported (n + 1)
    exact ⟨w,0,rest⟩
  rw [if_neg short]
  cases deposits : o.of (.depositing ctx cost balance refund) with
  | none =>
    rw [complete_failed deposits]
    obtain ⟨w,rest⟩ := unpaid failed reported n
    exact ⟨w,0,rest⟩
  | some acts =>
    rw [complete_succeeded deposits]
    have paid : Moved s (s.pay .eth balance) .eth balance := moved_pay fun _ => by omega
    obtain ⟨w,completes,closes⟩ := finish_completes
      (paid.trans (moved_acted acts (s.pay .eth balance)))
      (logged_acted acts (List.Subset.refl s.events))
    exact ⟨w,balance,completes,fun _ => Option.isSome_iff_exists.mpr ⟨acts,deposits⟩,le_rfl,closes⟩

theorem expectFee_balance (ctx : Context) (balance : Nat) (s : World) :
    (expectFee ctx balance s).balance = s.balance := by
  rw [expectFee]
  split <;> rfl

theorem moved_expectFee (ctx : Context) (balance : Nat) (s : World) :
    Moved s (expectFee ctx balance s) asset 0 := by
  rw [expectFee]
  split
  · exact moved_emit ..
  · exact moved_same s

theorem logged_expectFee (ctx : Context) (balance : Nat) (s : World) :
    s.events ⊆ (expectFee ctx balance s).events := by
  rw [expectFee]
  split
  · exact List.subset_cons_self ..
  · exact List.Subset.refl _

theorem settleEth_completes (eth : ctx.terms.feeToken = 0) (s : World) :
    ∃ w refund deposited left, (paymaster lib tryRecover d).complete o.of ks 2
        (settleEth ctx keep cost balance s) = some (.ok w) ∧
      Settles ctx cost keep balance o s w refund deposited left := by
  have asset : feeAsset ctx.terms = .eth := if_pos eth
  have within := refundDue_le ctx.terms keep balance
  generalize dueIs : refundDue ctx.terms keep balance = due at *
  -- However the refund went, the rest of the settlement is the same.
  have settled {v : World} {paid rest : Nat} (moved : Moved s v .eth paid)
      (logged : s.events ⊆ v.events) (whole : balance = paid + rest)
      (refunded : paid = if o.Delivers ctx due s then due else 0)
      (failed : 0 < due → paid = 0 → .refundFailed ctx.userOpHash ctx.terms.refundTo
        ctx.terms.feeToken due ∈ v.events) (n : Nat) :
      ∃ w refund deposited left, (paymaster lib tryRecover d).complete o.of ks (n + 1)
          (depositRest ctx cost rest paid v) = some (.ok w) ∧
        Settles ctx cost keep balance o s w refund deposited left := by
    obtain ⟨w,deposited,completes,credited,enough,closes⟩ := depositRest_completes v
    refine ⟨w,paid,deposited,balance - paid - deposited,completes,?_⟩
    refine ⟨closes.reported,dueIs ▸ refunded,?_,fun some => ⟨eth,credited some⟩,by omega,?_⟩
    · rw [dueIs]
      exact fun some none => closes.logged (failed some none)
    · rw [asset]
      exact moved.trans closes.moved
  have expected : Moved s (expectFee ctx balance s) .eth 0 := moved_expectFee ctx balance s
  have logged := logged_expectFee ctx balance s
  have holding := expectFee_balance ctx balance s
  rw [settleEth,dueIs]
  generalize expectFee ctx balance s = v at *
  by_cases nothing : due = 0
  · simp only [nothing,if_true]
    exact settled expected logged (Nat.zero_add _).symm (by simp [nothing]) (by omega) 1
  simp only [nothing,if_false]
  have delivers : o.Delivers ctx due s ↔ o.refund.isSome ∧ due ≤ s.balance := by
    simp [Outcomes.Delivers,eth]
  have failed : Moved s (refundFailed ctx due v) .eth 0 := expected.trans (moved_emit v _)
  by_cases short : v.balance < due
  · rw [if_pos short]
    refine settled failed (List.subset_cons_of_subset _ logged) (Nat.zero_add _).symm ?_ ?_ 1
    · rw [if_neg fun delivered => by have enough := (delivers.mp delivered).2; omega]
    · exact fun _ _ => List.mem_cons_self ..
  rw [if_neg short]
  cases refunds : o.of (.refundingEth ctx cost balance due) with
  | none =>
    rw [complete_failed refunds]
    have undelivered : o.refund = none := refunds
    refine settled failed (List.subset_cons_of_subset _ logged) (Nat.zero_add _).symm ?_ ?_ 0
    · rw [if_neg fun delivered => by simp [undelivered] at delivers; exact delivers delivered]
    · exact fun _ _ => List.mem_cons_self ..
  | some acts =>
    rw [complete_succeeded refunds]
    have delivered : o.refund = some acts := refunds
    have paid : Moved v (v.pay .eth due) .eth due := moved_pay fun _ => by omega
    have moved : Moved s ((paymaster lib tryRecover d).acted acts
        (.refundingEth ctx cost balance due :: ks) (v.pay .eth due)) .eth due := by
      simpa using expected.trans (paid.trans (moved_acted acts (v.pay .eth due)))
    refine settled moved (logged_acted acts logged) (Nat.add_sub_of_le within).symm ?_ (by omega) 0
    rw [if_pos (delivers.mpr ⟨by simp [delivered],by omega⟩)]

theorem settleToken_completes (token : ctx.terms.feeToken ≠ 0) (s : World) :
    ∃ w refund deposited left, (paymaster lib tryRecover d).complete o.of ks 2
        (settleToken d ctx keep cost balance s) = some (.ok w) ∧
      Settles ctx cost keep balance o s w refund deposited left := by
  have asset : feeAsset ctx.terms = .token ctx.terms.feeToken := if_neg token
  have within := refundDue_le ctx.terms keep balance
  generalize dueIs : refundDue ctx.terms keep balance = due at *
  have delivers : o.Delivers ctx due s ↔ (safeTransfer o.transfer).isSome := by
    rw [Outcomes.Delivers,if_neg token]
  have settled {v : World} {paid : Nat}
      (moved : Moved s v (.token ctx.terms.feeToken) paid) (less : paid ≤ balance)
      (refunded : paid = if o.Delivers ctx due s then due else 0)
      (failed : 0 < due → paid = 0 → .refundFailed ctx.userOpHash ctx.terms.refundTo
        ctx.terms.feeToken due ∈ v.events) (n : Nat) :
      ∃ w refund deposited left, (paymaster lib tryRecover d).complete o.of ks n
          (finish ctx cost paid v) = some (.ok w) ∧
        Settles ctx cost keep balance o s w refund deposited left := by
    have same : Moved v v (feeAsset ctx.terms) 0 := moved_same v
    obtain ⟨w,completes,closes⟩ := finish_completes same (List.Subset.refl _)
    refine ⟨w,paid,0,balance - paid,completes,?_⟩
    refine ⟨closes.reported,dueIs ▸ refunded,?_,by simp,by omega,?_⟩
    · rw [dueIs]
      exact fun some none => closes.logged (failed some none)
    · rw [← asset] at moved
      exact moved.trans closes.moved
  have expected : Moved s (expectFee ctx balance s) (.token ctx.terms.feeToken) 0 :=
    moved_expectFee ctx balance s
  rw [settleToken,dueIs]
  generalize expectFee ctx balance s = v at *
  by_cases nothing : due = 0
  · simp only [nothing,if_true]
    exact settled expected (Nat.zero_le _) (by simp [nothing]) (by omega) 2
  simp only [nothing,if_false]
  rw [refundToken,if_neg (not_not.mpr rfl)]
  cases transfers : o.of (.refundingToken ctx cost due) with
  | none =>
    rw [complete_failed transfers]
    have undelivered : safeTransfer o.transfer = none := transfers
    refine settled (expected.trans (moved_emit v _)) (Nat.zero_le _) ?_ ?_ 1
    · rw [if_neg fun delivered => by simp [undelivered] at delivers; exact delivers delivered]
    · exact fun _ _ => List.mem_cons_self ..
  | some acts =>
    rw [complete_succeeded transfers]
    have delivered : safeTransfer o.transfer = some acts := transfers
    have paid : Moved v (v.pay (.token ctx.terms.feeToken) due) (.token ctx.terms.feeToken) due :=
      moved_pay fun same => by cases same
    have moved : Moved s ((paymaster lib tryRecover d).acted acts
        (.refundingToken ctx cost due :: ks) (v.pay (.token ctx.terms.feeToken) due))
        (.token ctx.terms.feeToken) due := by
      simpa using expected.trans (paid.trans (moved_acted acts (v.pay _ due)))
    refine settled moved within ?_ (by omega) 1
    rw [if_pos (delivers.mpr (by simp [delivered]))]

variable {received refund deposited left : Nat}

theorem Settles.refund_le (settled : Settles ctx cost keep received o s w refund deposited left) :
    refund ≤ ctx.terms.fee.toNat - keep ∧ refund ≤ received := by
  have excess := refundDue_le_excess ctx.terms keep received
  have within := refundDue_le ctx.terms keep received
  have refunded := settled.refunded
  split at refunded <;> omega

/-- Of a fee that was received the paymaster keeps the amount to keep, or all of it. -/
theorem Settles.retains (settled : Settles ctx cost keep received o s w refund deposited left)
    (promised : ctx.terms.refundTo ≠ 0) (whole : received = ctx.terms.fee.toNat)
    (delivers : keep < ctx.terms.fee.toNat → o.Delivers ctx (ctx.terms.fee.toNat - keep) s) :
    received - refund = min ctx.terms.fee.toNat keep := by
  have refunded := settled.refunded
  rw [refundDue,if_neg promised,whole] at refunded
  by_cases more : keep < ctx.terms.fee.toNat
  · rw [if_pos more,Nat.min_eq_left (Nat.sub_le ..),if_pos (delivers more)] at refunded
    omega
  · rw [if_neg more] at refunded
    simp only [ite_self] at refunded
    omega

/-! ### The whole of it -/

/-- What was recorded for the sender of the asset its fee is paid in. -/
def receivedFee (ctx : Context) (s : World) : Nat :=
  if ctx.terms.feeToken = 0 then (takeReceived s ctx.sender).1.toNat
  else (takeReceived s ctx.sender).2.1.toNat

theorem takeReceived_cleared (s : World) (sender : Address) (asset : Asset) :
    (takeReceived s sender).2.2.transient (receivedSlot asset.seed sender) = 0 := by
  cases asset <;> simp [takeReceived,World.note,World.tstore,Asset.seed]

theorem takeReceived_holding (s : World) (sender : Address) (asset : Asset) :
    (takeReceived s sender).2.2.holding asset = s.holding asset ∧
    leftTotal asset (takeReceived s sender).2.2.history = leftTotal asset s.history := by
  constructor
  · cases asset <;> rfl
  · simp [takeReceived,World.note,World.tstore,leftTotal]

theorem takeReceived_delivers (s : World) (sender : Address) (due : Nat) :
    o.Delivers ctx due (takeReceived s sender).2.2 ↔ o.Delivers ctx due s := Iff.rfl

theorem postOp_settles {cost price : Word 32}
    (computed : keepAmount d ctx.terms cost.toNat price.toNat = .ok keep) (s : World) :
    ∃ w refund deposited left, (paymaster lib tryRecover d).complete o.of ks 2
        (postOp d d.entryPoint .opSucceeded ctx cost price s) = some (.ok w) ∧
      Settles ctx cost.toNat keep (receivedFee ctx s) o (takeReceived s ctx.sender).2.2 w refund
        deposited left := by
  rw [postOp,if_neg (not_not.mpr rfl),receivedFee]
  obtain ⟨receivedEth,receivedToken,taken⟩ := takeReceived s ctx.sender
  simp only [ne_eq,not_true_eq_false,if_false,computed]
  by_cases eth : ctx.terms.feeToken = 0
  · rw [if_pos eth,if_pos eth]
    exact settleEth_completes eth taken
  · rw [if_neg eth,if_neg eth]
    exact settleToken_completes eth taken

/-- Without success nothing is called and nothing moves. -/
theorem postOp_reverted {mode : PostOpMode} (unsuccessful : mode ≠ .opSucceeded)
    {cost price : Word 32} (s : World) : ∃ w,
    (paymaster lib tryRecover d).complete o.of ks n (postOp d d.entryPoint mode ctx cost price s) =
      some (.ok w) ∧
    w.transient = (takeReceived s ctx.sender).2.2.transient ∧
    ∀ asset, w.holding asset = s.holding asset ∧
      leftTotal asset w.history = leftTotal asset s.history := by
  have unmoved := takeReceived_holding s ctx.sender
  rw [postOp,if_neg (not_not.mpr rfl)]
  generalize takeReceived s ctx.sender = taken at *
  obtain ⟨receivedEth,receivedToken,taken⟩ := taken
  simp only [unsuccessful,ne_eq,not_false_eq_true,if_true]
  refine ⟨_,complete_returned _,rfl,fun asset => ⟨?_,(unmoved asset).2⟩⟩
  rw [← (unmoved asset).1]
  cases asset <;> rfl

/-- What it comes to is reached step by step, whatever is below it on the stack. -/
theorem postOp_reachable {msgSender : Address} {mode : PostOpMode} {cost price : Word 32}
    {stack : List (Frame World Pending)} (outsider : msgSender ≠ d.self)
    (completes : (paymaster lib tryRecover d).complete o.of (live stack) n
      (postOp d msgSender mode ctx cost price s) = some (.ok w)) :
    ∃ spent, ∀ gas, Reachable (paymaster lib tryRecover d) (External d)
      ⟨gas + spent + 1, s, stack⟩ ⟨gas, w, stack⟩ := by
  have acting (a : Act) (ks : List Pending) (w : World) : External d ks w (.act a) := trivial
  have answering (ok : Bool) (ks : List Pending) (w : World) : External d ks w (.answer ok) := trivial
  obtain ⟨spent,reach⟩ := @complete_reachable _ _ _ _ _ _ (External d) _ _ acting answering s _ _ _
    completes
  refine ⟨spent,fun gas => ?_⟩
  have called : Reachable (paymaster lib tryRecover d) (External d) ⟨gas + spent + 1, s, stack⟩
      (proceed (gas + spent) s stack (postOp d msgSender mode ctx cost price s)) :=
    have permitted : External d (live stack) s (.call (.postOp msgSender mode ctx cost price)) :=
      outsider
    .step .start permitted rfl
  exact called.trans (reach gas)

end TornadoRelayer.Paymaster

namespace TornadoRelayer

open BigEndian EventLoop JavaScript RelayerService Paymaster CallStack

/-! ### What the service signs -/

variable {platform : Platform} {service : RelayerService} {op : RpcUserOperation}
  {context : SponsorContext} {log : ServiceLog} {issued : Issued} {x : Quantities}
  {lib : Eip7702Support} {tryRecover : Bytes32 → Bytes → Option Address} {d : Deployment}

/-- The data of the submitted operation holds the signed terms. -/
theorem issued_parses (ran : ServiceRuns (service.sign platform op context) log (.ok issued))
    (read : readQuantities op = .ok x) : ∃ terms signature,
    parsePaymasterAndData (issued.submitted x).paymasterAndData = .ok (terms,signature) ∧
    terms.toFeeTerms = issued.terms := by
  obtain ⟨signature,hash,_,range,parsed,_⟩ := (sign_returns (runs_returns ran)).parses read
  exact ⟨_,signature,parsed,Terms.toFeeTerms_ofFeeTerms range⟩

/-- So does the context that validation gives for it. -/
theorem validated_terms {chain : Chain} {userOpHash : Bytes32} {ctx : Context} {data : ValidationData}
    (ran : ServiceRuns (service.sign platform op context) log (.ok issued))
    (read : readQuantities op = .ok x)
    (validated : validationResult lib tryRecover d chain d.entryPoint (issued.submitted x)
      userOpHash = .ok (ctx,data)) : ctx.terms.toFeeTerms = issued.terms := by
  obtain ⟨terms,signature,parsed,same⟩ := issued_parses ran read
  obtain ⟨_,t,sig,_,parsed',_,_,built⟩ := (validationResult_ok_iff lib).mp validated
  cases parsed.symm.trans parsed'
  cases built
  exact same

theorem signed_bounds {chain : Chain} {userOpHash : Bytes32} {ctx : Context} {data : ValidationData}
    (ran : ServiceRuns (service.sign platform op context) log (.ok issued))
    (margin : service.gasMarginBps = d.gasMarginBps.toNat)
    (small : ∀ r, service.checkRequest platform op context = .ok r → r.info.denomination < 2 ^ 180)
    (read : readQuantities op = .ok x)
    (validated : validationResult lib tryRecover d chain d.entryPoint (issued.submitted x)
      userOpHash = .ok (ctx,data)) :
    ctx.terms.fee.toNat < 2 ^ 180 ∧
    minimumFee x.gas x.maxFeePerGas d.gasMarginBps.toNat ctx.terms.serviceFee.toNat
      ctx.terms.tokenPerEth.toNat ≤ ctx.terms.fee.toNat := by
  have same := validated_terms ran read validated
  obtain ⟨r,rate,_,_,_,_,_,_,_,checked,_,weighed,_,_,built⟩ := sign_runs ran
  have request := checkRequest_ok checked
  obtain ⟨gas,_,price,_⟩ := readQuantities_ok_iff.mp read
  have limits : r.gas = x.gas := Except.ok.inj (request.gas.symm.trans gas)
  have priced : r.maxFeePerGas = x.maxFeePerGas :=
    Except.ok.inj (request.maxFeePerGas.symm.trans price)
  have fee : (ctx.terms.fee.toNat : Int) = r.w.fee.toNat :=
    (congrArg FeeTerms.fee same).trans (signedTerms_fee built)
  have serviceFee : (ctx.terms.serviceFee.toNat : Int) = issued.terms.serviceFee :=
    congrArg FeeTerms.serviceFee same
  have rate : (ctx.terms.tokenPerEth.toNat : Int) = issued.terms.tokenPerEth :=
    congrArg FeeTerms.tokenPerEth same
  have floor := checkFee_ok weighed
  rw [(signedTerms_floor built).2,← serviceFee,← rate,limits,priced,margin,← fee] at floor
  have within := request.fee
  have denomination := small r checked
  exact ⟨by omega,floor⟩

/-- Whatever the refund's recipient, the token and the EntryPoint do: `postOp` of a signed
operation ends without reverting, after at most two calls, and leaves both received slots
empty. Without success nothing moves; with it what was received is refunded, deposited or
left, and a refund that is delivered leaves what the fee and the amount to keep have in common. -/
theorem postOp_completes {chain : Chain} {userOpHash : Bytes32} {ctx : Context}
    {data : ValidationData} {cost price : Word 32}
    (ran : ServiceRuns (service.sign platform op context) log (.ok issued))
    (margin : service.gasMarginBps = d.gasMarginBps.toNat)
    (small : ∀ r, service.checkRequest platform op context = .ok r → r.info.denomination < 2 ^ 180)
    (read : readQuantities op = .ok x)
    (validated : validationResult lib tryRecover d chain d.entryPoint (issued.submitted x)
      userOpHash = .ok (ctx,data))
    (within : cost.toNat + d.postOpGasOverhead.toNat * price.toNat ≤ totalGas x.gas * x.maxFeePerGas)
    (mode : PostOpMode) (o : Outcomes) (ks : List Pending) (s : Paymaster.World) :
    ∃ keep w, keepAmount d ctx.terms cost.toNat price.toNat = .ok keep ∧
    (paymaster lib tryRecover d).complete o.of ks 2
      (postOp d d.entryPoint mode ctx cost price s) = some (.ok w) ∧
    (∀ asset : Asset, w.transient (receivedSlot asset.seed ctx.sender) = 0) ∧
    (mode ≠ .opSucceeded → ∀ asset, w.holding asset = s.holding asset ∧
      leftTotal asset w.history = leftTotal asset s.history) ∧
    (mode = .opSucceeded → ∃ refund deposited left,
      Settles ctx cost.toNat keep (receivedFee ctx s) o (takeReceived s ctx.sender).2.2 w refund
        deposited left ∧
      refund ≤ ctx.terms.fee.toNat - keep ∧ refund ≤ receivedFee ctx s ∧
      (ctx.terms.refundTo ≠ 0 → receivedFee ctx s = ctx.terms.fee.toNat →
        (keep < ctx.terms.fee.toNat → o.Delivers ctx (ctx.terms.fee.toNat - keep) s) →
        receivedFee ctx s - refund = min ctx.terms.fee.toNat keep)) := by
  obtain ⟨fits,floor⟩ := signed_bounds ran margin small read validated
  have computed := keepAmount_computes floor fits within
  generalize keptFor d.gasMarginBps.toNat ctx.terms.feeToken ctx.terms.tokenPerEth.toNat
    ctx.terms.serviceFee.toNat (cost.toNat + d.postOpGasOverhead.toNat * price.toNat) = keep at *
  by_cases succeeded : mode = .opSucceeded
  · subst succeeded
    obtain ⟨w,refund,deposited,left,completes,settled⟩ := postOp_settles computed s
    refine ⟨keep,w,computed,completes,fun asset => ?_,fun no => absurd rfl no,fun _ => ?_⟩
    · rw [settled.moved.transient]
      exact takeReceived_cleared s ctx.sender asset
    · exact ⟨refund,deposited,left,settled,settled.refund_le.1,settled.refund_le.2,
        fun promised whole delivers => settled.retains promised whole fun more =>
          (takeReceived_delivers ..).mpr (delivers more)⟩
  · obtain ⟨w,completes,cleared,unmoved⟩ := postOp_reverted succeeded s
    refine ⟨keep,w,computed,completes,fun asset => ?_,fun _ => unmoved,fun yes => absurd yes succeeded⟩
    rw [cleared]
    exact takeReceived_cleared s ctx.sender asset

theorem getHash_unmarked (chain : Chain) (self : Address) {userOp : PackedUserOperation}
    (terms : Terms) (plain : ¬MarkedInitCode userOp.initCode) :
    ∃ hash, getHash lib chain self userOp terms = .ok hash := by
  rw [getHash,userOpFieldsHash,lib.unmarked _ _ plain]
  exact ⟨_,rfl⟩

/-- The account of the sample delegates to the implementation it names. -/
def simpleChain : Chain where
  chainid := 1
  code _ := designator SIMPLE_7702_ACCOUNT
  noZeroDelegate _ := by decide

def sampleQuantities : Quantities := ⟨⟨600000,150000,100000,60000,90000⟩,0,10 ^ 9,10 ^ 9⟩

/-- The refund arrives, and the EntryPoint takes no deposit. -/
def sampleOutcomes : Outcomes := ⟨some [],.reverted,none⟩

/-- The fee of the sample has been received. -/
def feeReceived : Paymaster.World :=
  addReceived (World.initial (10 ^ 16) fun _ => 0) .eth sampleAccount (10 ^ 16)

theorem postOp_completes_sample : ∃ ctx keep w,
    keepAmount sampleDeployment ctx.terms (10 ^ 14) (10 ^ 9) = .ok keep ∧
    (paymaster Eip7702Support.standard (fun _ _ => none) sampleDeployment).complete
      sampleOutcomes.of [] 2 (postOp sampleDeployment sampleDeployment.entryPoint .opSucceeded ctx
        (BitVec.ofNat 256 (10 ^ 14)) (BitVec.ofNat 256 (10 ^ 9)) feeReceived) = some (.ok w) ∧
    ∀ asset : Asset, w.transient (receivedSlot asset.seed ctx.sender) = 0 := by
  obtain ⟨_,issued,ran⟩ := master_signs
  have read : readQuantities (sampleOp 1 SIMPLE_7702_ACCOUNT) = .ok sampleQuantities := rfl
  obtain ⟨terms,signature,parsed,same⟩ := issued_parses ran read
  have signed := sign_returns (runs_returns ran)
  have bound : terms.senderImplementation = SIMPLE_7702_ACCOUNT := by
    have listed := signed.listed
    rw [← same] at listed
    exact List.mem_singleton.mp listed
  have plain : ¬MarkedInitCode (issued.submitted sampleQuantities).initCode := by
    have none : ¬MarkedInitCode (initCodeBytes (sampleOp 1 SIMPLE_7702_ACCOUNT)) := by decide
    rw [← signed.same] at none
    exact none
  obtain ⟨hash,hashed⟩ := @getHash_unmarked Eip7702Support.standard simpleChain
    sampleDeployment.self _ terms plain
  have delegates : delegatedTo simpleChain (issued.submitted sampleQuantities).sender
      terms.senderImplementation = true := by
    rw [bound,delegatedTo]
    simp [simpleChain,designator]
  have validated := (@validationResult_ok_iff Eip7702Support.standard (fun _ _ => none)
    sampleDeployment simpleChain _ _ 0 _).mpr
    ⟨rfl,terms,signature,hash,parsed,fun _ => delegates,hashed,rfl⟩
  have small : ∀ r, masterService.checkRequest (samplePlatform [1]) (sampleOp 1 SIMPLE_7702_ACCOUNT)
      ⟨none⟩ = .ok r → r.info.denomination < 2 ^ 180 := by
    intro r checked
    have served := (checkRequest_ok checked).info
    rw [instanceOf] at served
    split at served
    · next info found =>
      cases served
      have only := List.mem_singleton.mp (List.mem_of_find?_eq_some found)
      rw [only]
      decide
    · exact absurd served (by simp)
  have within : (BitVec.ofNat 256 (10 ^ 14)).toNat + sampleDeployment.postOpGasOverhead.toNat *
      (BitVec.ofNat 256 (10 ^ 9)).toNat ≤
      totalGas sampleQuantities.gas * sampleQuantities.maxFeePerGas := by decide
  obtain ⟨keep,w,computed,completes,cleared,_⟩ :=
    postOp_completes ran (by decide) small read validated within .opSucceeded sampleOutcomes [] feeReceived
  exact ⟨_,keep,w,computed,completes,cleared⟩

end TornadoRelayer
