import TornadoRelayer.HexText
import Mathlib.Tactic.Linarith

/-! The relayer's `price.ts` and `fee.ts`: how many base units of a fee token are worth 1 ETH,
and what an operation has to pay. Amounts are `bigint`s, whose division truncates. -/
namespace TornadoRelayer

open BigEndian JavaScript

/-! ### Prices -/

def WRAPPED_TOKENS : List Address := [0x5d3a536e4d6dbd6114cc1ead35777bab948e3643]

/-- The inverse of the oracle's wei per whole token. -/
def oneInchRate (token : Address) (decimals : Nat) (rate : Word 32) : Except Thrown Nat :=
  let one := 10 ^ decimals
  let weiPerToken := rate.toNat * one / RATE_SCALE
  if weiPerToken = 0 then .error (.error s!"oracle returned a zero price for {addressText token}")
  else .ok (RATE_SCALE * one / weiPerToken)

structure OneInchPriceSource where
  ttlMs : Nat
  /-- Values by token, each with the time it was read. -/
  cache : InsertionMap Address (Nat × Nat)

/-- A rate is kept with the time it was read. -/
def OneInchPriceSource.refresh (source : OneInchPriceSource) (answered : Nat) (token : Address)
    (read : Except Thrown Nat) : OneInchPriceSource × Except Thrown Nat :=
  match read with
  | .error e => (source, .error e)
  | .ok value => ({ source with cache := source.cache.set token (value, answered) }, .ok value)

/-- The oracle is asked at the first time and has answered by the second. -/
def OneInchPriceSource.tokenPerEth (source : OneInchPriceSource)
    (getRateToEth : Address → Bool → Except Thrown (Word 32)) (asked answered : Nat)
    (token : Address) (decimals : Nat) : OneInchPriceSource × Except Thrown Nat :=
  let read := do
    let rate ← getRateToEth token (decide (token ∈ WRAPPED_TOKENS))
    oneInchRate token decimals rate
  match source.cache.get token with
  | some (value, at_) =>
    if (asked : Int) - at_ < source.ttlMs then (source, .ok value)
    else source.refresh answered token read
  | none => source.refresh answered token read

/-- The groups of `^(\d+)(?:\.(\d+))?$`. -/
def matchDecimal (text : List Char) : Option (List Char × List Char) :=
  let whole := text.takeWhile Char.isDigit
  if whole = [] then none
  else match text.dropWhile Char.isDigit with
    | [] => some (whole, [])
    | c :: frac => if c = '.' ∧ frac ≠ [] ∧ frac.all Char.isDigit then some (whole, frac) else none

def parseDecimal (value : String) (decimals : Nat) : Except Thrown Nat :=
  match matchDecimal (trim value.toList) with
  | none => .error (.error s!"invalid decimal {value}")
  | some (whole, frac) =>
    let fracPadded := (frac ++ List.replicate decimals '0').take decimals
    match readDigits 10 (whole ++ fracPadded) with
    | some n => .ok n
    | none => .error (.error s!"Cannot convert {value} to a BigInt")

/-- Whole tokens per ETH, as configured. -/
structure FixedPriceSource where
  prices : InsertionMap Address String

def FixedPriceSource.tokenPerEth (source : FixedPriceSource) (token : Address) (decimals : Nat) :
    Except Thrown Nat :=
  match source.prices.get token with
  | none => .error (.error s!"no fixed price configured for {addressText token}")
  | some price => parseDecimal price decimals

/-- The rates a source can return for a token. -/
inductive PriceSource where
  | oneInch
  | fixed (source : FixedPriceSource)

def PriceSource.Returns (source : PriceSource) (token : Address) (decimals rate : Nat) : Prop :=
  match source with
  | .oneInch => ∃ answer, oneInchRate token decimals answer = .ok rate
  | .fixed source => source.tokenPerEth token decimals = .ok rate

/-- Every cached rate is one that was read for its token. -/
def OneInchPriceSource.Kept (source : OneInchPriceSource) (decimals : Address → Nat) : Prop :=
  ∀ token value at_, (token,(value,at_)) ∈ source.cache.entries →
    PriceSource.oneInch.Returns token (decimals token) value

variable {source after : OneInchPriceSource} {decimals : Address → Nat} {token : Address}
  {answered : Nat} {r : Except Thrown Nat}

theorem OneInchPriceSource.refresh_returns {read : Except Thrown Nat} (kept : source.Kept decimals)
    (quoted : ∀ rate, read = .ok rate → PriceSource.oneInch.Returns token (decimals token) rate)
    (ran : source.refresh answered token read = (after,r)) :
    after.Kept decimals ∧
      ∀ rate, r = .ok rate → PriceSource.oneInch.Returns token (decimals token) rate := by
  cases read with
  | error e =>
    cases ran
    exact ⟨kept,by simp⟩
  | ok value =>
    cases ran
    refine ⟨fun t value' at_ member => ?_,quoted⟩
    rcases InsertionMap.mem_set.mp member with ⟨rfl,same⟩ | ⟨_,old⟩
    · cases same
      exact quoted value rfl
    · exact kept t value' at_ old

/-- What the oracle's source keeps and returns are rates it has read. -/
theorem OneInchPriceSource.tokenPerEth_returns
    {getRateToEth : Address → Bool → Except Thrown (Word 32)} {asked : Nat}
    (kept : source.Kept decimals)
    (ran : source.tokenPerEth getRateToEth asked answered token (decimals token) = (after,r)) :
    after.Kept decimals ∧
      ∀ rate, r = .ok rate → PriceSource.oneInch.Returns token (decimals token) rate := by
  have quoted : ∀ rate, (do
      let rate ← getRateToEth token (decide (token ∈ WRAPPED_TOKENS))
      oneInchRate token (decimals token) rate) = .ok rate →
      PriceSource.oneInch.Returns token (decimals token) rate := by
    intro rate read
    obtain ⟨answer,_,quoted⟩ := bind_ok_iff.mp read
    exact ⟨answer,quoted⟩
  rw [tokenPerEth] at ran
  split at ran
  · next value at_ held =>
    split at ran
    · cases ran
      refine ⟨kept,fun _ returned => ?_⟩
      cases returned
      exact kept token value at_ (InsertionMap.get_eq_some.mp held)
    · exact refresh_returns kept quoted ran
  · exact refresh_returns kept quoted ran

/-! ### Fees -/

def BPS : Nat := 10000

def serviceFeeFor (denomination serviceFeeBps : Int) : Int :=
  (denomination * serviceFeeBps).tdiv BPS

def ceilDiv (a b : Int) : Int := (a + b - 1).tdiv b

def minimumFee (gas : UserOpGas) (maxFeePerGas gasMarginBps serviceFee tokenPerEth : Int) : Int :=
  let prefund := totalGas gas * maxFeePerGas
  let keepEth := prefund + (prefund * gasMarginBps).tdiv BPS
  let keep := if tokenPerEth ≠ 0 then ceilDiv (keepEth * tokenPerEth) RATE_SCALE else keepEth
  keep + serviceFee

theorem le_ceilDiv_mul {a b : Int} (ha : 0 ≤ a) (hb : 0 < b) : a ≤ ceilDiv a b * b := by
  have quotient := Int.lt_ediv_add_one_mul_self (a + b - 1) hb
  rw [ceilDiv,Int.tdiv_eq_ediv_of_nonneg (by omega)]
  rw [add_mul,one_mul] at quotient
  omega

/-- A fee at the floor pays for all the gas of the operation, at the signed rate. -/
theorem minimumFee_covers {gas : UserOpGas} {maxFeePerGas gasMarginBps serviceFee rate fee : Nat}
    (floor : minimumFee gas maxFeePerGas gasMarginBps serviceFee rate ≤ fee) :
    totalGas gas * maxFeePerGas * (if rate = 0 then RATE_SCALE else rate) +
      serviceFee * RATE_SCALE ≤ fee * RATE_SCALE := by
  have margin : (0 : Int) ≤ ((totalGas gas : Int) * maxFeePerGas * gasMarginBps).tdiv BPS :=
    Int.tdiv_nonneg (by positivity) (by decide)
  rw [minimumFee] at floor
  by_cases free : rate = 0
  · simp only [free,Nat.cast_zero,ne_eq,not_true_eq_false,if_false] at floor
    have whole : totalGas gas * maxFeePerGas + serviceFee ≤ fee := by
      zify
      omega
    rw [if_pos free,← Nat.add_mul]
    exact Nat.mul_le_mul_right _ whole
  · have priced : ((rate : Nat) : Int) ≠ 0 := by exact_mod_cast free
    simp only [priced,ne_eq,not_false_eq_true,if_true] at floor
    rw [if_neg free]
    generalize ((totalGas gas : Int) * maxFeePerGas * gasMarginBps).tdiv BPS = kept at *
    have rounded : ((totalGas gas : Int) * maxFeePerGas + kept) * rate ≤
        ceilDiv (((totalGas gas : Int) * maxFeePerGas + kept) * rate) RATE_SCALE * RATE_SCALE :=
      le_ceilDiv_mul (by positivity) (by decide)
    generalize ceilDiv (((totalGas gas : Int) * maxFeePerGas + kept) * rate) RATE_SCALE = keep
      at *
    have scale : (0 : Int) ≤ RATE_SCALE := Int.natCast_nonneg _
    have extra : (0 : Int) ≤ kept * rate := by positivity
    zify
    nlinarith

end TornadoRelayer
