import TornadoRelayer.RelayerRegistry
import TornadoRelayer.Transaction

/-! The zap of the tail calls: it swaps what its caller pays and supplies the proceeds to Aave.
What the router leaves of an input is not the zap's own to keep, and is not given back. -/
namespace TornadoRelayer.SwapAndSupplyZap

open BigEndian
open RelayerRegistry (require require_ok_iff)
open Paymaster (Asset)

/-! ### Balances and allowances -/

/-- What the Aave pool has credited. -/
structure Supply where
  token : Address
  amount : Nat
  onBehalfOf : Address
  deriving DecidableEq

inductive Event where
  | swappedAndSupplied (onBehalfOf tokenIn tokenOut : Address) (amountIn amountOut : Nat)
  | supplied (onBehalfOf token : Address) (amount : Nat)

structure World where
  holding : Asset × Address → Nat
  /-- By token, owner and spender. -/
  allowance : Address × Address × Address → Nat
  supplies : List Supply
  events : List Event

structure Deployment where
  zap : Address
  WETH : Address
  SWAP_ROUTER : Address
  AAVE_POOL : Address
  apart : [zap, WETH, SWAP_ROUTER, AAVE_POOL].Nodup
  /-- The token leaves an allowance of 2^256 - 1 as it is when it is spent from. -/
  infinite : Address → Bool

structure ExactInputSingleParams where
  tokenIn : Address
  tokenOut : Address
  fee : Word 3
  recipient : Address
  amountIn : Nat
  amountOutMinimum : Nat
  sqrtPriceLimitX96 : Nat

/-- A swap that the router has made, of the input or a part of it. -/
structure Fill (p : ExactInputSingleParams) where
  consumed : Nat
  amountOut : Nat
  within : consumed ≤ p.amountIn
  enough : p.amountOutMinimum ≤ amountOut

/-- What the router, the Aave pool and the tokens do in a call. -/
structure Outside where
  exactInputSingle : (p : ExactInputSingleParams) → Option (Fill p)
  supply : Supply → Bool
  transferFrom : (token owner recipient : Address) → Nat → Bool
  approve : (token spender : Address) → Nat → Bool

def MAX : Nat := 2 ^ 256 - 1

/-- What is left of an allowance. -/
def Deployment.unspent (d : Deployment) (token : Address) (allowance spent : Nat) : Nat :=
  if d.infinite token ∧ allowance = MAX then allowance else allowance - spent

def World.give (a : Asset) (holder : Address) (n : Nat) (s : World) : World :=
  { s with holding := Function.update s.holding (a,holder) (s.holding (a,holder) + n) }

def World.take (a : Asset) (holder : Address) (n : Nat) (s : World) : Except String World := do
  require (n ≤ s.holding (a,holder)) "insufficient balance"
  return { s with holding := Function.update s.holding (a,holder) (s.holding (a,holder) - n) }

def World.transferFrom (d : Deployment) (o : Outside) (token spender owner recipient : Address)
    (n : Nat) (s : World) : Except String World := do
  let allowance := s.allowance (token,owner,spender)
  require (o.transferFrom token owner recipient n) "SafeERC20FailedOperation"
  require (n ≤ allowance) "insufficient allowance"
  let s ← s.take (.token token) owner n
  let s := s.give (.token token) recipient n
  let left := d.unspent token allowance n
  return { s with allowance := Function.update s.allowance (token,owner,spender) left }

/-! ### The contract -/

variable (d : Deployment) (o : Outside)

def forceApprove (token spender : Address) (n : Nat) (s : World) : Except String World := do
  require (o.approve token spender n) "SafeERC20FailedOperation"
  return { s with allowance := Function.update s.allowance (token,d.zap,spender) n }

def _supply (token : Address) (amount : Nat) (onBehalfOf : Address) (s : World) :
    Except String World := do
  let s ← forceApprove d o token d.AAVE_POOL amount s
  require (o.supply ⟨token, amount, onBehalfOf⟩) "supply"
  let s ← s.transferFrom d o token d.AAVE_POOL d.zap d.AAVE_POOL amount
  return { s with
    supplies := s.supplies ++ [⟨token, amount, onBehalfOf⟩]
    events := s.events ++ [.supplied onBehalfOf token amount] }

def exactInputSingle (p : ExactInputSingleParams) : Except String (Fill p) :=
  (o.exactInputSingle p).elim (.error "exactInputSingle") .ok

def ethParams (msgValue : Nat) (tokenOut : Address) (poolFee : Word 3) (minOut : Nat) :
    ExactInputSingleParams :=
  ⟨d.WETH, tokenOut, poolFee, d.zap, msgValue, minOut, 0⟩

def tokenParams (tokenIn : Address) (amountIn : Nat) (tokenOut : Address) (poolFee : Word 3)
    (minOut : Nat) : ExactInputSingleParams :=
  ⟨tokenIn, tokenOut, poolFee, d.zap, amountIn, minOut, 0⟩

def swapEthAndSupply (msgSender : Address) (msgValue : Nat) (tokenOut : Address) (poolFee : Word 3)
    (minOut : Nat) (onBehalfOf : Address) (s : World) : Except String (World × Nat) := do
  let s ← s.take .eth msgSender msgValue
  let s := s.give .eth d.zap msgValue
  require (msgValue ≠ 0) "ZeroValue"
  let fill ← exactInputSingle o (ethParams d msgValue tokenOut poolFee minOut)
  let s ← s.take .eth d.zap msgValue
  -- The router wraps what it swaps, and keeps the rest until it is asked for a refund.
  let s := s.give .eth d.SWAP_ROUTER (msgValue - fill.consumed)
  let s := s.give (.token tokenOut) d.zap fill.amountOut
  let s ← _supply d o tokenOut fill.amountOut onBehalfOf s
  return ({ s with events := s.events ++
    [.swappedAndSupplied onBehalfOf d.WETH tokenOut msgValue fill.amountOut] }, fill.amountOut)

def swapTokenAndSupply (msgSender tokenIn : Address) (amountIn : Nat) (tokenOut : Address)
    (poolFee : Word 3) (minOut : Nat) (onBehalfOf : Address) (s : World) :
    Except String (World × Nat) := do
  require (amountIn ≠ 0) "ZeroValue"
  let s ← s.transferFrom d o tokenIn d.zap msgSender d.zap amountIn
  let s ← forceApprove d o tokenIn d.SWAP_ROUTER amountIn s
  let fill ← exactInputSingle o (tokenParams d tokenIn amountIn tokenOut poolFee minOut)
  let s ← s.transferFrom d o tokenIn d.SWAP_ROUTER d.zap d.SWAP_ROUTER fill.consumed
  let s := s.give (.token tokenOut) d.zap fill.amountOut
  let s ← _supply d o tokenOut fill.amountOut onBehalfOf s
  return ({ s with events := s.events ++
    [.swappedAndSupplied onBehalfOf tokenIn tokenOut amountIn fill.amountOut] }, fill.amountOut)

def wrapEthAndSupply (msgSender : Address) (msgValue : Nat) (onBehalfOf : Address) (s : World) :
    Except String World := do
  let s ← s.take .eth msgSender msgValue
  let s := s.give .eth d.zap msgValue
  require (msgValue ≠ 0) "ZeroValue"
  let s ← s.take .eth d.zap msgValue
  let s := s.give .eth d.WETH msgValue
  let s := s.give (.token d.WETH) d.zap msgValue
  _supply d o d.WETH msgValue onBehalfOf s

def supplyToken (msgSender token : Address) (amount : Nat) (onBehalfOf : Address) (s : World) :
    Except String World := do
  require (amount ≠ 0) "ZeroValue"
  let s ← s.transferFrom d o token d.zap msgSender d.zap amount
  _supply d o token amount onBehalfOf s

inductive Call where
  | swapEthAndSupply (msgValue : Nat) (tokenOut : Address) (poolFee : Word 3) (minOut : Nat)
  | swapTokenAndSupply (tokenIn : Address) (amountIn : Nat) (tokenOut : Address) (poolFee : Word 3)
    (minOut : Nat)
  | wrapEthAndSupply (msgValue : Nat)
  | supplyToken (token : Address) (amount : Nat)

def execute (msgSender onBehalfOf : Address) (c : Call) (s : World) : Except String World := do
  match c with
  | .swapEthAndSupply msgValue tokenOut poolFee minOut =>
    let r ← swapEthAndSupply d o msgSender msgValue tokenOut poolFee minOut onBehalfOf s
    return r.1
  | .swapTokenAndSupply tokenIn amountIn tokenOut poolFee minOut =>
    let r ← swapTokenAndSupply d o msgSender tokenIn amountIn tokenOut poolFee minOut onBehalfOf s
    return r.1
  | .wrapEthAndSupply msgValue => wrapEthAndSupply d o msgSender msgValue onBehalfOf s
  | .supplyToken token amount => supplyToken d o msgSender token amount onBehalfOf s

/-! ### What a call is to leave behind -/

variable {d} {o}

namespace Call

def input : Call → Deployment → Asset
  | .swapEthAndSupply .., _ | .wrapEthAndSupply _, _ => .eth
  | .swapTokenAndSupply tokenIn .., _ => .token tokenIn
  | .supplyToken token _, _ => .token token

def amount : Call → Nat
  | .swapEthAndSupply msgValue .. | .wrapEthAndSupply msgValue => msgValue
  | .swapTokenAndSupply _ amountIn .. | .supplyToken _ amountIn => amountIn

/-- The swap that is asked for, if any. -/
def params (d : Deployment) : Call → Option ExactInputSingleParams
  | .swapEthAndSupply msgValue tokenOut poolFee minOut => some (ethParams d msgValue tokenOut poolFee minOut)
  | .swapTokenAndSupply tokenIn amountIn tokenOut poolFee minOut =>
    some (tokenParams d tokenIn amountIn tokenOut poolFee minOut)
  | _ => none

def tokenOut (d : Deployment) : Call → Address
  | .swapEthAndSupply _ tokenOut .. | .swapTokenAndSupply _ _ tokenOut .. => tokenOut
  | .wrapEthAndSupply _ => d.WETH
  | .supplyToken token _ => token

/-- How much of the input is converted, and into how much. -/
def converted (d : Deployment) (o : Outside) (c : Call) : Nat × Nat :=
  match c.params d with
  | none => (c.amount,c.amount)
  | some p => (o.exactInputSingle p).elim (0,0) fun fill => (fill.consumed,fill.amountOut)

/-- The allowances the zap gives in the call. -/
def approvals (d : Deployment) : Call → List (Address × Address)
  | .swapTokenAndSupply tokenIn _ tokenOut .. => [(tokenIn,d.SWAP_ROUTER),(tokenOut,d.AAVE_POOL)]
  | c => [(c.tokenOut d,d.AAVE_POOL)]

end Call

/-- The caller has paid what was converted, all of the proceeds are supplied, and the zap has
what it had. -/
structure Kept (d : Deployment) (o : Outside) (msgSender onBehalfOf : Address) (c : Call)
    (s s' : World) : Prop where
  whole : s'.holding (c.input d,msgSender) + (c.converted d o).1 = s.holding (c.input d,msgSender)
  supplied : s'.supplies = s.supplies ++ [⟨c.tokenOut d, (c.converted d o).2, onBehalfOf⟩]
  zap : ∀ a, s'.holding (a,d.zap) = s.holding (a,d.zap)
  cleared : ∀ token spender, (token,spender) ∈ c.approvals d → s'.allowance (token,d.zap,spender) = 0
  others : ∀ token spender, (token,spender) ∉ c.approvals d →
    s'.allowance (token,d.zap,spender) = s.allowance (token,d.zap,spender)

/-- The router swaps all of the input, and nothing is approved that stays approved. -/
structure Whole (d : Deployment) (o : Outside) (c : Call) : Prop where
  filled : (c.converted d o).1 = c.amount
  proceeds : ¬(d.infinite (c.tokenOut d) ∧ (c.converted d o).2 = MAX)
  input : ∀ tokenIn amountIn tokenOut poolFee minOut,
    c = .swapTokenAndSupply tokenIn amountIn tokenOut poolFee minOut →
    ¬(d.infinite tokenIn ∧ amountIn = MAX)

/-! ### What moves -/

variable {s s' : World} {a : Asset} {token spender owner recipient msgSender onBehalfOf : Address}
  {n : Nat} {k : Asset × Address}

/-- The amount, at its own place. -/
def flow (place : Asset × Address) (n : Nat) (k : Asset × Address) : Nat := if k = place then n else 0

theorem give_holding (s : World) :
    (s.give a owner n).holding k = s.holding k + flow (a,owner) n k := by
  rw [World.give,flow]
  by_cases own : k = (a,owner)
  · subst own
    simp
  · simp [own]

theorem take_ok (ok : s.take a owner n = .ok s') :
    (∀ k, s'.holding k + flow (a,owner) n k = s.holding k) ∧ s'.allowance = s.allowance ∧
      s'.supplies = s.supplies := by
  obtain ⟨_,enough,ok⟩ := bind_ok_iff.mp ok
  rw [require_ok_iff] at enough
  cases ok
  refine ⟨fun k => ?_,rfl,rfl⟩
  rw [flow]
  by_cases own : k = (a,owner)
  · subst own
    simp [enough]
  · simp [own]

theorem transferFrom_ok (ok : s.transferFrom d o token spender owner recipient n = .ok s') :
    (∀ k, s'.holding k + flow (.token token,owner) n k =
      s.holding k + flow (.token token,recipient) n k) ∧
    s'.allowance = Function.update s.allowance (token,owner,spender)
      (d.unspent token (s.allowance (token,owner,spender)) n) ∧
    s'.supplies = s.supplies := by
  obtain ⟨_,_,ok⟩ := bind_ok_iff.mp ok
  obtain ⟨_,_,ok⟩ := bind_ok_iff.mp ok
  obtain ⟨taken,took,ok⟩ := bind_ok_iff.mp ok
  obtain ⟨holding,allowance,supplies⟩ := take_ok took
  cases ok
  refine ⟨fun k => ?_,?_,supplies⟩
  · have before := holding k
    simp only [give_holding]
    omega
  · exact congrArg (Function.update · _ _) allowance

theorem forceApprove_ok (ok : forceApprove d o token spender n s = .ok s') :
    s' = { s with allowance := Function.update s.allowance (token,d.zap,spender) n } := by
  obtain ⟨_,_,ok⟩ := bind_ok_iff.mp ok
  exact (Except.ok.inj ok).symm

theorem exactInputSingle_ok {p : ExactInputSingleParams} {fill : Fill p}
    (ok : exactInputSingle o p = .ok fill) : o.exactInputSingle p = some fill := by
  rw [exactInputSingle] at ok
  cases swapped : o.exactInputSingle p with
  | none => rw [swapped] at ok; contradiction
  | some other => rw [swapped] at ok; exact congrArg some (Except.ok.inj ok)

theorem supply_ok (ok : _supply d o token n onBehalfOf s = .ok s') :
    (∀ k, s'.holding k + flow (.token token,d.zap) n k =
      s.holding k + flow (.token token,d.AAVE_POOL) n k) ∧
    s'.allowance = Function.update s.allowance (token,d.zap,d.AAVE_POOL) (d.unspent token n n) ∧
    s'.supplies = s.supplies ++ [⟨token, n, onBehalfOf⟩] := by
  obtain ⟨approved,approves,ok⟩ := bind_ok_iff.mp ok
  obtain rfl := forceApprove_ok approves
  obtain ⟨_,_,ok⟩ := bind_ok_iff.mp ok
  obtain ⟨pulled,pulls,ok⟩ := bind_ok_iff.mp ok
  obtain ⟨holding,allowance,supplies⟩ := transferFrom_ok pulls
  simp only [Function.update_self,Function.update_idem] at allowance
  cases ok
  exact ⟨holding,allowance,congrArg (· ++ _) supplies⟩

theorem swapEth_ok {value : Nat} {tokenOut : Address} {poolFee : Word 3} {minOut : Nat}
    (ok : execute d o msgSender onBehalfOf (.swapEthAndSupply value tokenOut poolFee minOut) s = .ok s') :
    ∃ fill, o.exactInputSingle (ethParams d value tokenOut poolFee minOut) = some fill ∧
    (∀ k, s'.holding k + flow (.eth,msgSender) value k = s.holding k +
      flow (.eth,d.SWAP_ROUTER) (value - fill.consumed) k +
      flow (.token tokenOut,d.AAVE_POOL) fill.amountOut k) ∧
    s'.allowance = Function.update s.allowance (tokenOut,d.zap,d.AAVE_POOL)
      (d.unspent tokenOut fill.amountOut fill.amountOut) ∧
    s'.supplies = s.supplies ++ [⟨tokenOut, fill.amountOut, onBehalfOf⟩] := by
  obtain ⟨_,ran,returned⟩ := bind_ok_iff.mp ok
  cases returned
  obtain ⟨paid,pays,ok⟩ := bind_ok_iff.mp ran
  obtain ⟨_,_,ok⟩ := bind_ok_iff.mp ok
  obtain ⟨fill,swapped,ok⟩ := bind_ok_iff.mp ok
  obtain ⟨sent,sends,ok⟩ := bind_ok_iff.mp ok
  obtain ⟨supplied,supplies,ok⟩ := bind_ok_iff.mp ok
  obtain ⟨pay,allowance₁,record₁⟩ := take_ok pays
  obtain ⟨send,allowance₂,record₂⟩ := take_ok sends
  obtain ⟨supply,allowance₃,record₃⟩ := supply_ok supplies
  cases ok
  refine ⟨fill,exactInputSingle_ok swapped,fun k => ?_,?_,?_⟩
  · have first := pay k
    have second := send k
    have third := supply k
    simp only [give_holding] at first second third ⊢
    omega
  · exact allowance₃.trans (congrArg (Function.update · _ _) (allowance₂.trans allowance₁))
  · exact record₃.trans (congrArg (· ++ _) (record₂.trans record₁))

theorem swapToken_ok {tokenIn tokenOut : Address} {amountIn : Nat} {poolFee : Word 3} {minOut : Nat}
    (ok : execute d o msgSender onBehalfOf
      (.swapTokenAndSupply tokenIn amountIn tokenOut poolFee minOut) s = .ok s') :
    ∃ fill, o.exactInputSingle (tokenParams d tokenIn amountIn tokenOut poolFee minOut) = some fill ∧
    (∀ k, s'.holding k + flow (.token tokenIn,msgSender) amountIn k = s.holding k +
      flow (.token tokenIn,d.zap) (amountIn - fill.consumed) k +
      flow (.token tokenIn,d.SWAP_ROUTER) fill.consumed k +
      flow (.token tokenOut,d.AAVE_POOL) fill.amountOut k) ∧
    s'.allowance = Function.update (Function.update
      (Function.update s.allowance (tokenIn,msgSender,d.zap)
        (d.unspent tokenIn (s.allowance (tokenIn,msgSender,d.zap)) amountIn))
      (tokenIn,d.zap,d.SWAP_ROUTER) (d.unspent tokenIn amountIn fill.consumed))
      (tokenOut,d.zap,d.AAVE_POOL) (d.unspent tokenOut fill.amountOut fill.amountOut) ∧
    s'.supplies = s.supplies ++ [⟨tokenOut, fill.amountOut, onBehalfOf⟩] := by
  obtain ⟨_,ran,returned⟩ := bind_ok_iff.mp ok
  cases returned
  obtain ⟨_,_,ok⟩ := bind_ok_iff.mp ran
  obtain ⟨paid,pays,ok⟩ := bind_ok_iff.mp ok
  obtain ⟨approved,approves,ok⟩ := bind_ok_iff.mp ok
  obtain rfl := forceApprove_ok approves
  obtain ⟨fill,swapped,ok⟩ := bind_ok_iff.mp ok
  obtain ⟨sent,sends,ok⟩ := bind_ok_iff.mp ok
  obtain ⟨supplied,supplies,ok⟩ := bind_ok_iff.mp ok
  obtain ⟨pay,allowance₁,record₁⟩ := transferFrom_ok pays
  obtain ⟨send,allowance₂,record₂⟩ := transferFrom_ok sends
  obtain ⟨supply,allowance₃,record₃⟩ := supply_ok supplies
  cases ok
  refine ⟨fill,exactInputSingle_ok swapped,fun k => ?_,?_,?_⟩
  · have within : fill.consumed ≤ amountIn := fill.within
    have first := pay k
    have second := send k
    have third := supply k
    have split : flow (.token tokenIn,d.zap) amountIn k =
        flow (.token tokenIn,d.zap) (amountIn - fill.consumed) k +
        flow (.token tokenIn,d.zap) fill.consumed k := by
      rw [flow,flow,flow]
      split <;> omega
    simp only [give_holding] at first second third ⊢
    omega
  · simp only [Function.update_self,Function.update_idem] at allowance₂
    rw [allowance₁] at allowance₂
    exact allowance₃.trans (congrArg (Function.update · _ _) allowance₂)
  · exact record₃.trans (congrArg (· ++ _) (record₂.trans record₁))

theorem wrapEth_ok {value : Nat}
    (ok : execute d o msgSender onBehalfOf (.wrapEthAndSupply value) s = .ok s') :
    (∀ k, s'.holding k + flow (.eth,msgSender) value k = s.holding k + flow (.eth,d.WETH) value k +
      flow (.token d.WETH,d.AAVE_POOL) value k) ∧
    s'.allowance = Function.update s.allowance (d.WETH,d.zap,d.AAVE_POOL)
      (d.unspent d.WETH value value) ∧
    s'.supplies = s.supplies ++ [⟨d.WETH, value, onBehalfOf⟩] := by
  obtain ⟨paid,pays,ok⟩ := bind_ok_iff.mp ok
  obtain ⟨_,_,ok⟩ := bind_ok_iff.mp ok
  obtain ⟨sent,sends,ok⟩ := bind_ok_iff.mp ok
  obtain ⟨pay,allowance₁,record₁⟩ := take_ok pays
  obtain ⟨send,allowance₂,record₂⟩ := take_ok sends
  obtain ⟨supply,allowance₃,record₃⟩ := supply_ok ok
  refine ⟨fun k => ?_,?_,?_⟩
  · have first := pay k
    have second := send k
    have third := supply k
    simp only [give_holding] at first second third ⊢
    omega
  · exact allowance₃.trans (congrArg (Function.update · _ _) (allowance₂.trans allowance₁))
  · exact record₃.trans (congrArg (· ++ _) (record₂.trans record₁))

theorem supplyToken_ok (ok : execute d o msgSender onBehalfOf (.supplyToken token n) s = .ok s') :
    (∀ k, s'.holding k + flow (.token token,msgSender) n k = s.holding k +
      flow (.token token,d.AAVE_POOL) n k) ∧
    s'.allowance = Function.update (Function.update s.allowance (token,msgSender,d.zap)
      (d.unspent token (s.allowance (token,msgSender,d.zap)) n)) (token,d.zap,d.AAVE_POOL)
      (d.unspent token n n) ∧
    s'.supplies = s.supplies ++ [⟨token, n, onBehalfOf⟩] := by
  obtain ⟨_,_,ok⟩ := bind_ok_iff.mp ok
  obtain ⟨paid,pays,ok⟩ := bind_ok_iff.mp ok
  obtain ⟨pay,allowance₁,record₁⟩ := transferFrom_ok pays
  obtain ⟨supply,allowance₂,record₂⟩ := supply_ok ok
  refine ⟨fun k => ?_,?_,?_⟩
  · have first := pay k
    have second := supply k
    omega
  · exact allowance₂.trans (congrArg (Function.update · _ _) allowance₁)
  · exact record₂.trans (congrArg (· ++ _) record₁)

/-! ### What is left behind -/

theorem unspent_eq_zero : d.unspent token n n = 0 ↔ ¬(d.infinite token ∧ n = MAX) := by
  rw [Deployment.unspent]
  split
  · next unlimited =>
    rw [unlimited.2]
    exact iff_of_false (by decide) fun no => no ⟨unlimited.1,rfl⟩
  · next spent => exact iff_of_true (Nat.sub_self n) spent

theorem Deployment.zap_apart (d : Deployment) : d.zap ≠ d.WETH ∧ d.zap ≠ d.SWAP_ROUTER ∧
    d.zap ≠ d.AAVE_POOL ∧ d.SWAP_ROUTER ≠ d.AAVE_POOL := by
  have apart := d.apart
  simp only [List.nodup_cons,List.mem_cons,List.not_mem_nil,or_false,not_or] at apart
  exact ⟨apart.1.1,apart.1.2.1,apart.1.2.2,apart.2.2.1⟩

/-- The caller has paid what was converted and the zap has what it had, exactly when all was
converted and none of it came to rest in the zap. -/
theorem settled_iff {amount converted residue : Nat} {gain : Asset × Address → Nat}
    (holding : ∀ k, s'.holding k + flow (a,msgSender) amount k =
      s.holding k + flow (a,d.zap) residue k + gain k)
    (elsewhere : ∀ b, gain (b,msgSender) = 0 ∧ gain (b,d.zap) = 0) (other : msgSender ≠ d.zap) :
    (s'.holding (a,msgSender) + converted = s.holding (a,msgSender) ∧
      ∀ b, s'.holding (b,d.zap) = s.holding (b,d.zap)) ↔ converted = amount ∧ residue = 0 := by
  have caller := holding (a,msgSender)
  simp only [flow,(elsewhere a).1,Prod.mk.injEq,other,and_false,if_false,if_true] at caller
  have zap (b : Asset) : s'.holding (b,d.zap) =
      s.holding (b,d.zap) + if b = a then residue else 0 := by
    have at_ := holding (b,d.zap)
    simpa [flow,(elsewhere b).2,Ne.symm other] using at_
  constructor
  · rintro ⟨paid,kept⟩
    have none := (zap a).symm.trans (kept a)
    rw [if_pos rfl] at none
    exact ⟨by omega,by omega⟩
  · rintro ⟨rfl,rfl⟩
    refine ⟨by omega,fun b => ?_⟩
    rw [zap b]
    split <;> rfl

theorem flow_elsewhere {place : Address} {m : Nat} {b : Asset} (other : owner ≠ place) :
    flow (a,place) m (b,owner) = 0 := if_neg fun same => other (Prod.mk.inj same).2

/-- The one approval of a call without a swap of tokens. -/
theorem cleared_iff {base : Address × Address × Address → Nat}
    (allowance : s'.allowance =
      Function.update base (token,d.zap,d.AAVE_POOL) (d.unspent token n n)) :
    (∀ t spender, (t,spender) ∈ [(token,d.AAVE_POOL)] → s'.allowance (t,d.zap,spender) = 0) ↔
      ¬(d.infinite token ∧ n = MAX) := by
  rw [← unspent_eq_zero,allowance]
  simp

theorem others_kept {base : Address × Address × Address → Nat} {m : Nat}
    (allowance : s'.allowance = Function.update base (token,d.zap,d.AAVE_POOL) m) {t : Address}
    (other : (t,spender) ∉ [(token,d.AAVE_POOL)]) :
    s'.allowance (t,d.zap,spender) = base (t,d.zap,spender) := by
  rw [allowance,Function.update_of_ne]
  rintro ⟨⟩
  exact other List.mem_cons_self

/-- What the zap spends of its caller's allowance is none of its own. -/
theorem own_kept {allowance : Address × Address × Address → Nat} {m : Nat} {t : Address}
    (other : msgSender ≠ d.zap) : Function.update allowance (token,msgSender,d.zap) m
      (t,d.zap,spender) = allowance (t,d.zap,spender) := by
  apply Function.update_of_ne
  rintro ⟨⟩
  exact other rfl

/-- A call whose one approval is that of the proceeds. -/
theorem kept_iff_filled {c : Call} {gain : Asset × Address → Nat}
    {base : Address × Address × Address → Nat} (approvals : c.approvals d = [(c.tokenOut d,d.AAVE_POOL)])
    (holding : ∀ k, s'.holding k + flow (c.input d,msgSender) c.amount k = s.holding k + gain k)
    (elsewhere : ∀ b, gain (b,msgSender) = 0 ∧ gain (b,d.zap) = 0) (other : msgSender ≠ d.zap)
    (allowance : s'.allowance = Function.update base (c.tokenOut d,d.zap,d.AAVE_POOL)
      (d.unspent (c.tokenOut d) (c.converted d o).2 (c.converted d o).2))
    (same : ∀ t spender, base (t,d.zap,spender) = s.allowance (t,d.zap,spender))
    (supplies : s'.supplies = s.supplies ++ [⟨c.tokenOut d, (c.converted d o).2, onBehalfOf⟩]) :
    Kept d o msgSender onBehalfOf c s s' ↔ (c.converted d o).1 = c.amount ∧
      ¬(d.infinite (c.tokenOut d) ∧ (c.converted d o).2 = MAX) := by
  have settled := @settled_iff d s s' (c.input d) msgSender c.amount (c.converted d o).1 0 gain
    (fun k => (holding k).trans (by simp [flow])) elsewhere other
  constructor
  · rintro ⟨whole,_,zap,cleared,_⟩
    rw [approvals] at cleared
    exact ⟨(settled.mp ⟨whole,zap⟩).1,(cleared_iff allowance).mp cleared⟩
  · rintro ⟨filled,proceeds⟩
    obtain ⟨whole,zap⟩ := settled.mpr ⟨filled,rfl⟩
    refine ⟨whole,supplies,zap,?_,?_⟩
    · rw [approvals]
      exact (cleared_iff allowance).mpr proceeds
    · rw [approvals]
      exact fun t spender elsewhere => (others_kept allowance elsewhere).trans (same t spender)

/-- For a caller that is none of the contracts: a call that succeeds keeps and strands nothing
exactly when the router swaps the whole input and no approval is one that stays. -/
theorem kept_iff_whole {c : Call}
    (outsider : msgSender ∉ [d.zap,d.WETH,d.SWAP_ROUTER,d.AAVE_POOL])
    (ok : execute d o msgSender onBehalfOf c s = .ok s') :
    Kept d o msgSender onBehalfOf c s s' ↔ Whole d o c := by
  simp only [List.mem_cons,List.not_mem_nil,or_false,not_or] at outsider
  obtain ⟨notZap,notWeth,notRouter,notPool⟩ := outsider
  obtain ⟨zapWeth,zapRouter,zapPool,routerPool⟩ := d.zap_apart
  cases c with
  | swapEthAndSupply value tokenOut poolFee minOut =>
    obtain ⟨fill,swapped,holding,allowance,supplies⟩ := swapEth_ok ok
    have converted : (Call.swapEthAndSupply value tokenOut poolFee minOut).converted d o =
        (fill.consumed,fill.amountOut) := by simp [Call.converted,Call.params,swapped]
    refine (kept_iff_filled rfl (fun k => (holding k).trans (Nat.add_assoc ..)) ?_ notZap
      (converted ▸ allowance) (fun _ _ => rfl) (converted ▸ supplies)).trans ?_
    · exact fun b => by simp [flow_elsewhere,notRouter,notPool,zapRouter,zapPool]
    · exact ⟨fun ⟨filled,proceeds⟩ => ⟨filled,proceeds,by simp⟩,fun w => ⟨w.filled,w.proceeds⟩⟩
  | swapTokenAndSupply tokenIn amountIn tokenOut poolFee minOut =>
    obtain ⟨fill,swapped,holding,allowance,supplies⟩ := swapToken_ok ok
    have converted : (Call.swapTokenAndSupply tokenIn amountIn tokenOut poolFee minOut).converted d o =
        (fill.consumed,fill.amountOut) := by simp [Call.converted,Call.params,swapped]
    have settled := @settled_iff d s s' (.token tokenIn) msgSender amountIn fill.consumed
      (amountIn - fill.consumed) (fun k => flow (.token tokenIn,d.SWAP_ROUTER) fill.consumed k +
        flow (.token tokenOut,d.AAVE_POOL) fill.amountOut k)
      (fun k => (holding k).trans (Nat.add_assoc ..))
      (fun b => by simp [flow_elsewhere,notRouter,notPool,zapRouter,zapPool]) notZap
    have proceeds : s'.allowance (tokenOut,d.zap,d.AAVE_POOL) =
        d.unspent tokenOut fill.amountOut fill.amountOut := by
      rw [allowance,Function.update_self]
    have input : s'.allowance (tokenIn,d.zap,d.SWAP_ROUTER) =
        d.unspent tokenIn amountIn fill.consumed := by
      rw [allowance,Function.update_of_ne (by simp [routerPool]),Function.update_self]
    constructor
    · rintro ⟨whole,_,zap,cleared,_⟩
      rw [converted] at whole
      have filled := (settled.mp ⟨whole,zap⟩).1
      refine ⟨by rw [converted]; exact filled,?_,?_⟩
      · rw [converted]
        exact unspent_eq_zero.mp (proceeds.symm.trans (cleared _ _ (by simp [Call.approvals])))
      · rintro _ _ _ _ _ ⟨⟩
        rw [filled] at input
        exact unspent_eq_zero.mp (input.symm.trans (cleared _ _ (by simp [Call.approvals])))
    · rintro ⟨filled,spent,unlimited⟩
      rw [converted] at filled spent
      obtain ⟨whole,zap⟩ := settled.mpr ⟨filled,by rw [show fill.consumed = amountIn from filled]; simp⟩
      refine ⟨by rw [converted]; exact whole,by rw [converted]; exact supplies,zap,?_,?_⟩
      · intro t spender given
        simp only [Call.approvals,List.mem_cons,Prod.mk.injEq,List.not_mem_nil,or_false] at given
        rcases given with ⟨rfl,rfl⟩ | ⟨rfl,rfl⟩
        · rw [input,show fill.consumed = amountIn from filled]
          exact unspent_eq_zero.mpr (unlimited _ _ _ _ _ rfl)
        · rw [proceeds]
          exact unspent_eq_zero.mpr spent
      · intro t spender elsewhere
        simp only [Call.approvals,List.mem_cons,List.not_mem_nil,or_false,not_or] at elsewhere
        rw [allowance,Function.update_of_ne,Function.update_of_ne]
        · exact own_kept notZap
        · rintro ⟨⟩
          exact elsewhere.1 rfl
        · rintro ⟨⟩
          exact elsewhere.2 rfl
  | wrapEthAndSupply value =>
    obtain ⟨holding,allowance,supplies⟩ := wrapEth_ok ok
    refine (kept_iff_filled rfl (fun k => (holding k).trans (Nat.add_assoc ..)) ?_ notZap
      allowance (fun _ _ => rfl) supplies).trans ?_
    · exact fun b => by simp [flow_elsewhere,notWeth,notPool,zapWeth,zapPool]
    · exact ⟨fun ⟨filled,proceeds⟩ => ⟨filled,proceeds,by simp⟩,fun w => ⟨w.filled,w.proceeds⟩⟩
  | supplyToken token amount =>
    obtain ⟨holding,allowance,supplies⟩ := supplyToken_ok ok
    refine (kept_iff_filled rfl holding ?_ notZap allowance (fun _ _ => own_kept notZap)
      supplies).trans ?_
    · exact fun b => by simp [flow_elsewhere,notPool,zapPool]
    · exact ⟨fun ⟨filled,proceeds⟩ => ⟨filled,proceeds,by simp⟩,fun w => ⟨w.filled,w.proceeds⟩⟩

/-! ### A whole and a partial fill -/

def someDeployment : Deployment where
  zap := 0x2a
  WETH := 0x7e
  SWAP_ROUTER := 0x50
  AAVE_POOL := 0xaa
  apart := by decide
  infinite token := token = 0x7e

/-- The router's pool has liquidity for so much of an input. -/
def liquidity (limit : Nat) : Outside where
  exactInputSingle p := if enough : p.amountOutMinimum ≤ 7 then
    some ⟨min limit p.amountIn, 7, Nat.min_le_right .., enough⟩ else none
  supply _ := true
  transferFrom _ _ _ _ := true
  approve _ _ _ := true

def someWorld : World where
  holding k := if k.2 = 0xc0 then 100 else 0
  allowance k := if k = (0x11,0xc0,0x2a) then 50 else 0
  supplies := []
  events := []

theorem kept_iff_whole_liquid : ∃ s', execute someDeployment (liquidity 1000) 0xc0 0x0b
      (.swapTokenAndSupply 0x11 10 0x22 3000 5) someWorld = .ok s' ∧
    Kept someDeployment (liquidity 1000) 0xc0 0x0b (.swapTokenAndSupply 0x11 10 0x22 3000 5)
      someWorld s' := by
  refine ⟨_,rfl,(kept_iff_whole (by decide) rfl).mpr ⟨rfl,by decide,?_⟩⟩
  rintro _ _ _ _ _ ⟨⟩
  decide

/-- Liquidity for 4 of 10: the rest of the ETH is left with the router, the rest of the tokens
in the zap. -/
theorem partial_fill_strands :
    (∃ s', execute someDeployment (liquidity 4) 0xc0 0x0b (.swapEthAndSupply 10 0x22 3000 5)
        someWorld = .ok s' ∧ s'.holding (.eth,0x50) = 6 ∧
      ¬Kept someDeployment (liquidity 4) 0xc0 0x0b (.swapEthAndSupply 10 0x22 3000 5) someWorld s') ∧
    ∃ s', execute someDeployment (liquidity 4) 0xc0 0x0b (.swapTokenAndSupply 0x11 10 0x22 3000 5)
        someWorld = .ok s' ∧ s'.holding (.token 0x11,0x2a) = 6 ∧
      s'.allowance (0x11,0x2a,0x50) = 6 ∧
      ¬Kept someDeployment (liquidity 4) 0xc0 0x0b (.swapTokenAndSupply 0x11 10 0x22 3000 5)
        someWorld s' :=
  ⟨⟨_,rfl,rfl,fun kept => absurd kept.whole (by decide)⟩,
    ⟨_,rfl,rfl,rfl,fun kept => absurd kept.whole (by decide)⟩⟩

end TornadoRelayer.SwapAndSupplyZap
