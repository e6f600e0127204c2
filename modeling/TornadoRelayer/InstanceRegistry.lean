import TornadoRelayer.RelayerRegistry
import Mathlib.Data.List.Perm.Basic

/-! The sandbox's instance registry: a table of the pools and the list of those that are
enabled, and the fee manager's walk over that list. Pools, tokens and the router answer as
they like. -/
namespace TornadoRelayer.InstanceRegistry

open BigEndian RelayerRegistry

/-! ### State -/

inductive InstanceState where
  | DISABLED
  | ENABLED
  deriving DecidableEq, Repr

structure Instance where
  isERC20 : Bool
  token : Address
  state : InstanceState
  uniswapPoolSwappingFee : Word 3
  protocolFeePercentage : Word 4

/-- What a deleted entry reads as. -/
def Instance.deleted : Instance := ⟨false, zeroAddress, .DISABLED, 0, 0⟩

structure Tornado where
  addr : Address
  instance_ : Instance

structure Registry where
  router : Address
  instances : Address → Instance
  instanceIds : List Address

def Registry.initial : Registry where
  router := zeroAddress
  instances _ := .deleted
  instanceIds := []

/-- What pools, their tokens and the router answer to a call. -/
structure Outside where
  token : Address → Except String Address
  allowance : (token owner spender : Address) → Except String (Word 32)
  approveExactToken : (router token spender : Address) → Word 32 → Bool
  denomination : Address → Except String (Word 32)

inductive Call where
  | updateInstance (tornado : Tornado)
  | removeInstance (instanceId : Word 32)
  | setProtocolFee (pool : Address) (newFee : Word 4)
  | setTornadoRouter (routerAddress : Address)

/-! ### The contract -/

def _updateInstance (o : Outside) (tornado : Tornado) (s : Registry) : Except String Registry := do
  let s := { s with instances := Function.update s.instances tornado.addr tornado.instance_ }
  if tornado.instance_.isERC20 then
    let token ← o.token tornado.addr
    require (token = tornado.instance_.token) "Incorrect token"
    let allowance ← o.allowance token s.router tornado.addr
    if allowance = 0 then
      require (o.approveExactToken s.router token tornado.addr (BitVec.allOnes 256)) "approveExactToken"
  return s

def updateInstance (o : Outside) (tornado : Tornado) (s : Registry) : Except String Registry := do
  require (tornado.instance_.state ≠ .DISABLED) "Use removeInstance() for remove"
  let instanceIds := if (s.instances tornado.addr).state = .DISABLED then
    s.instanceIds ++ [tornado.addr] else s.instanceIds
  _updateInstance o tornado { s with instanceIds }

/-- The last entry takes the place of the one that goes. -/
def swapPop (ids : List Address) (i : Nat) : List Address :=
  match ids.getLast? with
  | some last => (ids.set i last).dropLast
  | none => ids

def removeInstance (o : Outside) (instanceId : Word 32) (s : Registry) : Except String Registry := do
  let pool ← (s.instanceIds[instanceId.toNat]?).elim (.error "array out of bounds") .ok
  let entry := s.instances pool
  if entry.isERC20 then
    let allowance ← o.allowance entry.token s.router pool
    if allowance ≠ 0 then
      require (o.approveExactToken s.router entry.token pool 0) "approveExactToken"
  return { s with
    instances := Function.update s.instances pool .deleted
    instanceIds := swapPop s.instanceIds instanceId.toNat }

def setProtocolFee (pool : Address) (newFee : Word 4) (s : Registry) : Registry :=
  let entry := { s.instances pool with protocolFeePercentage := newFee }
  { s with instances := Function.update s.instances pool entry }

def execute (governance : Address) (o : Outside) (msgSender : Address) (c : Call) (s : Registry) :
    Except String Registry := do
  require (msgSender = governance) "Not authorized"
  match c with
  | .updateInstance tornado => updateInstance o tornado s
  | .removeInstance instanceId => removeInstance o instanceId s
  | .setProtocolFee pool newFee => return setProtocolFee pool newFee s
  | .setTornadoRouter routerAddress => return { s with router := routerAddress }

def getAllInstances (s : Registry) : List Tornado :=
  s.instanceIds.map fun id => ⟨id, s.instances id⟩

def getAllInstanceAddresses (s : Registry) : List Address := s.instanceIds

/-! ### The fee manager -/

structure FeeManager where
  instanceFee : Address → Word 20
  instanceFeeUpdated : Address → Word 32
  /-- TORN for 1e18 base units of an asset; the zero address is ETH. -/
  tornPerAsset : Address → Word 32
  /-- The `FeeUpdated` events, oldest first. -/
  events : List (Address × Word 20)

def PROTOCOL_FEE_DIVIDER : Nat := 10000

def checkedMul (a b : Nat) : Except String Nat := do
  require (a * b < 2 ^ 256) "arithmetic overflow"
  return a * b

def calculatePoolFee (o : Outside) (registry : Registry) (m : FeeManager) (pool : Address) :
    Except String (Word 20) := do
  let entry := registry.instances pool
  if entry.protocolFeePercentage = 0 then return 0
  else
    let price := m.tornPerAsset (if entry.isERC20 then entry.token else zeroAddress)
    require (price ≠ 0) "no TORN price for asset"
    let denomination ← o.denomination pool
    let scaled ← checkedMul denomination.toNat entry.protocolFeePercentage.toNat
    let valued ← checkedMul (scaled / PROTOCOL_FEE_DIVIDER) price.toNat
    return BitVec.ofNat 160 (valued / 10 ^ 18)

def updateFee (o : Outside) (registry : Registry) (timestamp : Word 32) (m : FeeManager)
    (pool : Address) : Except String FeeManager := do
  let newFee ← calculatePoolFee o registry m pool
  return { m with
    instanceFee := Function.update m.instanceFee pool newFee
    instanceFeeUpdated := Function.update m.instanceFeeUpdated pool timestamp
    events := m.events ++ [(pool, newFee)] }

def updateFees (o : Outside) (registry : Registry) (timestamp : Word 32) (pools : List Address)
    (m : FeeManager) : Except String FeeManager :=
  pools.foldlM (updateFee o registry timestamp) m

def updateAllFees (o : Outside) (registry : Registry) (timestamp : Word 32) (m : FeeManager) :
    Except String FeeManager :=
  updateFees o registry timestamp (getAllInstanceAddresses registry) m

/-! ### The invariant -/

/-- The list holds the enabled pools, each once. -/
structure Registry.Mirrored (s : Registry) : Prop where
  nodup : s.instanceIds.Nodup
  listed : ∀ a, a ∈ s.instanceIds ↔ (s.instances a).state = .ENABLED

variable {o : Outside} {governance msgSender : Address} {s s' : Registry}

/-- What is left is the list without the entry, in another order. -/
theorem swapPop_perm {ids : List Address} {i : Nat} (inside : i < ids.length) :
    (swapPop ids i).Perm (ids.eraseIdx i) := by
  obtain rfl | ⟨init,last,rfl⟩ := List.eq_nil_or_concat' ids
  · cases inside
  rw [List.length_append,List.length_singleton] at inside
  rw [swapPop,List.getLast?_concat]
  by_cases earlier : i < init.length
  · simp only [List.set_append_left _ _ earlier,List.dropLast_concat,
      List.eraseIdx_append_of_lt_length earlier]
    exact (List.set_perm_cons_eraseIdx earlier last).trans (List.perm_append_singleton last _).symm
  · obtain rfl : i = init.length := by omega
    rw [List.eraseIdx_append_of_length_le (Nat.le_refl _)]
    simp

theorem swapPop_nodup {ids : List Address} {i : Nat} (inside : i < ids.length)
    (nodup : ids.Nodup) : (swapPop ids i).Nodup :=
  (swapPop_perm inside).nodup_iff.mpr (nodup.sublist (List.eraseIdx_sublist ids i))

theorem mem_swapPop {ids : List Address} {i : Nat} {pool a : Address} (nodup : ids.Nodup)
    (found : ids[i]? = some pool) : a ∈ swapPop ids i ↔ a ∈ ids ∧ a ≠ pool := by
  obtain ⟨inside,rfl⟩ := List.getElem?_eq_some_iff.mp found
  rw [(swapPop_perm inside).mem_iff]
  have moved := List.getElem_cons_eraseIdx_perm inside
  have apart : ids[i] ∉ ids.eraseIdx i := (List.nodup_cons.mp (moved.nodup_iff.mpr nodup)).1
  rw [← moved.mem_iff,List.mem_cons]
  constructor
  · intro member
    refine ⟨.inr member,?_⟩
    rintro rfl
    exact apart member
  · rintro ⟨same | member,other⟩
    · exact absurd same other
    · exact member

/-! ### One call -/

theorem _updateInstance_ok {tornado : Tornado} (ok : _updateInstance o tornado s = .ok s') :
    s' = { s with instances := Function.update s.instances tornado.addr tornado.instance_ } := by
  rw [_updateInstance] at ok
  split at ok
  · obtain ⟨token,_,ok⟩ := bind_ok_iff.mp ok
    obtain ⟨_,_,ok⟩ := bind_ok_iff.mp ok
    obtain ⟨allowance,_,ok⟩ := bind_ok_iff.mp ok
    split at ok
    · obtain ⟨_,_,ok⟩ := bind_ok_iff.mp ok
      exact (Except.ok.inj ok).symm
    · exact (Except.ok.inj ok).symm
  · exact (Except.ok.inj ok).symm

theorem updateInstance_ok {tornado : Tornado} (ok : updateInstance o tornado s = .ok s') :
    tornado.instance_.state = .ENABLED ∧
    s'.instances = Function.update s.instances tornado.addr tornado.instance_ ∧
    s'.instanceIds = if (s.instances tornado.addr).state = .DISABLED then
      s.instanceIds ++ [tornado.addr] else s.instanceIds := by
  obtain ⟨_,enabled,ok⟩ := bind_ok_iff.mp ok
  rw [require_ok_iff] at enabled
  obtain rfl := _updateInstance_ok ok
  refine ⟨?_,rfl,rfl⟩
  cases state : tornado.instance_.state with
  | DISABLED => exact absurd state enabled
  | ENABLED => rfl

theorem removeInstance_ok {instanceId : Word 32} (ok : removeInstance o instanceId s = .ok s') :
    ∃ pool, s.instanceIds[instanceId.toNat]? = some pool ∧
      s'.instances = Function.update s.instances pool .deleted ∧
      s'.instanceIds = swapPop s.instanceIds instanceId.toNat := by
  obtain ⟨pool,found,ok⟩ := bind_ok_iff.mp ok
  have found : s.instanceIds[instanceId.toNat]? = some pool := by
    cases read : s.instanceIds[instanceId.toNat]? with
    | none => rw [read] at found; contradiction
    | some other => rw [read] at found; exact congrArg some (Except.ok.inj found)
  refine ⟨pool,found,?_⟩
  simp only at ok
  split at ok
  · obtain ⟨allowance,_,ok⟩ := bind_ok_iff.mp ok
    split at ok
    · obtain ⟨_,_,ok⟩ := bind_ok_iff.mp ok
      cases ok
      exact ⟨rfl,rfl⟩
    · cases ok
      exact ⟨rfl,rfl⟩
  · cases ok
    exact ⟨rfl,rfl⟩

theorem updateInstance_mirrored {tornado : Tornado} (mirrored : s.Mirrored)
    (ok : updateInstance o tornado s = .ok s') : s'.Mirrored := by
  obtain ⟨enabled,instances,ids⟩ := updateInstance_ok ok
  have table (a : Address) : (s'.instances a).state = .ENABLED ↔
      a = tornado.addr ∨ (s.instances a).state = .ENABLED := by
    rw [instances]
    by_cases own : a = tornado.addr
    · subst own
      simp [enabled]
    · simp [own]
  by_cases new : (s.instances tornado.addr).state = .DISABLED
  · rw [if_pos new] at ids
    have absent : tornado.addr ∉ s.instanceIds := by
      rw [mirrored.listed,new]
      exact nofun
    refine ⟨?_,fun a => ?_⟩
    · rw [ids,List.nodup_append]
      exact ⟨mirrored.nodup,List.nodup_singleton _,fun a member b last => by
        rw [List.mem_singleton.mp last]
        exact fun same => absent (same ▸ member)⟩
    · rw [ids,table,List.mem_append,List.mem_singleton,mirrored.listed,or_comm]
  · rw [if_neg new] at ids
    have present : (s.instances tornado.addr).state = .ENABLED := by
      cases state : (s.instances tornado.addr).state with
      | DISABLED => exact absurd state new
      | ENABLED => rfl
    refine ⟨ids ▸ mirrored.nodup,fun a => ?_⟩
    rw [ids,table,mirrored.listed]
    constructor
    · exact .inr
    · rintro (rfl | old)
      · exact present
      · exact old

theorem removeInstance_mirrored {instanceId : Word 32} (mirrored : s.Mirrored)
    (ok : removeInstance o instanceId s = .ok s') : s'.Mirrored := by
  obtain ⟨pool,found,instances,ids⟩ := removeInstance_ok ok
  refine ⟨?_,fun a => ?_⟩
  · rw [ids]
    exact swapPop_nodup (List.getElem?_eq_some_iff.mp found).1 mirrored.nodup
  · rw [ids,mem_swapPop mirrored.nodup found,mirrored.listed,instances]
    by_cases own : a = pool
    · subst own
      simp [Instance.deleted]
    · simp [own]

/-- Only the fee of one entry changes, enabled or not. -/
theorem setProtocolFee_mirrored (mirrored : s.Mirrored) (pool : Address) (newFee : Word 4) :
    (setProtocolFee pool newFee s).Mirrored := by
  refine ⟨mirrored.nodup,fun a => (mirrored.listed a).trans ?_⟩
  rw [setProtocolFee]
  by_cases own : a = pool
  · subst own
    simp
  · simp [own]

theorem execute_mirrored {c : Call} (mirrored : s.Mirrored)
    (ok : execute governance o msgSender c s = .ok s') : s'.Mirrored := by
  obtain ⟨_,_,ok⟩ := bind_ok_iff.mp ok
  cases c with
  | updateInstance tornado => exact updateInstance_mirrored mirrored ok
  | removeInstance instanceId => exact removeInstance_mirrored mirrored ok
  | setProtocolFee pool newFee =>
    cases ok
    exact setProtocolFee_mirrored mirrored pool newFee
  | setTornadoRouter routerAddress =>
    cases ok
    exact ⟨mirrored.nodup,mirrored.listed⟩

/-! ### The fees -/

/-- Each pool of the list gets one event, in the order of the list. -/
theorem updateFees_events {registry : Registry} {timestamp : Word 32} {pools : List Address}
    {m m' : FeeManager} (ok : updateFees o registry timestamp pools m = .ok m') :
    ∃ recent, m'.events = m.events ++ recent ∧ recent.map Prod.fst = pools := by
  induction pools generalizing m with
  | nil =>
    cases ok
    exact ⟨[],(List.append_nil _).symm,rfl⟩
  | cons pool rest ih =>
    obtain ⟨next,first,later⟩ := bind_ok_iff.mp ok
    obtain ⟨fee,_,first⟩ := bind_ok_iff.mp first
    cases first
    obtain ⟨recent,events,visited⟩ := ih later
    refine ⟨(pool,fee) :: recent,?_,by rw [List.map_cons,visited]⟩
    rw [events,List.append_assoc]
    rfl

/-! ### Every run -/

/-- A call of governance succeeds; one that reverts changes nothing. -/
def Registry.Step (governance : Address) (s s' : Registry) : Prop :=
  ∃ o msgSender c, execute governance o msgSender c s = .ok s'

def Registry.Reachable (governance : Address) : Registry → Prop :=
  Relation.ReflTransGen (Step governance) .initial

theorem initial_mirrored : Registry.initial.Mirrored where
  nodup := List.nodup_nil
  listed _ := by simp [Registry.initial,Instance.deleted]

theorem Registry.Reachable.mirrored (reach : s.Reachable governance) : s.Mirrored := by
  induction reach with
  | refl => exact initial_mirrored
  | tail _ stepped ih =>
    obtain ⟨_,_,_,ok⟩ := stepped
    exact execute_mirrored ih ok

/-- What holds in a state and of every call in it. -/
structure Registry.Guarantees (governance : Address) (s : Registry) : Prop extends s.Mirrored where
  all : ((getAllInstances s).map Tornado.addr).Nodup ∧ ∀ t, t ∈ getAllInstances s ↔
    (s.instances t.addr).state = .ENABLED ∧ t.instance_ = s.instances t.addr
  fees : ∀ o timestamp m m', updateAllFees o s timestamp m = .ok m' →
    ∃ recent, m'.events = m.events ++ recent ∧ (recent.map Prod.fst).Nodup ∧
      ∀ a, a ∈ recent.map Prod.fst ↔ (s.instances a).state = .ENABLED
  removes : ∀ o msgSender instanceId s',
    execute governance o msgSender (.removeInstance instanceId) s = .ok s' →
    ∃ pool, s.instanceIds[instanceId.toNat]? = some pool ∧
      (s'.instances pool).state = .DISABLED ∧
      ∀ a, a ≠ pool → s'.instances a = s.instances a

/-- In every state that calls of any senders lead to, the list mirrors the table. -/
theorem instances_mirrored (reach : s.Reachable governance) : s.Guarantees governance := by
  have mirrored := reach.mirrored
  refine ⟨mirrored,⟨?_,fun t => ?_⟩,?_,?_⟩
  · rw [getAllInstances,List.map_map]
    exact (List.map_id' s.instanceIds).symm ▸ mirrored.nodup
  · rw [getAllInstances,List.mem_map,← mirrored.listed]
    constructor
    · rintro ⟨id,member,rfl⟩
      exact ⟨member,rfl⟩
    · rintro ⟨member,same⟩
      exact ⟨t.addr,member,by rw [← same]⟩
  · intro o timestamp m m' ok
    obtain ⟨recent,events,visited⟩ := updateFees_events ok
    refine ⟨recent,events,?_,fun a => ?_⟩
    · exact visited ▸ mirrored.nodup
    · rw [visited]
      exact mirrored.listed a
  · intro o msgSender instanceId s' ok
    obtain ⟨_,_,ok⟩ := bind_ok_iff.mp ok
    obtain ⟨pool,found,instances,_⟩ := removeInstance_ok ok
    refine ⟨pool,found,?_,fun a other => ?_⟩
    · rw [instances,Function.update_self]
      rfl
    · rw [instances,Function.update_of_ne other]

def quietOutside : Outside where
  token _ := .ok 0x70
  allowance _ _ _ := .ok 0
  approveExactToken _ _ _ _ := true
  denomination _ := .ok (10 ^ 17)

/-- Two pools are listed, one of them for a token, and the first of them is removed again. -/
def delistedRun : Except String Registry := do
  let s ← execute 0x90 quietOutside 0x90
    (.updateInstance ⟨0x12d6, ⟨false, zeroAddress, .ENABLED, 0, 30⟩⟩) .initial
  let s ← execute 0x90 quietOutside 0x90
    (.updateInstance ⟨0x5432, ⟨true, 0x70, .ENABLED, 3000, 30⟩⟩) s
  execute 0x90 quietOutside 0x90 (.removeInstance 0) s

theorem instances_mirrored_delisted : ∃ s, delistedRun = .ok s ∧ s.Guarantees 0x90 := by
  obtain ⟨s,ran⟩ : ∃ s, delistedRun = .ok s := ⟨_,rfl⟩
  obtain ⟨s₁,first,rest⟩ := bind_ok_iff.mp ran
  obtain ⟨s₂,second,third⟩ := bind_ok_iff.mp rest
  have reach : s₂.Reachable 0x90 :=
    (Relation.ReflTransGen.refl.tail ⟨_,_,_,first⟩).tail ⟨_,_,_,second⟩
  exact ⟨s,ran,instances_mirrored (reach.tail ⟨_,_,_,third⟩)⟩

end TornadoRelayer.InstanceRegistry
