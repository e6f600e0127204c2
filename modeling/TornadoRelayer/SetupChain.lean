import Mathlib.Algebra.BigOperators.Group.List.Basic
import TornadoRelayer.ScriptedRun
import TornadoRelayer.Setup

/-! What the setup runs against: the chain as its node reports it, the relayer key's
transactions, and the state file. -/
namespace TornadoRelayer.Setup

open BigEndian EventLoop JavaScript

/-- What the node reports of a worker contract. -/
structure Worker where
  code : Bytes
  deployed : code ≠ []
  owner : Address
  verifyingSigner : Address
  entryPoint : Address
  router : Address
  layoutLength : Nat
  deriving DecidableEq

inductive Transaction where
  | deploy (account : Address) (args : ConstructorArgs)
  | call (address : Address) (call : SetupCall) (value : Int)
  deriving DecidableEq

namespace Transaction

def value : Transaction → Int
  | .deploy .. => 0
  | .call _ _ value => value

def isDeployment : Transaction → Bool
  | .deploy .. => true
  | .call .. => false

/-- What the transaction adds to the stake. -/
def staking : Transaction → Int
  | .call _ (.addStake _) value => value
  | _ => 0

/-- What the transaction adds to the deposit. -/
def depositing : Transaction → Int
  | .call _ .deposit value => value
  | _ => 0

/-- A stake or deposit transaction. -/
def Funds : Transaction → Prop
  | .call _ (.addStake _) _ | .call _ .deposit _ => True
  | _ => False

instance : DecidablePred Funds := fun tx => by
  cases tx with
  | deploy => exact .isFalse id
  | call address call value =>
    cases call with
    | setRouter => exact .isFalse id
    | addStake => exact .isTrue trivial
    | deposit => exact .isTrue trivial

end Transaction

/-- A transaction the node has accepted; it has a receipt once it is mined. -/
structure Sent where
  hash : Bytes32
  contractAddress : Address
  tx : Transaction
  receipt : Option Receipt
  deriving DecidableEq

structure Chain where
  /-- What the path of the state file holds. -/
  file : Option FileContent
  chainId : Nat
  worker : Address → Option Worker
  info : Address → Address → DepositInfo
  relayerRegistry : Address → Option Address
  workers : Address → Address → Address
  /-- The latest first. -/
  sent : List Sent
  /-- The address and the hash of the transaction with this nonce. -/
  createAddress : Nat → Address
  txHash : Nat → Bytes32
  runtimeCode : { code : Bytes // code ≠ [] }
  /-- Whether the wallet throws when it is to send a negative value. -/
  refusesNegative : Int → Option Thrown

namespace Chain

theorem runtimeCode_deployed (c : Chain) : c.runtimeCode.1 ≠ [] := c.runtimeCode.2

/-! ### Reads -/

def noAnswer : Thrown := .viem "ContractFunctionExecutionError"

def ofWorker (c : Chain) (address : Address) (field : Worker → α) : Except Thrown α :=
  match c.worker address with
  | none => .error noAnswer
  | some worker => .ok (field worker)

def getter (c : Chain) (address : Address) : AddressGetter → Except Thrown Address
  | .entryPoint => c.ofWorker address Worker.entryPoint
  | .verifyingSigner => c.ofWorker address Worker.verifyingSigner
  | .router => c.ofWorker address Worker.router
  | .owner => c.ofWorker address Worker.owner
  | .relayerRegistry =>
    match c.relayerRegistry address with
    | none => .error noAnswer
    | some registry => .ok registry

/-! ### Transactions -/

/-- The node accepts a transaction. -/
def accept (c : Chain) (tx : Transaction) : Chain :=
  { c with sent := ⟨c.txHash c.sent.length, c.createAddress c.sent.length, tx, none⟩ :: c.sent }

def updateWorker (c : Chain) (address : Address) (change : Worker → Worker) : Chain :=
  { c with worker := Function.update c.worker address ((c.worker address).map change) }

def updateInfo (c : Chain) (address : Address) (change : DepositInfo → DepositInfo) : Chain :=
  match c.worker address with
  | none => c
  | some worker =>
    let infos := c.info worker.entryPoint
    let changed := Function.update infos address (change (infos address))
    { c with info := Function.update c.info worker.entryPoint changed }

/-- What a transaction that succeeds does. `addStake` adds to the stake and sets the flag. -/
def apply (c : Chain) (contractAddress : Address) : Transaction → Chain
  | .deploy account args =>
    let worker : Worker := ⟨c.runtimeCode.1, c.runtimeCode_deployed, account,
      args.verifyingSigner, args.entryPoint, zeroAddress, Paymaster.PAYMASTER_AND_DATA_LENGTH⟩
    { c with worker := Function.update c.worker contractAddress (some worker) }
  | .call address (.setRouter router) _ => c.updateWorker address fun w => { w with router }
  | .call address (.addStake _) value =>
    c.updateInfo address fun i => { i with staked := true, stake := (i.stake + value).toNat }
  | .call address .deposit value =>
    c.updateInfo address fun i => { i with deposit := (i.deposit + value).toNat }

def Sent.mined (s : Sent) (success : Bool) : Sent :=
  { s with receipt := some ⟨success, if s.tx.isDeployment then some s.contractAddress else none⟩ }

/-- The `n`-th transaction, if it is pending, is mined. -/
def mine (c : Chain) (n : Nat) (success : Bool) : Chain :=
  match c.sent[n]? with
  | some ⟨hash, contractAddress, tx, none⟩ =>
    let sent := c.sent.set n (Sent.mined ⟨hash, contractAddress, tx, none⟩ success)
    if success then { c.apply contractAddress tx with sent } else { c with sent }
  | _ => c

/-- The latest transaction of this hash. -/
def find (c : Chain) (hash : Bytes32) : Option Nat := c.sent.findIdx? fun s => s.hash = hash

def receipt (c : Chain) (hash : Bytes32) : Except Thrown Receipt :=
  match (c.find hash).bind fun n => c.sent[n]?.bind Sent.receipt with
  | none => .error (.viem "TransactionReceiptNotFoundError")
  | some receipt => .ok receipt

def mineHash (c : Chain) (hash : Bytes32) (success : Bool) : Chain :=
  match c.find hash with
  | none => c
  | some n => c.mine n success

end Chain

/-! ### What becomes of a request -/

inductive Fate where
  /-- It is met; a transaction that is waited for succeeds. -/
  | fine
  /-- It is not met, and throws. -/
  | fails (e : Thrown)
  /-- It is met all the same, but throws. -/
  | lost (e : Thrown)
  /-- A transaction reverts: when its gas is estimated, or once it is mined. A write breaks off. -/
  | reverts
  deriving DecidableEq

namespace Chain

/-- A read. -/
def reading (c : Chain) (answer : Except Thrown α) : Fate → Except Thrown α × Chain
  | .fine => (answer, c)
  | .fails e | .lost e => (.error e, c)
  | .reverts => (.error noAnswer, c)

def sending (c : Chain) (tx : Transaction) : Fate → Except Thrown Bytes32 × Chain
  | .fine => (.ok (c.txHash c.sent.length), c.accept tx)
  | .fails e => (.error e, c)
  | .lost e => (.error e, c.accept tx)
  | .reverts => (.error noAnswer, c)

/-- The wallet is asked for a transaction of this value. -/
def sendingValue (c : Chain) (tx : Transaction) (fate : Fate) : Except Thrown Bytes32 × Chain :=
  if tx.value < 0 then
    match c.refusesNegative tx.value with
    | some e => (.error e, c)
    | none => c.sending tx fate
  else c.sending tx fate

def waiting (c : Chain) (hash : Bytes32) : Fate → Except Thrown Receipt × Chain
  | .fine => ((c.mineHash hash true).receipt hash, c.mineHash hash true)
  | .fails e => (.error e, c)
  | .lost e => (.error e, c.mineHash hash true)
  | .reverts => ((c.mineHash hash false).receipt hash, c.mineHash hash false)

def answer (account : Address) (fate : Fate) (query : SetupQuery) (c : Chain) :
    Except Thrown query.Answer × Chain :=
  match query with
  | .getCode address => c.reading (.ok ((c.worker address).map Worker.code)) fate
  | .getChainId => c.reading (.ok c.chainId) fate
  | .PAYMASTER_AND_DATA_LENGTH paymaster =>
    c.reading (c.ofWorker paymaster Worker.layoutLength) fate
  | .readAddress address functionName => c.reading (c.getter address functionName) fate
  | .workers registry paymaster => c.reading (.ok (c.workers registry paymaster)) fate
  | .getDepositInfo entryPoint paymaster => c.reading (.ok (c.info entryPoint paymaster)) fate
  | .deployContract args => c.sending (.deploy account args) fate
  | .writeContract address call value => c.sendingValue (.call address call value) fate
  | .waitForTransactionReceipt hash => c.waiting hash fate
  | .setTimeout _ => (.ok (), c)

def perform (fate : Fate) (op : SetupOp) (c : Chain) : op.Result × Chain :=
  match op with
  | .existsSync _ => (c.file.isSome, c)
  | .readFileSync _ =>
    match c.file, fate with
    | some content, .fine => (.ok content, c)
    | _, .fails e | _, .lost e => (.error e, c)
    | _, _ => (.error (.error "ENOENT: no such file or directory"), c)
  | .writeFileSync _ value =>
    match fate with
    | .fine => (.ok (), { c with file := some (.json value) })
    | .fails e => (.error e, c)
    | .lost e => (.error e, { c with file := some (.json value) })
    | .reverts => (.error (.error "EIO: i/o error, write"), { c with file := some .malformed })

end Chain

/-- The setup with the relayer key `account`. -/
def host (account : Address) : Host setupInterface Chain Fate :=
  ⟨Chain.answer account, Chain.perform⟩

/-! ### What a request does -/

/-- What a query may do to the chain: nothing, send its transaction, or mine one that is sent. -/
inductive Moves (account : Address) (c : Chain) : SetupQuery → Chain → Prop where
  | still {query : SetupQuery} : Moves account c query c
  | deployed (args : ConstructorArgs) :
    Moves account c (.deployContract args) (c.accept (.deploy account args))
  | written (address : Address) (call : SetupCall) (value : Int) :
    Moves account c (.writeContract address call value) (c.accept (.call address call value))
  | mined (hash : Bytes32) (n : Nat) (success : Bool) :
    Moves account c (.waitForTransactionReceipt hash) (c.mine n success)

theorem Chain.answer_moves {account : Address} (c : Chain) (fate : Fate) (query : SetupQuery) :
    Moves account c query (c.answer account fate query).2 := by
  have sends {query : SetupQuery} {tx : Transaction} (accepted : Moves account c query (c.accept tx)) :
      Moves account c query (c.sending tx fate).2 := by
    cases fate with
    | fine => exact accepted
    | fails e => exact .still
    | lost e => exact accepted
    | reverts => exact .still
  have mines (hash : Bytes32) (success : Bool) :
      Moves account c (.waitForTransactionReceipt hash) (c.mineHash hash success) := by
    unfold Chain.mineHash
    cases c.find hash with
    | none => exact .still
    | some n => exact .mined hash n success
  cases query with
  | deployContract args => exact sends (.deployed args)
  | writeContract address call value =>
    have written : Moves account c (.writeContract address call value)
        (c.accept (.call address call value)) := .written address call value
    change Moves account c _ (c.sendingValue (.call address call value) fate).2
    unfold Chain.sendingValue
    split
    · cases c.refusesNegative (Transaction.call address call value).value with
      | none => exact sends written
      | some e => exact .still
    · exact sends written
  | waitForTransactionReceipt hash =>
    cases fate with
    | fine => exact mines hash true
    | fails e => exact .still
    | lost e => exact mines hash true
    | reverts => exact mines hash false
  | _ => cases fate <;> exact .still

/-- The two chains have the same contracts, registry and file. -/
structure SameContracts (c c' : Chain) : Prop where
  file : c'.file = c.file
  chainId : c'.chainId = c.chainId
  worker : c'.worker = c.worker
  relayerRegistry : c'.relayerRegistry = c.relayerRegistry
  workers : c'.workers = c.workers

theorem SameContracts.refl (c : Chain) : SameContracts c c := ⟨rfl,rfl,rfl,rfl,rfl⟩

theorem SameContracts.trans {c c' c'' : Chain} (first : SameContracts c c')
    (second : SameContracts c' c'') : SameContracts c c'' :=
  ⟨second.file.trans first.file,second.chainId.trans first.chainId,
    second.worker.trans first.worker,second.relayerRegistry.trans first.relayerRegistry,
    second.workers.trans first.workers⟩

theorem apply_same {c : Chain} {tx : Transaction} (contractAddress : Address) (funds : tx.Funds) :
    SameContracts c (c.apply contractAddress tx) := by
  have same (address : Address) (change : DepositInfo → DepositInfo) :
      SameContracts c (c.updateInfo address change) := by
    unfold Chain.updateInfo
    split
    · exact .refl c
    · exact ⟨rfl,rfl,rfl,rfl,rfl⟩
  cases tx with
  | deploy account args => exact funds.elim
  | call address call value =>
    cases call with
    | setRouter router => exact funds.elim
    | addStake delay =>
      rw [Chain.apply]
      exact same ..
    | deposit =>
      rw [Chain.apply]
      exact same ..

/-! ### A transaction and its receipt -/

namespace Chain

variable {c : Chain} {tx : Transaction} {account : Address}

/-- The next transaction's address, if it is a deployment, and its hash. -/
def nextAddress (c : Chain) : Address := c.createAddress c.sent.length

def nextHash (c : Chain) : Bytes32 := c.txHash c.sent.length

/-- The transaction as it is once mined. -/
def settled (c : Chain) (tx : Transaction) (success : Bool) : Sent :=
  Sent.mined ⟨c.nextHash, c.nextAddress, tx, none⟩ success

def receiptOf (c : Chain) (tx : Transaction) (success : Bool) : Receipt :=
  ⟨success, if tx.isDeployment then some c.nextAddress else none⟩

/-- The transaction is sent and mined. -/
def settle (c : Chain) (tx : Transaction) (success : Bool) : Chain :=
  let sent := c.settled tx success :: c.sent
  if success then { c.apply c.nextAddress tx with sent } else { c with sent }

theorem settle_sent (success : Bool) : (c.settle tx success).sent = c.settled tx success :: c.sent := by
  cases success <;> rfl

theorem accept_find : (c.accept tx).find c.nextHash = some 0 := by
  simp [find,accept,nextHash,List.findIdx?_cons]

theorem accept_mine (success : Bool) : (c.accept tx).mine 0 success = c.settle tx success := by
  cases success with
  | false => rfl
  | true =>
    cases tx with
    | deploy account args => rfl
    | call address call value =>
      cases call with
      | setRouter router => rfl
      | addStake delay =>
        simp only [mine,accept,settle,apply,updateInfo,List.getElem?_cons_zero,List.set_cons_zero]
        cases c.worker address <;> rfl
      | deposit =>
        simp only [mine,accept,settle,apply,updateInfo,List.getElem?_cons_zero,List.set_cons_zero]
        cases c.worker address <;> rfl

theorem accept_mineHash (success : Bool) :
    (c.accept tx).mineHash c.nextHash success = c.settle tx success := by
  rw [mineHash,accept_find]
  exact accept_mine success

theorem settle_receipt (success : Bool) :
    (c.settle tx success).receipt c.nextHash = .ok (c.receiptOf tx success) := by
  simp [receipt,find,settle_sent,settled,receiptOf,Sent.mined,List.findIdx?_cons]

/-- The transaction that was just sent is waited for. -/
theorem accept_fine : (c.accept tx).answer account .fine (.waitForTransactionReceipt c.nextHash) =
    (.ok (c.receiptOf tx true),c.settle tx true) := by
  simp [answer,waiting,accept_mineHash,settle_receipt]

theorem accept_reverts :
    (c.accept tx).answer account .reverts (.waitForTransactionReceipt c.nextHash) =
      (.ok (c.receiptOf tx false),c.settle tx false) := by
  simp [answer,waiting,accept_mineHash,settle_receipt]

end Chain

end TornadoRelayer.Setup
