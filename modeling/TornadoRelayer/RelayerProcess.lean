import TornadoRelayer.Service

/-! The process the service runs in: its clock, the store and its file, what it has
issued, and the EntryPoint deposit that pays for it. Operations land and deposits arrive
at any time; the process may stop between any two of its steps. -/
namespace TornadoRelayer

open BigEndian EventLoop JavaScript RelayerService

inductive ChainEvent where
  | topUp (amount : Nat)
  /-- The issued operation of this number, and what it cost the paymaster. -/
  | included (n charge : Nat)
  deriving DecidableEq, Repr

/-- The deposit after these events, the latest first. -/
def depositAfter (opening : Int) : List ChainEvent → Int
  | [] => opening
  | .topUp amount :: log => depositAfter opening log + amount
  | .included _ charge :: log => depositAfter opening log - charge

structure World where
  /-- Milliseconds. -/
  clock : Nat
  /-- `none` while no process runs. -/
  service : Option RelayerService
  store : MemorySponsorshipStore
  disk : Disk
  opening : Int
  chain : List ChainEvent
  /-- In the order they were returned. -/
  issued : List Issued

/-- The clock as the service reads it. -/
def World.now (w : World) : JsNumber := (w.clock / 1000 : Nat)

def World.deposit (w : World) : Int := depositAfter w.opening w.chain

inductive Reply where
  | signed (issued : Issued)
  | status (status : Status)

inductive Surroundings where
  | tick (ms : Nat)
  | topUp (amount : Nat)
  | inclusion (n charge : Nat)

inductive Restart where
  | crash
  | boot (service : RelayerService) (writeFault renameFault : Bool)

def World.exec (fault : Bool) (op : Op) (w : World) : World × op.Result :=
  match op with
  | .dateNow => (w, w.clock)
  | .prune now => ({ w with store := w.store.prune now }, ())
  | .get k => (w, w.store.get k)
  | .reserve k claim =>
    let (store, reserved) := w.store.reserve w.clock k claim
    ({ w with store }, reserved)
  | .release k token => ({ w with store := w.store.release k token }, ())
  | .set k next => ({ w with store := w.store.set k next }, ())
  | .signedEntries => (w, w.store.signedEntries)
  | .outstanding now => (w, w.store.outstanding now)
  | .writeFileSync value =>
    let (disk, written) := w.disk.writeFileSync fault value
    ({ w with disk }, written)
  | .renameSync =>
    let (disk, renamed) := w.disk.renameSync fault
    ({ w with disk }, renamed)

def World.finish (r : Except Thrown Reply) (w : World) : World :=
  match r with
  | .ok (.signed s) => { w with issued := w.issued ++ [s] }
  | _ => w

def World.pass (e : Surroundings) (w : World) : World :=
  match e with
  | .tick ms => { w with clock := w.clock + ms }
  | .topUp amount => { w with chain := .topUp amount :: w.chain }
  | .inclusion n charge => { w with chain := .included n charge :: w.chain }

def World.restart (r : Restart) (w : World) : World :=
  match r with
  | .crash => { w with service := none, store := .empty }
  | .boot service writeFault renameFault =>
    match service.config.sponsorshipStore with
    | .memory => { w with service := some service, store := .empty }
    | .file path =>
      match FileSponsorshipStore.new path w.now writeFault renameFault w.disk with
      | (disk, .ok store) => { w with service := some service, store, disk }
      | (disk, .error _) => { w with disk }

def relayer : Process serviceInterface Reply World Surroundings Restart :=
  ⟨World.exec, World.finish, World.pass, World.restart⟩

/-! ### What may happen -/

namespace RelayerService.Issued

def key (s : Issued) : String := toHex s.nullifierHash.bytes

def validUntil (s : Issued) : JsNumber := s.terms.validUntil

end RelayerService.Issued

/-- The entry records the issued sponsorship, or a release recorded it without its cost. -/
structure SponsoredNote.Records (note : SponsoredNote) (s : Issued) : Prop where
  status : note.status = .signed
  validUntil : note.validUntil = s.validUntil
  cost : ∀ cost, note.maxGasCostWei = some cost → cost = s.maxGasCostWei

/-- An issued operation lands once, before its signature expires, at no more than its cost. -/
def World.MayInclude (w : World) (n charge : Nat) : Prop :=
  (∀ c, .included n c ∉ w.chain) ∧ ∃ s, w.issued[n]? = some s ∧ w.now ≤ s.validUntil ∧
    charge ≤ s.maxGasCostWei

/-- The store still holds the entry of this issued operation. -/
def World.StillHeld (w : World) (n : Nat) : Prop :=
  ∃ s note, w.issued[n]? = some s ∧ (s.key,note) ∈ w.store.notes.entries ∧ note.Records s

/-- A deposit reading: the deposit at some moment between the call and its return. A
`settled` reading is one whose later inclusions the store still holds on return. -/
def DepositRead (settled : Prop) (asked returned : World) (deposit : Int) : Prop :=
  ∃ recent moment, returned.chain = recent ++ moment ∧ asked.chain <:+ moment ∧
    deposit = depositAfter returned.opening moment ∧
    (settled → ∀ n charge, .included n charge ∈ recent → returned.StillHeld n)

/-- The requests a service takes: `sign` of anything, and `status`. -/
inductive Requested (platform : Platform) (service : RelayerService) :
    Program serviceInterface Reply → Prop where
  | sign (op : RpcUserOperation) (context : SponsorContext) : Requested platform service
      (do return .signed (← service.sign platform op context))
  | status : Requested platform service (do return .status (← service.status))

/-- Anything may be asked, every other answer may be anything, and a process starts when
none runs. One that keeps its sponsorships in memory starts only when none is live.
`budgeted` rules out two things: an unsettled reading and a negative reserve. -/
def permits (platform : Platform) (kind : StoreKind) (budgeted : Prop) :
    Permits serviceInterface Reply World Surroundings Restart where
  call w p := ∃ service, w.service = some service ∧ Requested platform service p
  answer query asked returned r :=
    match query, r with
    | .getDeposit, .ok deposit => DepositRead budgeted asked returned deposit
    | _, _ => True
  env w
    | .tick _ | .topUp _ => True
    | .inclusion n charge => w.MayInclude n charge
  reset w
    | .crash => True
    | .boot service _ _ => w.service = none ∧ service.config.sponsorshipStore = kind ∧
      (kind = .memory → ∀ s ∈ w.issued, s.validUntil < w.now) ∧
      (budgeted → 0 ≤ service.config.minDepositWei.getD 0)

end TornadoRelayer
