import TornadoRelayer.UserOp
import Mathlib.Data.List.Sort

/-! The client's `merkle.ts`: the leaves of an instance, scanned in chunks from where the
cache stops. Decimal texts are the numbers they write. -/
namespace TornadoRelayer.Merkle

open BigEndian

structure LeafCache where
  instanceAddress : Address
  chainId : Nat
  lastBlock : Int
  leaves : List Nat
  /-- Missing in caches of earlier releases. -/
  leafBlocks : Option (List Int)

/-- A file that does not exist, cannot be read, or holds a value. -/
abbrev File (α : Type) := Option (Except Thrown α)

structure TornadoCliDeposit where
  blockNumber : Int
  commitment : Nat
  leafIndex : Nat

structure SyncOptions where
  fromBlock : Int
  chunk : Nat
  positive : 0 < chunk
  cacheFile : Bool
  /-- Its path and its content. -/
  seedFile : String × File (List TornadoCliDeposit)
  toBlock : Option Int
  concurrency : Option Nat

structure LeafEvent where
  leafIndex : Nat
  commitment : Nat
  block : Int
  deriving DecidableEq

structure PublicClient where
  getChainId : Except Thrown Nat
  getBlockNumber : Except Thrown Int
  getLogs : Int × Int → Except Thrown (List LeafEvent)

/-! ### Where a scan starts -/

/-- The next leaf, and the latest block so far. -/
def seedLeaf (file : String) (seed : Int × List Nat × List Int) (d : TornadoCliDeposit) :
    Except Thrown (Int × List Nat × List Int) :=
  let (lastBlock, leaves, leafBlocks) := seed
  if d.leafIndex ≠ leaves.length then
    .error (.error s!"tornado-cli cache {file}: leaf index gap at {d.leafIndex}")
  else .ok (if d.blockNumber > lastBlock then d.blockNumber else lastBlock,
    leaves ++ [d.commitment], leafBlocks ++ [d.blockNumber])

def leafCacheFromTornadoCli (file : String) (deposits : List TornadoCliDeposit)
    (instanceAddress : Address) (chainId : Nat) : Except Thrown LeafCache := do
  let deposits := deposits.insertionSort fun a b => a.leafIndex ≤ b.leafIndex
  let (lastBlock, leaves, leafBlocks) ← deposits.foldlM (seedLeaf file) (0, [], [])
  return { instanceAddress, chainId, lastBlock, leaves, leafBlocks := some leafBlocks }

def openCache (instanceAddress : Address) (chainId : Nat) (opts : SyncOptions)
    (file : File LeafCache) : Except Thrown LeafCache :=
  let fresh : LeafCache := ⟨instanceAddress, chainId, opts.fromBlock - 1, [], none⟩
  match (if opts.cacheFile then file else none), opts.seedFile with
  | some loaded, _ => do
    let loaded ← loaded
    return if loaded.instanceAddress = instanceAddress ∧ loaded.chainId = chainId then loaded else fresh
  | none, (path, some deposits) => do
    leafCacheFromTornadoCli path (← deposits) instanceAddress chainId
  | none, (_, none) => .ok fresh

/-- A cache built past `head` is cut back to the leaves deposited by then. -/
def rewind (cache : LeafCache) (head : Int) : Except Thrown LeafCache :=
  if cache.lastBlock > head then
    match cache.leafBlocks with
    | none => .error (.error
      s!"leaf cache is ahead of block {head} and has no per-leaf blocks to rewind")
    | some leafBlocks =>
      let keep := (leafBlocks.takeWhile (· ≤ head)).length
      .ok { cache with
        leaves := cache.leaves.take keep
        leafBlocks := some (leafBlocks.take keep)
        lastBlock := head }
  else .ok cache

def headOf (client : PublicClient) (opts : SyncOptions) : Except Thrown Int :=
  match opts.toBlock with
  | some head => .ok head
  | none => client.getBlockNumber

/-- The cache the scan extends, and the block it ends at. -/
def start (client : PublicClient) (instanceAddress : Address) (opts : SyncOptions)
    (file : File LeafCache) : Except Thrown (LeafCache × Int) := do
  let chainId ← client.getChainId
  let cache ← openCache instanceAddress chainId opts file
  let head ← headOf client opts
  let cache ← rewind cache head
  return (cache, head)

/-! ### The scan -/

/-- The loop over the chunks, which takes at most one turn for each block. -/
def rangesFrom (chunk : Nat) (head : Int) : Nat → Int → List (Int × Int)
  | 0, _ => []
  | turns + 1, from_ =>
    if from_ ≤ head then
      (from_, if from_ + chunk - 1 > head then head else from_ + chunk - 1) ::
        rangesFrom chunk head turns (from_ + chunk)
    else []

def ranges (chunk : Nat) (lastBlock head : Int) : List (Int × Int) :=
  rangesFrom chunk head (head - lastBlock).toNat (lastBlock + 1)

def workers (concurrency : Option Nat) (ranges : Nat) : Nat :=
  max 1 (min (concurrency.getD 1) (if ranges = 0 then 1 else ranges))

/-- The workers of a run: the ranges no worker has taken, the requests without an answer, all
requests so far, and the leaves found, or what the first worker to fail threw. -/
structure Scan where
  left : List (Int × Int)
  inFlight : List (Int × Int)
  requested : List (Int × Int)
  events : Except Thrown (List LeafEvent)

/-- Each worker requests a range. -/
def Scan.start (ranges : List (Int × Int)) (count : Nat) : Scan :=
  ⟨ranges.drop count, ranges.take count, ranges.take count, .ok []⟩

/-- A worker requests the next range, if one is left. -/
def Scan.next (s : Scan) : Scan :=
  { s with
    left := s.left.drop 1
    inFlight := s.inFlight ++ s.left.take 1
    requested := s.requested ++ s.left.take 1 }

/-- One of the requests is answered. A failure stops its worker, and the others go on even
when the run has thrown. -/
def Scan.answer (client : PublicClient) (s : Scan) (i : Nat) : Scan :=
  let done := i % s.inFlight.length
  match s.inFlight[done]? with
  | none => s
  | some r =>
    let logs := client.getLogs r
    let s := { s with
      inFlight := s.inFlight.eraseIdx done
      events := do return (← s.events) ++ (← logs) }
    match logs with
    | .ok _ => s.next
    | .error _ => s

/-- `Promise.all`: `none` while no worker has failed and an answer is missing. -/
def Scan.outcome (s : Scan) : Option (Except Thrown (List LeafEvent)) :=
  match s.events with
  | .error e => some (.error e)
  | .ok events => if s.inFlight.isEmpty then some (.ok events) else none

def addLeaf (kept : List Nat × List Int) (e : LeafEvent) : Except Thrown (List Nat × List Int) :=
  let (leaves, leafBlocks) := kept
  if e.leafIndex ≠ leaves.length then
    .error (.error s!"leaf index gap: expected {leaves.length}, got {e.leafIndex}")
  else .ok (leaves ++ [e.commitment], leafBlocks ++ [e.block])

/-- Leaves without a block of their own get the last one of the cache. -/
def addLeaves (cache : LeafCache) (head : Int) (events : List LeafEvent) :
    Except Thrown LeafCache := do
  let events := events.insertionSort fun a b => a.leafIndex ≤ b.leafIndex
  let leafBlocks := cache.leafBlocks.getD (cache.leaves.map fun _ => cache.lastBlock)
  let (leaves, leafBlocks) ← events.foldlM addLeaf (cache.leaves, leafBlocks)
  return { cache with leaves, leafBlocks := some leafBlocks, lastBlock := head }

/-- What a run requests, leaves in the cache file and returns. -/
structure Sync where
  requests : List (Int × Int)
  file : File LeafCache
  result : Except Thrown LeafCache

def save (opts : SyncOptions) (writeFault : Bool) (file : File LeafCache)
    (requests : List (Int × Int)) : Except Thrown LeafCache → Sync
  | .error e => ⟨requests, file, .error e⟩
  | .ok cache =>
    if opts.cacheFile then
      -- A write that fails leaves part of the text, which does not parse.
      if writeFault then
        ⟨requests, some (.error (.error "Unexpected end of JSON input")), .error (.error "EIO")⟩
      else ⟨requests, some (.ok cache), .ok cache⟩
    else ⟨requests, file, .ok cache⟩

/-- Every `Deposit` leaf of an instance, when the requests are answered in this order. -/
def syncLeaves (client : PublicClient) (instanceAddress : Address) (opts : SyncOptions)
    (order : List Nat) (writeFault : Bool) (file : File LeafCache) : Option Sync :=
  match start client instanceAddress opts file with
  | .error e => some ⟨[], file, .error e⟩
  | .ok (cache, head) =>
    let ranges := ranges opts.chunk cache.lastBlock head
    let scan := order.foldl (Scan.answer client)
      (Scan.start ranges (workers opts.concurrency ranges.length))
    scan.outcome.map fun events =>
      save opts writeFault file scan.requested (do addLeaves cache head (← events))

/-! ### What is requested -/

/-- Consecutive ranges from after `last` up to `head`. -/
def Tiles (last head : Int) : List (Int × Int) → Prop
  | [] => head ≤ last
  | r :: rest => r.1 = last + 1 ∧ r.1 ≤ r.2 ∧ r.2 ≤ head ∧ Tiles r.2 head rest

theorem rangesFrom_past {chunk turns : Nat} {head start : Int} (past : head < start) :
    rangesFrom chunk head turns start = [] := by
  cases turns with
  | zero => rfl
  | succ turns => simp [rangesFrom,past]

theorem rangesFrom_tile {chunk turns : Nat} {last head : Int} (positive : 0 < chunk)
    (enough : (head - last).toNat ≤ turns) :
    Tiles last head (rangesFrom chunk head turns (last + 1)) := by
  induction turns generalizing last with
  | zero =>
    simp only [rangesFrom,Tiles]
    omega
  | succ turns ih =>
    simp only [rangesFrom]
    split
    · split
      · rw [rangesFrom_past (by omega)]
        exact ⟨rfl,by omega,le_rfl,le_rfl⟩
      · have next : last + 1 + chunk = last + 1 + chunk - 1 + 1 := by omega
        have rest : Tiles (last + 1 + chunk - 1) head
            (rangesFrom chunk head turns (last + 1 + chunk - 1 + 1)) := ih (by omega)
        rw [← next] at rest
        exact ⟨rfl,by omega,by omega,rest⟩
    · simp only [Tiles]
      omega

theorem ranges_tile {chunk : Nat} (positive : 0 < chunk) (last head : Int) :
    Tiles last head (ranges chunk last head) :=
  rangesFrom_tile positive le_rfl

/-! ### The workers -/

/-- The requests are the first ranges. Those with an answer gave the leaves found, in the order
of the answers, unless one of them failed. -/
structure Scan.Sound (client : PublicClient) (ranges : List (Int × Int)) (s : Scan) : Prop where
  split : s.requested ++ s.left = ranges
  busy : s.inFlight = [] → s.left = [] ∨ ∃ e, s.events = .error e
  found : ∀ events, s.events = .ok events → ∃ done logs, (done ++ s.inFlight).Perm s.requested ∧
    done.mapM client.getLogs = .ok logs ∧ events = logs.flatten
  failed : ∀ e, s.events = .error e → ∃ r ∈ s.requested, client.getLogs r = .error e

variable {client : PublicClient} {rs : List (Int × Int)} {s : Scan}

theorem Scan.start_sound {count : Nat} (some : 0 < count) : (start rs count).Sound client rs where
  split := List.take_append_drop ..
  busy none := by
    rcases List.take_eq_nil_iff.mp none with zero | empty
    · omega
    · exact .inl (by simp [start,empty])
  found events read := by
    cases read
    exact ⟨[],[],List.Perm.refl _,rfl,rfl⟩
  failed e read := by cases read

/-- What an answer does: its worker takes the next range, or fails. -/
theorem Scan.answer_cases (client : PublicClient) (s : Scan) (i : Nat) :
    (s.inFlight = [] ∧ s.answer client i = s) ∨
    ∃ r inFlight, (r :: inFlight).Perm s.inFlight ∧
      ((∃ logs, client.getLogs r = .ok logs ∧ s.answer client i =
          ⟨s.left.drop 1, inFlight ++ s.left.take 1, s.requested ++ s.left.take 1,
            s.events.map (· ++ logs)⟩) ∨
        ∃ e, client.getLogs r = .error e ∧ s.answer client i =
          ⟨s.left, inFlight, s.requested, s.events.bind fun _ => .error e⟩) := by
  cases empty : s.inFlight with
  | nil => exact .inl ⟨rfl,by simp [answer,empty]⟩
  | cons r rest =>
    have inside : i % s.inFlight.length < s.inFlight.length := Nat.mod_lt _ (by simp [empty])
    have taken := List.getElem?_eq_getElem inside
    rw [← empty]
    refine .inr ⟨_,_,List.getElem_cons_eraseIdx_perm inside,?_⟩
    cases read : client.getLogs s.inFlight[i % s.inFlight.length] with
    | ok logs =>
      refine .inl ⟨logs,rfl,?_⟩
      simp only [answer,taken,read,next]
      cases s.events <;> rfl
    | error e =>
      refine .inr ⟨e,rfl,?_⟩
      simp only [answer,taken,read]
      cases s.events <;> rfl

theorem Scan.Sound.answer (sound : s.Sound client rs) (i : Nat) :
    (s.answer client i).Sound client rs := by
  rcases answer_cases client s i with ⟨_,same⟩ | ⟨r,inFlight,perm,⟨logs,read,next⟩ | ⟨e,read,next⟩⟩
  · rwa [same]
  · rw [next]
    constructor
    · rw [List.append_assoc,List.take_append_drop]
      exact sound.split
    · intro none
      rcases List.append_eq_nil_iff.mp none with ⟨_,none⟩
      rcases List.take_eq_nil_iff.mp none with zero | empty
      · contradiction
      · exact .inl (by simp [empty])
    · intro events found
      cases before : s.events with
      | error e => simp [before,Except.map] at found
      | ok known =>
        simp only [before,Except.map,Except.ok.injEq] at found
        subst found
        obtain ⟨done,answers,all,each,rfl⟩ := sound.found known before
        refine ⟨done ++ [r],answers ++ [logs],?_,?_,by simp⟩
        · rw [← List.append_assoc]
          apply List.Perm.append_right
          rw [List.append_assoc]
          exact (perm.append_left done).trans all
        · rw [mapM_ok_iff] at each ⊢
          exact List.rel_append each (.cons read .nil)
    · intro e' lost
      cases before : s.events with
      | ok known => simp [before,Except.map] at lost
      | error e =>
        simp only [before,Except.map,Except.error.injEq] at lost
        subst lost
        obtain ⟨r,requested,failed⟩ := sound.failed e before
        exact ⟨r,List.mem_append_left _ requested,failed⟩
  · rw [next]
    constructor
    · exact sound.split
    · intro _
      right
      cases s.events <;> exact ⟨_,rfl⟩
    · intro events found
      cases before : s.events <;> simp [before,Except.bind] at found
    · intro e' lost
      cases before : s.events with
      | ok known =>
        simp only [before,Except.bind,Except.error.injEq] at lost
        subst lost
        obtain ⟨done,_,all,_⟩ := sound.found known before
        have flying : r ∈ s.inFlight := perm.mem_iff.mp List.mem_cons_self
        exact ⟨r,all.mem_iff.mp (List.mem_append_right _ flying),read⟩
      | error first =>
        simp only [before,Except.bind,Except.error.injEq] at lost
        subst lost
        exact sound.failed first before

theorem Scan.Sound.foldl (sound : s.Sound client rs) (order : List Nat) :
    (order.foldl (Scan.answer client) s).Sound client rs := by
  induction order generalizing s with
  | nil => exact sound
  | cons i order ih => exact ih (sound.answer i)

/-- Each answer leaves one request less to come. -/
theorem Scan.foldl_ends {order : List Nat}
    (enough : s.inFlight = [] ∨ s.inFlight.length + s.left.length ≤ order.length) :
    (order.foldl (Scan.answer client) s).inFlight = [] := by
  induction order generalizing s with
  | nil =>
    rcases enough with none | none
    · exact none
    · apply List.eq_nil_of_length_eq_zero
      rw [List.length_nil] at none
      rw [List.foldl_nil]
      omega
  | cons i order ih =>
    apply ih
    rcases answer_cases client s i with ⟨none,same⟩ | ⟨r,inFlight,perm,answered⟩
    · rw [same]
      exact .inl none
    · right
      have flying := perm.length_eq
      rcases enough with none | enough
      · simp [none] at flying
      · rw [List.length_cons] at flying enough
        rcases answered with ⟨logs,_,next⟩ | ⟨e,_,next⟩
        · simp only [next,List.length_append,List.length_take,List.length_drop]
          omega
        · simp only [next]
          omega

theorem workers_pos (concurrency : Option Nat) (count : Nat) : 0 < workers concurrency count :=
  Nat.lt_of_lt_of_le Nat.one_pos (Nat.le_max_left ..)

/-- The requests of a scan that ends are the first ranges. They are all of them, answered, unless
one failed, which the run then throws. -/
theorem Scan.Sound.outcome (sound : s.Sound client rs) {events : Except Thrown (List LeafEvent)}
    (ends : s.outcome = some events) :
    (∃ rest r e, s.requested ++ rest = rs ∧ r ∈ s.requested ∧ client.getLogs r = .error e ∧
      events = .error e) ∨
    ∃ (done : List (Int × Int)) (logs : List (List LeafEvent)), s.requested = rs ∧ done.Perm rs ∧
      done.mapM client.getLogs = .ok logs ∧ events = .ok logs.flatten := by
  rw [Scan.outcome] at ends
  split at ends
  · next e read =>
    cases ends
    obtain ⟨r,requested,failed⟩ := sound.failed e read
    exact .inl ⟨s.left,r,e,sound.split,requested,failed,rfl⟩
  · next found read =>
    split at ends
    · next idle =>
      cases ends
      have none := List.isEmpty_iff.mp idle
      have all := sound.split
      rcases sound.busy none with empty | ⟨e,lost⟩
      · rw [empty,List.append_nil] at all
        obtain ⟨done,logs,perm,each,rfl⟩ := sound.found found read
        rw [none,List.append_nil,all] at perm
        exact .inr ⟨done,logs,all,perm,each,rfl⟩
      · rw [read] at lost
        contradiction
    · contradiction

/-- Once a request of each range could be answered, the scan has an outcome. -/
theorem Scan.outcome_isSome {order : List Nat} {count : Nat} (enough : rs.length ≤ order.length) :
    (order.foldl (Scan.answer client) (start rs count)).outcome.isSome := by
  have ends : (order.foldl (Scan.answer client) (start rs count)).inFlight = [] := by
    apply foldl_ends
    right
    simp only [start,List.length_take,List.length_drop]
    omega
  simp only [Scan.outcome,ends]
  split <;> rfl

end TornadoRelayer.Merkle
