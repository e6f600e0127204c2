import TornadoRelayer.DepositHistory

/-! Incremental scans against a full one: every run that shares a cache file keeps the fit, and
returns the leaves up to its head. -/
namespace TornadoRelayer.Merkle

open BigEndian

variable {h : History} {cache next : LeafCache} {head : Int}

/-! ### The start of a run -/

/-- The latest of the blocks, at least `start`. -/
def latest (start : Int) (deposits : List TornadoCliDeposit) : Int :=
  deposits.foldl (fun last d => if d.blockNumber > last then d.blockNumber else last) start

theorem latest_bounds (deposits : List TornadoCliDeposit) (start : Int) :
    start ≤ latest start deposits ∧ (∀ d ∈ deposits, d.blockNumber ≤ latest start deposits) ∧
      ∀ b, start ≤ b → (∀ d ∈ deposits, d.blockNumber ≤ b) → latest start deposits ≤ b := by
  induction deposits generalizing start with
  | nil => simp [latest]
  | cons d deposits ih =>
    obtain ⟨low,each,high⟩ := ih (if d.blockNumber > start then d.blockNumber else start)
    have larger : start ≤ (if d.blockNumber > start then d.blockNumber else start) ∧
        d.blockNumber ≤ (if d.blockNumber > start then d.blockNumber else start) := by
      split <;> omega
    simp only [latest,List.foldl_cons,List.forall_mem_cons] at low each high ⊢
    refine ⟨larger.1.trans low,⟨larger.2.trans low,each⟩,fun b bound all => high b ?_ all.2⟩
    split <;> omega

theorem seedLeaf_all {file : String} {deposits : List TornadoCliDeposit} {last : Int}
    {leaves : List Nat} {leafBlocks : List Int}
    (next : deposits.map TornadoCliDeposit.leafIndex =
      List.range' leaves.length deposits.length) :
    deposits.foldlM (seedLeaf file) (last,leaves,leafBlocks) =
      .ok (latest last deposits,leaves ++ deposits.map TornadoCliDeposit.commitment,
        leafBlocks ++ deposits.map TornadoCliDeposit.blockNumber) := by
  induction deposits generalizing last leaves leafBlocks with
  | nil => simp [pure,Except.pure,latest]
  | cons d deposits ih =>
    simp only [List.map_cons,List.length_cons,List.range'_succ,List.cons.injEq] at next
    have added : seedLeaf file (last,leaves,leafBlocks) d =
        .ok (if d.blockNumber > last then d.blockNumber else last,leaves ++ [d.commitment],
          leafBlocks ++ [d.blockNumber]) := by
      simp [seedLeaf,next.1]
    rw [List.foldlM_cons,added]
    have rest := @ih (if d.blockNumber > last then d.blockNumber else last)
      (leaves ++ [d.commitment]) (leafBlocks ++ [d.blockNumber])
      (by rw [List.length_append]; exact next.2)
    simp only [List.append_assoc] at rest
    exact rest

/-- The cache dates every leaf with its own block. -/
structure History.Exact (h : History) (cache : LeafCache) : Prop where
  leaves : cache.leaves = h.leaves cache.lastBlock
  blocks : cache.leafBlocks = none ∨
    cache.leafBlocks = some ((h.upTo cache.lastBlock).map Deposit.block)

theorem History.Exact.fits (exact : h.Exact cache) : h.Fits cache := by
  refine ⟨exact.leaves,fun blocks known => ?_⟩
  rcases exact.blocks with none | own
  · rw [known] at none
    contradiction
  · rw [known,Option.some.injEq] at own
    rw [own,List.forall₂_map_right_iff,List.forall₂_same]
    intro d member
    simpa [History.upTo] using (List.mem_filter.mp member).2

theorem History.Exact.dated (exact : h.Exact cache) (head : Int) : h.Dated cache head := by
  intro blocks known e member early
  rcases exact.blocks with none | own
  · rw [known] at none
    contradiction
  · rw [known,Option.some.injEq] at own
    have each : List.Forall₂ (fun (d : Deposit) b => d.block = b) (h.upTo cache.lastBlock) blocks := by
      rw [own,List.forall₂_map_right_iff,List.forall₂_same]
      exact fun _ _ => rfl
    have same := (List.forall₂_iff_zip.mp each).2 member
    omega

theorem seed_exact {file : String} {deposits : List TornadoCliDeposit} {chainId : Nat}
    {instanceAddress : Address} (seeded : h.Seeded deposits)
    (ok : leafCacheFromTornadoCli file deposits instanceAddress chainId = .ok cache) :
    h.Exact cache ∧ cache.instanceAddress = instanceAddress ∧ cache.chainId = chainId := by
  obtain ⟨b,nonneg,perm⟩ := seeded
  let sorted := deposits.insertionSort fun d d' => d.leafIndex ≤ d'.leafIndex
  have events : sorted.map (fun d => (⟨d.leafIndex, d.commitment, d.blockNumber⟩ : LeafEvent)) =
      h.log.filter (·.block ≤ b) := by
    rw [List.map_insertionSort (s := fun (e e' : LeafEvent) => e.leafIndex ≤ e'.leafIndex) _ _ _
      fun _ _ _ _ => Iff.rfl]
    exact History.found_sorted perm
  have numbered : sorted.map TornadoCliDeposit.leafIndex = List.range' 0 sorted.length := by
    have all := History.log_numbered (h := h) b
    rw [← events,List.map_map] at all
    have length := congrArg List.length all
    rw [List.length_map,List.length_range] at length
    rw [length,← List.range_eq_range']
    exact all
  have found : h.upTo b = sorted.map fun d => ⟨d.commitment, d.blockNumber⟩ := by
    rw [← History.log_upTo,← events,List.map_map]
    rfl
  obtain ⟨low,each,high⟩ := latest_bounds sorted 0
  have whole : h.upTo (latest 0 sorted) = h.upTo b := by
    apply List.filter_congr
    intro d member
    rw [decide_eq_decide]
    constructor
    · intro early
      have bounded := high b nonneg fun s inside => by
        have early : (⟨s.commitment, s.blockNumber⟩ : Deposit) ∈ h.upTo b := by
          rw [found]
          exact List.mem_map_of_mem inside
        simpa [History.upTo] using (List.mem_filter.mp early).2
      exact early.trans bounded
    · intro early
      have inside : d ∈ h.upTo b := List.mem_filter.mpr ⟨member,decide_eq_true early⟩
      rw [found] at inside
      obtain ⟨s,seed,rfl⟩ := List.mem_map.mp inside
      exact each s seed
  rw [leafCacheFromTornadoCli] at ok
  simp only at ok
  rw [show deposits.insertionSort (fun d d' => d.leafIndex ≤ d'.leafIndex) = sorted from rfl,
    seedLeaf_all numbered] at ok
  cases ok
  refine ⟨⟨?_,.inr ?_⟩,rfl,rfl⟩
  · simp only [History.leaves,whole,found,List.map_map,List.nil_append]
    rfl
  · simp only [whole,found,List.map_map,List.nil_append]
    rfl

/-! ### Runs -/

/-- One call of `syncLeaves`, up to the order of the answers and the fate of the write. -/
structure Run where
  client : PublicClient
  opts : SyncOptions

def Run.sync (run : Run) (h : History) (order : List Nat) (writeFault : Bool)
    (file : File LeafCache) : Option Sync :=
  syncLeaves run.client h.instanceAddress run.opts order writeFault file

/-- The run is for this history and uses the cache file. -/
structure Run.For (run : Run) (h : History) : Prop where
  chain : ∀ chainId, run.client.getChainId = .ok chainId → chainId = h.chainId
  complete : h.Complete run.client.getLogs
  started : ∀ d ∈ h.deposits, run.opts.fromBlock ≤ d.block
  shared : run.opts.cacheFile = true
  seeded : ∀ path deposits, run.opts.seedFile = (path, some (.ok deposits)) → h.Seeded deposits

/-- A cache in the file for this very instance. -/
def History.Holds (h : History) (file : File LeafCache) (cache : LeafCache) : Prop :=
  file = some (.ok cache) ∧ cache.instanceAddress = h.instanceAddress ∧ cache.chainId = h.chainId

/-- The cache in the file dates no leaf over the head of the run. -/
def Run.Dated (run : Run) (h : History) (file : File LeafCache) : Prop :=
  ∀ head cache, headOf run.client run.opts = .ok head → h.Holds file cache → h.Dated cache head

variable {run : Run} {file file₀ : File LeafCache}

theorem fresh_exact {chainId : Nat} {instanceAddress : Address} {fromBlock : Int}
    (started : ∀ d ∈ h.deposits, fromBlock ≤ d.block) :
    h.Exact ⟨instanceAddress, chainId, fromBlock - 1, [], none⟩ := by
  refine ⟨?_,.inl rfl⟩
  have none : h.upTo (fromBlock - 1) = [] := by
    simp only [History.upTo,List.filter_eq_nil_iff,decide_eq_true_iff]
    intro d member
    have first := started d member
    omega
  rw [History.leaves,none]
  rfl

/-- A run opens the cache of the file, or one that dates every leaf with its own block. -/
theorem openCache_ok (for_ : run.For h)
    (opened : openCache h.instanceAddress h.chainId run.opts file = .ok cache) :
    cache.instanceAddress = h.instanceAddress ∧ cache.chainId = h.chainId ∧
      (h.Holds file cache ∨ (∀ other, ¬h.Holds file other) ∧ h.Exact cache) := by
  have fresh := @fresh_exact h h.chainId h.instanceAddress run.opts.fromBlock for_.started
  simp only [openCache,for_.shared,if_true] at opened
  split at opened
  · next loaded =>
    obtain ⟨held,read,chosen⟩ := bind_ok_iff.mp opened
    subst read
    split at chosen
    · next own =>
      cases chosen
      exact ⟨own.1,own.2,.inl ⟨rfl,own⟩⟩
    · next other =>
      cases chosen
      refine ⟨rfl,rfl,.inr ⟨?_,fresh⟩⟩
      rintro cache ⟨same,own⟩
      cases same
      exact other own
  · next path deposits named =>
    obtain ⟨deposits,read,seed⟩ := bind_ok_iff.mp opened
    subst read
    obtain ⟨exact,instance_,chain⟩ := seed_exact (for_.seeded path deposits named) seed
    exact ⟨instance_,chain,.inr ⟨by rintro other ⟨absent,_⟩; contradiction,exact⟩⟩
  · next path named =>
    cases opened
    exact ⟨rfl,rfl,.inr ⟨by rintro other ⟨absent,_⟩; contradiction,fresh⟩⟩

/-- What a run starts from fits the history, unless a leaf was dated over the head. -/
theorem start_ok (fits : ∀ cache, h.Holds file cache → h.Fits cache) (for_ : run.For h)
    (started : start run.client h.instanceAddress run.opts file = .ok (next,head)) :
    headOf run.client run.opts = .ok head ∧ next.lastBlock ≤ head ∧
      next.instanceAddress = h.instanceAddress ∧ next.chainId = h.chainId ∧
      ((run.Dated h file ∧ h.Fits next) ∨
        (¬run.Dated h file ∧ next.lastBlock = head ∧ next.leaves ≠ h.leaves head)) := by
  obtain ⟨chainId,chain,rest⟩ := bind_ok_iff.mp started
  obtain ⟨opened,cache,rest⟩ := bind_ok_iff.mp rest
  obtain ⟨block,head_,rest⟩ := bind_ok_iff.mp rest
  obtain ⟨cut,rewound,rest⟩ := bind_ok_iff.mp rest
  cases rest
  rw [for_.chain chainId chain] at cache
  obtain ⟨own,id,source⟩ := openCache_ok for_ cache
  have whole : h.Fits opened ∧ (h.Dated opened head ↔ run.Dated h file) := by
    rcases source with held | ⟨none,exact⟩
    · refine ⟨fits opened held,fun dated block' other at_ held' => ?_,
        fun dated => dated head opened head_ held⟩
      cases head_.symm.trans at_
      cases held.1.symm.trans held'.1
      exact dated
    · exact ⟨exact.fits,fun _ _ other _ held => absurd held (none other),fun _ => exact.dated head⟩
  obtain ⟨later,own',id',result⟩ := rewind_ok whole.1 rewound
  rw [whole.2] at result
  exact ⟨head_,later,own'.trans own,id'.trans id,result⟩

/-! ### The requests of a run -/

theorem logs_perm {getLogs : Int × Int → Except Thrown (List LeafEvent)}
    (complete : h.Complete getLogs) {requests : List (Int × Int)} {logs : List (List LeafEvent)}
    (read : requests.mapM getLogs = .ok logs) : logs.flatten.Perm
      (requests.flatMap fun r => h.log.filter fun e => r.1 ≤ e.block ∧ e.block ≤ r.2) := by
  rw [mapM_ok_iff] at read
  induction read with
  | nil => rfl
  | cons answered _ ih => exact (complete _ _ answered).append ih

/-- Whatever the order of the answers, a scan finds the leaves after the last block. -/
theorem scan_found (for_ : run.For h) {done : List (Int × Int)} {logs : List (List LeafEvent)}
    (perm : done.Perm (ranges run.opts.chunk cache.lastBlock head))
    (read : done.mapM run.client.getLogs = .ok logs) :
    logs.flatten.Perm (h.found cache.lastBlock head) := by
  have tiles := ranges_tile run.opts.positive cache.lastBlock head
  exact (logs_perm for_.complete read).trans ((perm.flatMap_right _).trans (tiles_perm tiles h.log))

theorem save_cases (opts : SyncOptions) (writeFault : Bool) (file : File LeafCache)
    (requests : List (Int × Int)) (r : Except Thrown LeafCache) :
    (save opts writeFault file requests r).requests = requests ∧
      (∀ cache, (save opts writeFault file requests r).result = .ok cache → r = .ok cache) ∧
      ((save opts writeFault file requests r).file = file ∨
        (∃ e, (save opts writeFault file requests r).file = some (.error e)) ∨
        ∃ cache, r = .ok cache ∧ (save opts writeFault file requests r).file = some (.ok cache)) := by
  cases r with
  | error e => simp [save]
  | ok cache =>
    rw [save]
    split
    · cases writeFault <;> simp
    · simp

/-- A run does not get to requests, throws what one of the first requests failed with, or
requests all ranges and adds what they hold. -/
theorem sync_cases (for_ : run.For h) {order : List Nat} {writeFault : Bool} {sync : Sync}
    (ran : run.sync h order writeFault file = some sync) :
    (∃ e, start run.client h.instanceAddress run.opts file = .error e ∧ sync = ⟨[], file, .error e⟩) ∨
    ∃ cache head, start run.client h.instanceAddress run.opts file = .ok (cache,head) ∧
      ((∃ requests rest r e, requests ++ rest = ranges run.opts.chunk cache.lastBlock head ∧
          r ∈ requests ∧ run.client.getLogs r = .error e ∧ sync = ⟨requests, file, .error e⟩) ∨
        ∃ events, events.Perm (h.found cache.lastBlock head) ∧
          sync = save run.opts writeFault file (ranges run.opts.chunk cache.lastBlock head)
            (addLeaves cache head events)) := by
  rw [Run.sync,syncLeaves] at ran
  cases started : start run.client h.instanceAddress run.opts file with
  | error e =>
    rw [started] at ran
    cases ran
    exact .inl ⟨e,rfl,rfl⟩
  | ok opened =>
    obtain ⟨cache,head⟩ := opened
    rw [started] at ran
    refine .inr ⟨cache,head,rfl,?_⟩
    obtain ⟨events,ends,rfl⟩ := Option.map_eq_some_iff.mp ran
    have sound : (order.foldl (Scan.answer run.client) (Scan.start (ranges run.opts.chunk
        cache.lastBlock head) (workers run.opts.concurrency
        (ranges run.opts.chunk cache.lastBlock head).length))).Sound run.client
        (ranges run.opts.chunk cache.lastBlock head) :=
      (Scan.start_sound (workers_pos _ _)).foldl order
    rcases sound.outcome ends with ⟨rest,r,e,split,requested,failed,rfl⟩ | ⟨done,logs,all,perm,read,rfl⟩
    · exact .inl ⟨_,rest,r,e,split,requested,failed,rfl⟩
    · refine .inr ⟨logs.flatten,scan_found for_ perm read,?_⟩
      rw [all]
      rfl

/-! ### Any number of runs -/

/-- What the cache file may hold after runs none of which cuts over a dated leaf. -/
inductive Reached (h : History) (file₀ : File LeafCache) : File LeafCache → Prop where
  | start : Reached h file₀ file₀
  | run {file : File LeafCache} {run : Run} {order : List Nat} {writeFault : Bool} {sync : Sync} :
    Reached h file₀ file → run.For h → run.Dated h file →
    run.sync h order writeFault file = some sync → Reached h file₀ sync.file

/-- A run that cuts over no dated leaf ends with a cache that fits. -/
theorem sync_fits (fits : ∀ cache, h.Holds file cache → h.Fits cache) (for_ : run.For h)
    (dated : run.Dated h file) {order : List Nat} {writeFault : Bool} {sync : Sync}
    (ran : run.sync h order writeFault file = some sync) :
    ∀ cache, h.Holds sync.file cache → h.Fits cache := by
  rcases sync_cases for_ ran with
    ⟨e,_,rfl⟩ | ⟨opened,head,started,⟨requests,rest,r,e,_,_,_,rfl⟩ | ⟨events,found,rfl⟩⟩
  · exact fits
  · exact fits
  · intro cache held
    obtain ⟨_,later,_,_,result⟩ := start_ok fits for_ started
    rcases (save_cases run.opts writeFault file _ _).2.2 with
      same | ⟨e,broken⟩ | ⟨next,scanned,written⟩
    · rw [same] at held
      exact fits cache held
    · rw [broken] at held
      cases held.1
    · rw [written] at held
      cases held.1
      rcases result with ⟨_,whole⟩ | ⟨undated,_⟩
      · exact (addLeaves_fits whole later found scanned).1
      · exact absurd dated undated

theorem Reached.fits (exact : ∀ cache, h.Holds file₀ cache → h.Exact cache)
    (reach : Reached h file₀ file) : ∀ cache, h.Holds file cache → h.Fits cache := by
  induction reach with
  | start => exact fun cache held => (exact cache held).fits
  | run _ for_ dated ran ih => exact sync_fits ih for_ dated ran

/-- Nothing is found after the last block of a cache that was cut to the head. -/
theorem addLeaves_none {events : List LeafEvent} (perm : events.Perm (h.found head head))
    (added : addLeaves cache head events = .ok next) :
    next.leaves = cache.leaves ∧ next.lastBlock = head := by
  have none : h.found head head = [] := by
    simp only [History.found,List.filter_eq_nil_iff,decide_eq_true_iff]
    intro e _
    omega
  rw [none,List.perm_nil] at perm
  subst perm
  cases added
  exact ⟨rfl,rfl⟩

/-- A run ends once its requests are answered. The ranges it requests tile what is missing, but
for the last ones when a request fails, which the run then throws. What it returns is all the
leaves up to its head, exactly when the cache in the file dates no leaf deposited by then after
the head. -/
theorem sync_exact_iff (exact : ∀ cache, h.Holds file₀ cache → h.Exact cache)
    (reach : Reached h file₀ file) (for_ : run.For h) :
    (∃ answers, ∀ order writeFault, answers ≤ order.length →
      (run.sync h order writeFault file).isSome) ∧
    ∀ order writeFault sync, run.sync h order writeFault file = some sync →
      (∀ cache head, start run.client h.instanceAddress run.opts file = .ok (cache,head) →
        ∃ rest, Tiles cache.lastBlock head (sync.requests ++ rest) ∧
          (rest = [] ∨ ∃ r ∈ sync.requests, ∃ e,
            run.client.getLogs r = .error e ∧ sync.result = .error e)) ∧
      ∀ cache, sync.result = .ok cache → ∃ head, headOf run.client run.opts = .ok head ∧
        cache.lastBlock = head ∧ (cache.leaves = h.leaves head ↔ run.Dated h file) := by
  have fits := reach.fits exact
  refine ⟨?_,fun order writeFault sync ran => ⟨?_,?_⟩⟩
  · cases started : start run.client h.instanceAddress run.opts file with
    | error e =>
      refine ⟨0,fun order writeFault _ => ?_⟩
      simp [Run.sync,syncLeaves,started]
    | ok opened =>
      refine ⟨(ranges run.opts.chunk opened.1.lastBlock opened.2).length,
        fun order writeFault enough => ?_⟩
      simp only [Run.sync,syncLeaves,started,Option.isSome_map]
      exact Scan.outcome_isSome enough
  · intro cache head started
    have tiles := ranges_tile run.opts.positive cache.lastBlock head
    rcases sync_cases for_ ran with
      ⟨e,failed,_⟩ | ⟨_,_,started',⟨requests,rest,r,e,split,requested,failed,rfl⟩ | ⟨events,_,rfl⟩⟩
    · rw [started] at failed
      contradiction
    · cases started.symm.trans started'
      rw [← split] at tiles
      exact ⟨rest,tiles,.inr ⟨r,requested,e,failed,rfl⟩⟩
    · cases started.symm.trans started'
      refine ⟨[],?_,.inl rfl⟩
      rwa [(save_cases run.opts writeFault file _ _).1,List.append_nil]
  · intro cache returned
    rcases sync_cases for_ ran with
      ⟨e,_,rfl⟩ | ⟨opened,head,started,⟨requests,rest,r,e,_,_,_,rfl⟩ | ⟨events,found,rfl⟩⟩
    · contradiction
    · contradiction
    · have added := (save_cases run.opts writeFault file _ _).2.1 cache returned
      obtain ⟨head_,later,_,_,result⟩ := start_ok fits for_ started
      refine ⟨head,head_,?_⟩
      rcases result with ⟨dated,whole⟩ | ⟨undated,last,loses⟩
      · obtain ⟨after,last,_⟩ := addLeaves_fits whole later found added
        have leaves := after.leaves
        rw [last] at leaves
        exact ⟨last,iff_of_true leaves dated⟩
      · rw [last] at found
        obtain ⟨same,last⟩ := addLeaves_none found added
        exact ⟨last,iff_of_false (same ▸ loses) undated⟩

/-! ### Two leaves -/

def sampleHistory : History where
  instanceAddress := 0x12d6
  chainId := 1
  deposits := [⟨7, 10⟩,⟨8, 50⟩]
  ordered := by simp

/-- A run up to this block, with a source that has everything. -/
def sampleRun (toBlock : Int) : Run where
  client := {
    getChainId := .ok 1
    getBlockNumber := .ok toBlock
    getLogs := fun r => .ok (sampleHistory.log.filter fun e => r.1 ≤ e.block ∧ e.block ≤ r.2) }
  opts := ⟨1, 40, by decide, true, ("", none), some toBlock, some 2⟩

theorem sampleRun_for (toBlock : Int) : (sampleRun toBlock).For sampleHistory where
  chain _ same := by
    cases same
    rfl
  complete r logs read := by
    cases read
    exact List.Perm.refl _
  started := by simp [sampleHistory,sampleRun]
  shared := rfl
  seeded path deposits named := by simp [sampleRun] at named

/-- The cache after a scan up to block 120. -/
def sampleCache (leafBlocks : List Int) : LeafCache := ⟨0x12d6, 1, 120, [7, 8], some leafBlocks⟩

theorem sync_exact_shrinking : ∃ cache,
    (sampleRun 120).sync sampleHistory [1,1,0] false none = some
      ⟨[(1, 40),(41, 80),(81, 120)], some (.ok (sampleCache [10,50])), .ok (sampleCache [10,50])⟩ ∧
    (sampleRun 30).sync sampleHistory [] false (some (.ok (sampleCache [10,50]))) =
      some ⟨[], some (.ok cache), .ok cache⟩ ∧
    cache.leaves = sampleHistory.leaves 30 := by
  have first : (sampleRun 120).sync sampleHistory [1,1,0] false none = some
      ⟨[(1, 40),(41, 80),(81, 120)], some (.ok (sampleCache [10,50])), .ok (sampleCache [10,50])⟩ :=
    rfl
  have reach := Reached.start.run (sampleRun_for 120) (fun _ _ _ held => absurd held.1 (by simp)) first
  have exact : sampleHistory.Exact (sampleCache [10,50]) := ⟨rfl,.inr rfl⟩
  obtain ⟨head,at_,_,iff⟩ := ((sync_exact_iff (fun _ held => absurd held.1 (by simp)) reach
    (sampleRun_for 30)).2 [] false _ rfl).2 _ rfl
  cases at_
  refine ⟨_,first,rfl,iff.mpr ?_⟩
  rintro head cache _ ⟨same,_⟩
  cases same
  exact exact.dated head

/-- Leaves of a cache without blocks are dated with its last block, and a later cut to
before it drops them. -/
theorem legacy_cache_loses_leaves :
    ¬∀ (h : History) (file₀ : File LeafCache), (∀ cache, h.Holds file₀ cache → h.Exact cache) →
      ∀ (run run' : Run), run.For h → run'.For h → ∀ order order' sync sync',
      run.sync h order false file₀ = some sync → run'.sync h order' false sync.file = some sync' →
      ∀ cache, sync'.result = .ok cache → ∃ head, headOf run'.client run'.opts = .ok head ∧
        cache.leaves = h.leaves head := by
  intro claim
  have legacy : ∀ cache, sampleHistory.Holds (some (.ok ⟨0x12d6, 1, 100, [7, 8], none⟩)) cache →
      sampleHistory.Exact cache := by
    rintro cache ⟨same,_⟩
    cases same
    exact ⟨rfl,.inl rfl⟩
  obtain ⟨head,at_,same⟩ := claim sampleHistory _ legacy (sampleRun 120) (sampleRun 60)
    (sampleRun_for 120) (sampleRun_for 60) [0] [] _ _ rfl rfl _ rfl
  cases at_
  revert same
  decide

end TornadoRelayer.Merkle
