import TornadoRelayer.TornadoRuns
import TornadoRelayer.LeafSync

/-! The client's `merklePath` against the pool: which local leaves have a root the pool knows,
and what a path from a synced cache is worth. The tree library is a parameter. -/
namespace TornadoRelayer.Merkle

open BigEndian CallStack MerkleTree MerkleTreeWithHistory Tornado

structure MerklePath where
  root : Nat
  pathElements : List Nat
  pathIndices : List Nat
  leafIndex : Nat

/-- `@kohaku-eth/mimc-tree`. A proof is a root, its siblings and its path indices. -/
structure MimcTree where
  Tree : Type
  /-- Twenty unless another number is asked for. -/
  levels : Nat
  createMimcMerkleTree : List Nat → Tree
  generateMimcMerkleProof : Tree → Nat → Nat × List Nat × List Nat

/-- Its trees have the hasher and the zeros of the pools; a proof is for the first leaf with this
commitment, from the leaf up. -/
def MimcTree.Follows (lib : MimcTree) (hasher : IHasher) : Prop :=
  ∀ (leaves : List Bytes32) (leaf : Bytes32) (i : Nat), leaves.length ≤ 2 ^ lib.levels →
    leaves.findIdx? (· = leaf) = some i →
    lib.generateMimcMerkleProof (lib.createMimcMerkleTree (leaves.map BitVec.toNat)) leaf.toNat =
      ((MerkleTree.root (mimc hasher) zeroAt lib.levels leaves).toNat,
        (pathTo (mimc hasher) zeroAt leaves i lib.levels).map fun step => step.2.toNat,
        (pathTo (mimc hasher) zeroAt leaves i lib.levels).map fun step => step.1.toNat)

def merklePath (lib : MimcTree) (leaves : List Nat) (commitment : Nat) : Except Thrown MerklePath :=
  match leaves.findIdx? (· = commitment) with
  | none => .error (.error "commitment not found in the deposit tree")
  | some leafIndex =>
    let tree := lib.createMimcMerkleTree leaves
    let (root, siblings, pathIndices) := lib.generateMimcMerkleProof tree commitment
    .ok ⟨root, siblings, pathIndices, leafIndex⟩

/-- The path as the circuit takes it. -/
def MerklePath.steps (path : MerklePath) : Path Bytes32 :=
  (path.pathIndices.zip path.pathElements).map fun (index, element) =>
    (index == 1, BitVec.ofNat 256 element)

variable {lib : MimcTree} {hasher : IHasher}

theorem findIdx_toNat (leaves : List Bytes32) (leaf : Bytes32) :
    (leaves.map BitVec.toNat).findIdx? (· = leaf.toNat) = leaves.findIdx? (· = leaf) := by
  rw [List.findIdx?_map]
  congr 1
  funext other
  simp [BitVec.toNat_inj]

theorem steps_eq (path : Path Bytes32) (root leafIndex : Nat) :
    MerklePath.steps ⟨root, path.map fun step => step.2.toNat, path.map fun step => step.1.toNat,
      leafIndex⟩ = path := by
  rw [MerklePath.steps,List.zip_map',List.map_map]
  conv_rhs => rw [← List.map_id path]
  apply List.map_congr_left
  rintro ⟨right,element⟩ _
  cases right <;> simp

/-- A path that is found leads from its leaf to the root over the leaves. -/
theorem merklePath_ok (follows : lib.Follows hasher) {leaves : List Bytes32} {leaf : Bytes32}
    {path : MerklePath} (fits : leaves.length ≤ 2 ^ lib.levels)
    (found : merklePath lib (leaves.map BitVec.toNat) leaf.toNat = .ok path) :
    leaves[path.leafIndex]? = some leaf ∧
    path.root = (MerkleTree.root (mimc hasher) zeroAt lib.levels leaves).toNat ∧
    path.steps.length = lib.levels ∧
    pathRoot (mimc hasher) path.steps leaf = MerkleTree.root (mimc hasher) zeroAt lib.levels leaves := by
  rw [merklePath,findIdx_toNat] at found
  cases index : leaves.findIdx? (· = leaf) with
  | none =>
    rw [index] at found
    contradiction
  | some i =>
    rw [index] at found
    simp only [follows leaves leaf i fits index] at found
    cases found
    obtain ⟨inside,at_,_⟩ := List.findIdx?_eq_some_iff_getElem.mp index
    rw [decide_eq_true_iff] at at_
    have here : leaves[i]? = some leaf := by rw [List.getElem?_eq_getElem inside,at_]
    refine ⟨here,rfl,?_,?_⟩
    · rw [steps_eq,pathTo_length]
    · rw [steps_eq,pathRoot_pathTo here,Nat.div_eq_of_lt (Nat.lt_of_lt_of_le inside fits),
        segment_zero fits]

theorem merklePath_isOk (lib : MimcTree) {leaves : List Nat} {commitment : Nat}
    (member : commitment ∈ leaves) : ∃ path, merklePath lib leaves commitment = .ok path := by
  rw [merklePath]
  cases index : leaves.findIdx? (· = commitment) with
  | none =>
    have absent := List.findIdx?_eq_none_iff.mp index commitment member
    simp at absent
  | some i => exact ⟨_,rfl⟩

/-! ### Roots the pool knows -/

/-- The root over the first commitments is recent while few have followed. -/
theorem root_recent {levels : Nat} {leaves : List Bytes32} {k : Nat} (some : 0 < k)
    (fits : k ≤ leaves.length) (recent : leaves.length ≤ k + 29) :
    MerkleTree.root (mimc hasher) zeroAt levels (leaves.take k) ∈
      recentRoots hasher levels leaves := by
  rw [mem_recentRoots,ROOT_HISTORY_SIZE]
  have back : k - 1 + 1 = k := by omega
  exact .inr ⟨k - 1,by omega,by omega,by rw [back]⟩

/-- The pairs hashed for the pool's roots and for the root over the local leaves. -/
def localPairs (hasher : IHasher) (levels : Nat) (leaves locals : List Bytes32) :
    List (Bytes32 × Bytes32) :=
  zeroPairs zeroAt levels ++ (List.range leaves.length).flatMap (fun k =>
    rootPairs (mimc hasher) zeroAt levels (leaves.take (k + 1))) ++
    rootPairs (mimc hasher) zeroAt levels locals

/-- Only the first commitments have a root that is recent. -/
theorem recent_root {levels : Nat} {leaves locals : List Bytes32} (positive : 0 < levels)
    (chained : Chained (mimc hasher) zeroAt levels)
    (binding : Binding (mimc hasher) zeroAt (localPairs hasher levels leaves locals))
    (fits : leaves.length ≤ 2 ^ levels) (fits' : locals.length ≤ 2 ^ levels)
    (real : zeroAt 0 ∉ leaves) (real' : zeroAt 0 ∉ locals)
    (known : MerkleTree.root (mimc hasher) zeroAt levels locals ∈ recentRoots hasher levels leaves) :
    locals <+: leaves ∧ leaves.length ≤ locals.length + 29 := by
  have zero : zeroPairs zeroAt levels ⊆ localPairs hasher levels leaves locals :=
    List.Subset.trans (List.subset_append_left _ _) (List.subset_append_left _ _)
  have own : rootPairs (mimc hasher) zeroAt levels locals ⊆ localPairs hasher levels leaves locals :=
    List.subset_append_right _ _
  rcases mem_recentRoots.mp known with ⟨_,first⟩ | ⟨k,inside,recent,later⟩
  · obtain ⟨l,rfl⟩ := Nat.exists_eq_succ_of_ne_zero positive.ne'
    exact absurd first (root_ne_zero binding chained zero (Nat.lt_succ_self l) own)
  · have other : rootPairs (mimc hasher) zeroAt levels (leaves.take (k + 1)) ⊆
        localPairs hasher levels leaves locals := by
      intro pair member
      apply List.mem_append_left
      exact List.mem_append_right _ (List.mem_flatMap.mpr ⟨k,List.mem_range.mpr inside,member⟩)
    have shorter : (leaves.take (k + 1)).length ≤ 2 ^ levels := by
      rw [List.length_take]
      omega
    have same := root_injective binding chained zero own other fits' shorter real'
      (fun member => real (List.mem_of_mem_take member)) later
    subst same
    refine ⟨List.take_prefix _ _,?_⟩
    rw [ROOT_HISTORY_SIZE] at recent
    rw [List.length_take]
    omega

/-- While at most 29 deposits follow, a pool knows the root of its first commitments. -/
theorem stored_root_known {d : Instance} {s : World} (stored : Stored d s) {k : Nat}
    (some : 0 < k) (fits : k ≤ s.leaves.length) (recent : s.leaves.length ≤ k + 29) {r : Bytes32}
    (same : r = MerkleTree.root (mimc d.hasher) zeroAt d.merkleTreeHeight.toNat (s.leaves.take k))
    (nonzero : r ≠ 0) : isKnownRoot s.tree r = true := by
  rw [isKnownRoot_iff_recent stored.tree,stored.tall,same]
  exact ⟨same ▸ nonzero,root_recent some fits recent⟩

variable {d : Instance} {gas balance tokens block : Nat} {start : World} {c : Config World Pending}

/-- The root of a local path is known to the pool exactly when the local leaves are its first
commitments, at most 29 of the last ones missing: stale leaves do, wrong ones do not. -/
theorem local_root_known_iff (deployed : deploy d balance tokens block = .ok start)
    (reach : Reachable (pool d) Anything ⟨gas, start, []⟩ c) (tall : d.merkleTreeHeight.toNat = lib.levels)
    (follows : lib.Follows d.hasher) {locals : List Bytes32} (fits : locals.length ≤ 2 ^ lib.levels)
    {leaf : Bytes32} {path : MerklePath}
    (found : merklePath lib (locals.map BitVec.toNat) leaf.toNat = .ok path)
    (chained : Chained (mimc d.hasher) zeroAt lib.levels)
    (binding : Binding (mimc d.hasher) zeroAt (localPairs d.hasher lib.levels c.world.leaves locals))
    (real : zeroAt 0 ∉ c.world.leaves) (real' : zeroAt 0 ∉ locals) (nonzero : path.root ≠ 0) :
    isKnownRoot c.world.tree (BitVec.ofNat 256 path.root) = true ↔
      locals <+: c.world.leaves ∧ c.world.leaves.length ≤ locals.length + 29 := by
  have stored := (reachable_sound deployed reach).stored
  obtain ⟨here,root_,_⟩ := merklePath_ok follows fits found
  have word : BitVec.ofNat 256 path.root = MerkleTree.root (mimc d.hasher) zeroAt lib.levels locals := by
    rw [root_]
    exact BitVec.ofNat_toNat _ _
  constructor
  · intro known
    have recent := ((isKnownRoot_iff_recent stored.tree).mp known).2
    have room := stored.tree.room
    have positive := stored.tree.positive
    rw [stored.tall,tall,word] at recent
    rw [stored.tall,tall] at room positive
    exact recent_root positive chained binding room fits real real' recent
  · rintro ⟨first,recent⟩
    have whole := List.prefix_iff_eq_take.mp first
    apply stored_root_known stored _ first.length_le recent
    · rw [word,tall,← whole]
    · rw [word]
      intro zero
      rw [zero] at root_
      exact nonzero root_
    · have inside := (List.getElem?_eq_some_iff.mp here).1
      omega

/-! ### Synced leaves -/

/-- What a run returns from a cache that dates no leaf over its head. -/
theorem synced_leaves {h : History} {file₀ file : File LeafCache} {run : Run}
    (exact : ∀ cache, h.Holds file₀ cache → h.Exact cache) (reach : Reached h file₀ file)
    (for_ : run.For h) (dated : run.Dated h file) {order : List Nat} {writeFault : Bool} {sync : Sync}
    (ran : run.sync h order writeFault file = some sync) {cache : LeafCache}
    (returned : sync.result = .ok cache) : ∃ head, cache.leaves = h.leaves head := by
  rcases sync_cases for_ ran with
    ⟨e,_,rfl⟩ | ⟨opened,head,started,⟨requests,rest,r,e,_,_,_,rfl⟩ | ⟨events,found,rfl⟩⟩
  · contradiction
  · contradiction
  · have added := (save_cases run.opts writeFault file _ _).2.1 cache returned
    obtain ⟨_,later,_,_,result⟩ := start_ok (reach.fits exact) for_ started
    rcases result with ⟨_,whole⟩ | ⟨undated,_⟩
    · exact ⟨_,(addLeaves_fits whole later found added).1.leaves⟩
    · exact absurd dated undated

/-- The leaves up to a block are the first ones. -/
theorem leaves_prefix (h : History) (head : Int) :
    h.leaves head <+: h.deposits.map Deposit.commitment := by
  rw [History.leaves,History.upTo,filter_ordered h.ordered]
  exact (List.takeWhile_prefix _).map _

/-- The history lists the deposits of the pool. -/
def Logs (s : World) (h : History) : Prop :=
  h.deposits = s.deposited.map fun e => ⟨e.commitment, e.block⟩

theorem logs_commitments {s : World} {h : History} (logs : Logs s h) (logged : Logged .idle s) :
    h.deposits.map Deposit.commitment = s.leaves.map BitVec.toNat := by
  have listed := logged.deposited
  simp only [Phase.idle,Option.toList_none,List.append_nil] at listed
  have first := congrArg (List.map Prod.fst) listed
  rw [List.map_map,List.zipIdx_map_fst] at first
  rw [logs,List.map_map,← first]
  rfl

/-- What such a history has for a log is what the pool emitted. -/
theorem logs_log {s : World} {h : History} (logs : Logs s h) (logged : Logged .idle s) :
    h.log = s.deposited := by
  have listed := logged.deposited
  simp only [Phase.idle,Option.toList_none,List.append_nil] at listed
  have indices := congrArg (List.map Prod.snd) listed
  rw [List.map_map,List.zipIdx_map_snd] at indices
  have deposits : h.deposits = s.deposited.map _ := logs
  rw [History.log,deposits]
  apply List.ext_getElem (by simp)
  intro i left right
  have index := List.getElem_of_eq indices (by simpa using right)
  simp only [List.getElem_map,Function.comp_apply,numbered,List.getElem_range',Nat.zero_add,
    Nat.one_mul] at index
  simp only [List.getElem_map,List.getElem_zipIdx,Nat.zero_add]
  generalize s.deposited[i] = e at index ⊢
  rw [← index]

/-- Whatever a run synced from the pool's logs has a path for each of its commitments. It leads to
a root which the pool knows while at most 29 deposits have followed. -/
theorem synced_path_known (deployed : deploy d balance tokens block = .ok start)
    (reach : Reachable (pool d) Anything ⟨gas, start, []⟩ c) (idle : live c.stack = [])
    (tall : d.merkleTreeHeight.toNat = lib.levels) (follows : lib.Follows d.hasher) {h : History}
    (logs : Logs c.world h) {file₀ file : File LeafCache} {run : Run}
    (exact : ∀ cache, h.Holds file₀ cache → h.Exact cache) (reached : Reached h file₀ file)
    (for_ : run.For h) (dated : run.Dated h file) {order : List Nat} {writeFault : Bool} {sync : Sync}
    (ran : run.sync h order writeFault file = some sync) {cache : LeafCache}
    (returned : sync.result = .ok cache) {commitment : Nat} (member : commitment ∈ cache.leaves) :
    h.log = c.world.deposited ∧
    ∃ path leaf, merklePath lib cache.leaves commitment = .ok path ∧ leaf.toNat = commitment ∧
      c.world.leaves[path.leafIndex]? = some leaf ∧ path.steps.length = lib.levels ∧
      pathRoot (mimc d.hasher) path.steps leaf = BitVec.ofNat 256 path.root ∧
      (c.world.leaves.length ≤ cache.leaves.length + 29 → path.root ≠ 0 →
        isKnownRoot c.world.tree (BitVec.ofNat 256 path.root) = true) := by
  obtain ⟨_,body⟩ := (reachable_sound deployed reach).idle idle
  have stored := body.stored
  have room := stored.tree.room
  rw [stored.tall,tall] at room
  obtain ⟨head,synced⟩ := synced_leaves exact reached for_ dated ran returned
  have first := leaves_prefix h head
  rw [logs_commitments logs body.logged,← synced] at first
  -- The cache has the first commitments.
  have few : cache.leaves.length ≤ c.world.leaves.length := by
    simpa using first.length_le
  have whole : cache.leaves = (c.world.leaves.take cache.leaves.length).map BitVec.toNat := by
    rw [List.map_take]
    exact List.prefix_iff_eq_take.mp first
  obtain ⟨path,found⟩ := merklePath_isOk lib member
  rw [whole] at member
  obtain ⟨leaf,_,rfl⟩ := List.mem_map.mp member
  have found' := found
  rw [whole] at found'
  obtain ⟨here,root_,long,leads⟩ := merklePath_ok follows (by rw [List.length_take]; omega) found'
  have word : BitVec.ofNat 256 path.root = MerkleTree.root (mimc d.hasher) zeroAt lib.levels
      (c.world.leaves.take cache.leaves.length) := by
    rw [root_]
    exact BitVec.ofNat_toNat _ _
  refine ⟨logs_log logs body.logged,path,leaf,found,rfl,?_,long,leads.trans word.symm,
    fun recent nonzero => ?_⟩
  · have inside := (List.getElem?_eq_some_iff.mp here).1
    rw [List.length_take] at inside
    rwa [List.getElem?_take_of_lt (by omega)] at here
  · apply stored_root_known stored _ few recent
    · rw [word,tall]
    · rw [word]
      intro zero
      rw [zero] at root_
      exact nonzero root_
    · have inside := (List.getElem?_eq_some_iff.mp here).1
      rw [List.length_take] at inside
      omega

/-! ### The sample's deposits -/

/-- Trees of one level with the sample's hasher. -/
def sampleTree : MimcTree where
  Tree := List Bytes32
  levels := 1
  createMimcMerkleTree leaves := leaves.map (BitVec.ofNat 256)
  generateMimcMerkleProof leaves commitment :=
    let path := pathTo (mimc sampleHasher) zeroAt leaves
      ((leaves.findIdx? (· = BitVec.ofNat 256 commitment)).getD 0) 1
    ((MerkleTree.root (mimc sampleHasher) zeroAt 1 leaves).toNat,
      path.map fun step => step.2.toNat, path.map fun step => step.1.toNat)

theorem sampleTree_follows : sampleTree.Follows samplePool.hasher := by
  intro leaves leaf i _ index
  have words : (leaves.map BitVec.toNat).map (BitVec.ofNat 256) = leaves := by
    rw [List.map_map]
    exact List.map_id'' (fun word => BitVec.ofNat_toNat _ word) leaves
  simp only [sampleTree,words]
  rw [BitVec.ofNat_toNat,BitVec.setWidth_eq,index]
  rfl

def depositHistory : History where
  instanceAddress := 0x12d6
  chainId := 1
  deposits := [⟨sampleCommitment.toNat, 7⟩, ⟨secondCommitment.toNat, 8⟩]
  ordered := by simp

theorem two_positive : 0 < 2 := by decide

/-- A scan of blocks 5 to 9, two at a time. -/
def depositRun : Run where
  client := {
    getChainId := .ok 1
    getBlockNumber := .ok 9
    getLogs := fun r => .ok (depositHistory.log.filter fun e => r.1 ≤ e.block ∧ e.block ≤ r.2) }
  opts := ⟨5, 2, two_positive, true, ("", none), none, some 2⟩

theorem depositRun_for : depositRun.For depositHistory where
  chain _ same := by
    cases same
    rfl
  complete r logs read := by
    cases read
    exact List.Perm.refl _
  started := by simp [depositHistory,depositRun]
  shared := rfl
  seeded path deposits named := by simp [depositRun] at named

theorem sample_chained : Chained (mimc sampleHasher) zeroAt 1 := by
  intro i below
  obtain rfl : i = 0 := by omega
  decide

/-- The first leaf alone is behind by one and still has a known root, the leaves in the other
order have none. -/
theorem local_root_known_sample : ∃ path wrong,
    merklePath sampleTree [sampleCommitment.toNat] sampleCommitment.toNat = .ok path ∧
    isKnownRoot sampleTwice.world.tree (BitVec.ofNat 256 path.root) = true ∧
    merklePath sampleTree [secondCommitment.toNat,sampleCommitment.toNat] sampleCommitment.toNat =
      .ok wrong ∧
    isKnownRoot sampleTwice.world.tree (BitVec.ofNat 256 wrong.root) = false := by
  have known_iff {locals : List Bytes32} {path : MerklePath}
      (fits : locals.length ≤ 2 ^ sampleTree.levels)
      (found : merklePath sampleTree (locals.map BitVec.toNat) sampleCommitment.toNat = .ok path)
      (hashed : localPairs sampleHasher 1 [sampleCommitment,secondCommitment] locals ⊆ samplePairs)
      (real : zeroAt 0 ∉ locals) (nonzero : MerkleTree.root (mimc sampleHasher) zeroAt 1 locals ≠ 0) :
      isKnownRoot sampleTwice.world.tree (BitVec.ofNat 256 path.root) = true ↔
        locals <+: [sampleCommitment,secondCommitment] ∧ 2 ≤ locals.length + 29 := by
    have root := (merklePath_ok sampleTree_follows fits found).2.1
    apply local_root_known_iff sample_deployed sample_reached_twice rfl sampleTree_follows fits found
      sample_chained (sample_binding.subset hashed) (by decide) real
    rw [root]
    exact fun zero => nonzero (BitVec.eq_of_toNat_eq zero)
  obtain ⟨path,found⟩ := merklePath_isOk sampleTree (List.mem_singleton_self sampleCommitment.toNat)
  have listed : sampleCommitment.toNat ∈ [secondCommitment.toNat,sampleCommitment.toNat] := by simp
  obtain ⟨wrong,mixed⟩ := merklePath_isOk sampleTree listed
  refine ⟨path,wrong,found,?_,mixed,?_⟩
  · apply (@known_iff [sampleCommitment] path (by decide) found (by decide) (by decide) (by decide)).mpr
    exact ⟨⟨[secondCommitment],rfl⟩,by decide⟩
  · rw [← Bool.not_eq_true]
    rw [@known_iff [secondCommitment,sampleCommitment] wrong (by decide) mixed (by decide) (by decide)
      (by decide)]
    decide

theorem synced_path_known_sample : ∃ cache,
    (depositRun.sync depositHistory [1,0,0] false none).map Sync.result = some (.ok cache) ∧
    cache.leaves = [sampleCommitment.toNat,secondCommitment.toNat] ∧
    ∃ path, merklePath sampleTree cache.leaves secondCommitment.toNat = .ok path ∧
      isKnownRoot sampleTwice.world.tree (BitVec.ofNat 256 path.root) = true := by
  have none_held : ∀ cache, depositHistory.Holds none cache → depositHistory.Exact cache := by
    rintro cache ⟨absent,_⟩
    contradiction
  have dated : depositRun.Dated depositHistory none := by
    rintro head cache _ ⟨absent,_⟩
    contradiction
  have logs : Logs sampleTwice.world depositHistory := rfl
  have ran : depositRun.sync depositHistory [1,0,0] false none = some _ := rfl
  obtain ⟨_,path,leaf,found,_,_,_,_,known⟩ := synced_path_known sample_deployed
    sample_reached_twice rfl rfl sampleTree_follows logs none_held .start depositRun_for dated ran rfl
    (List.mem_cons_of_mem _ (List.mem_singleton_self secondCommitment.toNat))
  have two : [sampleCommitment,secondCommitment].length ≤ 2 ^ sampleTree.levels := by decide
  have root := (merklePath_ok sampleTree_follows two found).2.1
  refine ⟨_,rfl,rfl,path,found,known (by decide) ?_⟩
  rw [root]
  decide

end TornadoRelayer.Merkle
