import TornadoRelayer.MerkleTree
import TornadoRelayer.RingBuffer
import TornadoRelayer.RelayerRegistry

/-! The pool's `MerkleTreeWithHistory.sol`: the tree of all commitments, by its stored left
nodes and its last thirty roots. The hasher contract is a parameter. -/
namespace TornadoRelayer.MerkleTreeWithHistory

open BigEndian RelayerRegistry MerkleTree

def FIELD_SIZE : Nat :=
  21888242871839275222246405745257275088548364400416034343698204186575808495617
def ROOT_HISTORY_SIZE : Nat := 30

structure IHasher where
  MiMCSponge : (in_xL in_xR : Word 32) → Word 32 × Word 32
  /-- It computes in the field. -/
  inField : ∀ xL xR, (MiMCSponge xL xR).1.toNat < FIELD_SIZE

def ZEROS : List Bytes32 := [
  0x2fe54c60d3acabf3343a35b6eba15db4821b340f76e741e2249685ed4899af6c,
  0x256a6135777eee2fd26f54b8b7037a25439d5235caee224154186d2b8a52e31d,
  0x1151949895e82ab19924de92c40a3d6f7bcb60d92b00504b8199613683f0c200,
  0x20121ee811489ff8d61f09fb89e313f14959a0f28bb428a20dba6b0b068b3bdb,
  0x0a89ca6ffa14cc462cfedb842c30ed221a50a3d6bf022a6a57dc82ab24c157c9,
  0x24ca05c2b5cd42e890d6be94c68d0689f4f21c9cec9c0f13fe41d566dfb54959,
  0x1ccb97c932565a92c60156bdba2d08f3bf1377464e025cee765679e604a7315c,
  0x19156fbd7d1a8bf5cba8909367de1b624534ebab4f0f79e003bccdd1b182bdb4,
  0x261af8c1f0912e465744641409f622d466c3920ac6e5ff37e36604cb11dfff80,
  0x0058459724ff6ca5a1652fcbc3e82b93895cf08e975b19beab3f54c217d1c007,
  0x1f04ef20dee48d39984d8eabe768a70eafa6310ad20849d4573c3c40c2ad1e30,
  0x1bea3dec5dab51567ce7e200a30f7ba6d4276aeaa53e2686f962a46c66d511e5,
  0x0ee0f941e2da4b9e31c3ca97a40d8fa9ce68d97c084177071b3cb46cd3372f0f,
  0x1ca9503e8935884501bbaf20be14eb4c46b89772c97b96e3b2ebf3a36a948bbd,
  0x133a80e30697cd55d8f7d4b0965b7be24057ba5dc3da898ee2187232446cb108,
  0x13e6d8fc88839ed76e182c2a779af5b2c0da9dd18c90427a644f7e148a6253b6,
  0x1eb16b057a477f4bc8f572ea6bee39561098f78f15bfb3699dcbb7bd8db61854,
  0x0da2cb16a1ceaabf1c16b838f7a9e3f2a3a3088d9e0a6debaa748114620696ea,
  0x24a3b3d822420b14b5d8cb6c28a574f01e98ea9e940551d2ebd75cee12649f9d,
  0x198622acbd783d1b0d9064105b1fc8e4d8889de95c4c519b3f635809fe6afc05,
  0x29d7ed391256ccc3ea596c86e933b89ff339d25ea8ddced975ae2fe30b5296d4,
  0x19be59f2f0413ce78c0c3703a3a5451b1d7f39629fa33abd11548a76065b2967,
  0x1ff3f61797e538b70e619310d33f2a063e7eb59104e112e95738da1254dc3453,
  0x10c16ae9959cf8358980d9dd9616e48228737310a10e2b6b731c1a548f036c48,
  0x0ba433a63174a90ac20992e75e3095496812b652685b5e1a2eae0b1bf4e8fcd1,
  0x019ddb9df2bc98d987d0dfeca9d2b643deafab8f7036562e627c3667266a044c,
  0x2d3c88b23175c5a5565db928414c66d1912b11acf974b2e644caaac04739ce99,
  0x2eab55f6ae4e66e32c5189eed5c470840863445760f5ed7e7b69b2a62600f354,
  0x002df37a2642621802383cf952bf4dd1f32e05433beeb1fd41031fb7eace979d,
  0x104aeb41435db66c3e62feccc1d6f5d98d0a0ed75d1374db457cf462e3a1f427,
  0x1f3c6fd858e9a7d4b0d1f38e256a09d81d5a5e3c963987e2d4b814cfab7c6ebb,
  0x2c7a07d20dff79d01fecedc1134284a8d08436606c93693b67e333f671bf69cc]

def zeros (i : Nat) : Except String Bytes32 := (ZEROS[i]?).elim (.error "Index out of bounds") .ok

/-- The storage of the tree. -/
structure Tree where
  levels : Nat
  filledSubtrees : Nat → Bytes32
  roots : Nat → Bytes32
  currentRootIndex : Nat
  nextIndex : Nat

def fillLevel (filledSubtrees : Nat → Bytes32) (i : Nat) : Except String (Nat → Bytes32) := do
  return Function.update filledSubtrees i (← zeros i)

/-- The constructor. -/
def create (_levels : Word 4) : Except String Tree := do
  require (_levels > 0) "_levels should be greater than zero"
  require (_levels < 32) "_levels should be less than 32"
  let filledSubtrees ← (List.range _levels.toNat).foldlM fillLevel fun _ => 0
  let root ← zeros (_levels.toNat - 1)
  return {
    levels := _levels.toNat, filledSubtrees
    roots := Function.update (fun _ => 0) 0 root
    currentRootIndex := 0, nextIndex := 0 }

/-! ### Insertion -/

section

variable (hasher : IHasher)

/-- MiMC(left, right). -/
def mimc (left right : Bytes32) : Bytes32 :=
  let (R, C) := hasher.MiMCSponge left 0
  let R := BitVec.ofNat 256 ((R.toNat + right.toNat) % FIELD_SIZE)
  (hasher.MiMCSponge R C).1

def hashLeftRight (_left _right : Bytes32) : Except String Bytes32 := do
  require (_left.toNat < FIELD_SIZE) "_left should be inside the field"
  require (_right.toNat < FIELD_SIZE) "_right should be inside the field"
  return mimc hasher _left _right

/-- A turn of the loop: its `currentIndex`, `currentLevelHash` and `filledSubtrees`. -/
def insertLevel (s : Climb Bytes32) (i : Nat) : Except String (Climb Bytes32) := do
  if s.index % 2 = 0 then
    let left := s.node
    let right ← zeros i
    return ⟨s.index / 2, ← hashLeftRight hasher left right, Function.update s.filled i s.node⟩
  else
    let left := s.filled i
    let right := s.node
    return ⟨s.index / 2, ← hashLeftRight hasher left right, s.filled⟩

def _insert (_leaf : Bytes32) (t : Tree) : Except String (Nat × Tree) := do
  require (t.nextIndex ≠ 2 ^ t.levels) "Merkle tree is full. No more leaves can be added"
  let s ← (List.range t.levels).foldlM (insertLevel hasher) ⟨t.nextIndex, _leaf, t.filledSubtrees⟩
  let newRootIndex := (t.currentRootIndex + 1) % ROOT_HISTORY_SIZE
  return (t.nextIndex, { t with
    filledSubtrees := s.filled
    roots := Function.update t.roots newRootIndex s.node
    currentRootIndex := newRootIndex
    nextIndex := t.nextIndex + 1 })

end

/-! ### Roots -/

/-- The `do` loop from slot `i`, for at most so many turns. -/
def findRoot (roots : Nat → Bytes32) (_root : Bytes32) (_currentRootIndex : Nat) : Nat → Nat → Bool
  | 0, _ => false
  | turns + 1, i =>
    if _root = roots i then true
    else
      let i := if i = 0 then ROOT_HISTORY_SIZE else i
      let i := i - 1
      if i ≠ _currentRootIndex then findRoot roots _root _currentRootIndex turns i else false

def isKnownRoot (t : Tree) (_root : Bytes32) : Bool :=
  if _root = 0 then false
  else findRoot t.roots _root t.currentRootIndex ROOT_HISTORY_SIZE t.currentRootIndex

def getLastRoot (t : Tree) : Bytes32 := t.roots t.currentRootIndex

/-! ### One insertion -/

def zeroAt (i : Nat) : Bytes32 := ZEROS.getD i 0

variable {hasher : IHasher}

theorem zeros_ok {i : Nat} (below : i < 32) : zeros i = .ok (zeroAt i) := by
  have known : ZEROS[i]? = some ZEROS[i] := List.getElem?_eq_getElem below
  rw [zeros,zeroAt,List.getD_eq_getElem?_getD,known]
  rfl

theorem zeroAt_inField (i : Nat) : (zeroAt i).toNat < FIELD_SIZE := by
  by_cases below : i < 32
  · have all : ZEROS.all (fun z => z.toNat < FIELD_SIZE) := by decide
    have known : ZEROS[i]? = some ZEROS[i] := List.getElem?_eq_getElem below
    rw [zeroAt,List.getD_eq_getElem?_getD,known]
    exact of_decide_eq_true (List.all_eq_true.mp all _ (List.getElem_mem _))
  · have none : ZEROS[i]? = none := List.getElem?_eq_none (Nat.le_of_not_lt below)
    rw [zeroAt,List.getD_eq_getElem?_getD,none]
    decide

theorem mimc_inField (left right : Bytes32) : (mimc hasher left right).toNat < FIELD_SIZE :=
  hasher.inField _ _

theorem hashLeftRight_ok_iff {left right node : Bytes32} :
    hashLeftRight hasher left right = .ok node ↔
      left.toNat < FIELD_SIZE ∧ right.toNat < FIELD_SIZE ∧ node = mimc hasher left right := by
  rw [hashLeftRight,bind_ok_iff]
  constructor
  · rintro ⟨_,first,rest⟩
    obtain ⟨_,second,returned⟩ := bind_ok_iff.mp rest
    cases returned
    exact ⟨require_ok_iff.mp first,require_ok_iff.mp second,rfl⟩
  · rintro ⟨first,second,rfl⟩
    refine ⟨(),require_ok_iff.mpr first,?_⟩
    rw [bind_ok_iff]
    exact ⟨(),require_ok_iff.mpr second,rfl⟩

/-- A turn succeeds when both nodes are in the field, and is then the step of the tree. -/
theorem insertLevel_ok_iff {s s' : Climb Bytes32} {i : Nat} (below : i < 32) :
    insertLevel hasher s i = .ok s' ↔ s.node.toNat < FIELD_SIZE ∧
      (s.index % 2 = 1 → (s.filled i).toNat < FIELD_SIZE) ∧
      s' = s.step (mimc hasher) zeroAt i := by
  rw [insertLevel,Climb.step]
  split
  · next even =>
    have left : ¬s.index % 2 = 1 := by omega
    rw [zeros_ok below]
    constructor
    · intro turned
      obtain ⟨_,zero,turned⟩ := bind_ok_iff.mp turned
      cases zero
      obtain ⟨node,hashed,returned⟩ := bind_ok_iff.mp turned
      obtain ⟨first,_,rfl⟩ := hashLeftRight_ok_iff.mp hashed
      cases returned
      exact ⟨first,fun odd => absurd odd left,rfl⟩
    · rintro ⟨first,_,rfl⟩
      have hashed : hashLeftRight hasher s.node (zeroAt i) = .ok _ :=
        hashLeftRight_ok_iff.mpr ⟨first,zeroAt_inField i,rfl⟩
      exact bind_ok_iff.mpr ⟨_,rfl,bind_ok_iff.mpr ⟨_,hashed,rfl⟩⟩
  · next odd =>
    have right : s.index % 2 = 1 := by omega
    constructor
    · intro turned
      obtain ⟨node,hashed,returned⟩ := bind_ok_iff.mp turned
      obtain ⟨first,second,rfl⟩ := hashLeftRight_ok_iff.mp hashed
      cases returned
      exact ⟨second,fun _ => first,rfl⟩
    · rintro ⟨second,first,rfl⟩
      apply bind_ok_iff.mpr
      exact ⟨_,hashLeftRight_ok_iff.mpr ⟨first right,second,rfl⟩,rfl⟩

/-- The loop is the climb of the tree, and every level stores a node of the field. -/
theorem insertLevels_ok {s : Climb Bytes32} {filled : Nat → Bytes32} {index n : Nat} {leaf : Bytes32}
    (below : n ≤ 32) (inField : ∀ i < n, (filled i).toNat < FIELD_SIZE)
    (looped : (List.range n).foldlM (insertLevel hasher) ⟨index, leaf, filled⟩ = .ok s) :
    s = climb (mimc hasher) zeroAt filled index leaf n ∧ (0 < n → leaf.toNat < FIELD_SIZE) ∧
      ∀ i < n, (s.filled i).toNat < FIELD_SIZE := by
  induction n generalizing s with
  | zero =>
    cases looped
    exact ⟨rfl,by simp,by simp⟩
  | succ n ih =>
    rw [List.range_succ,List.foldlM_append] at looped
    obtain ⟨last,earlier,turned⟩ := bind_ok_iff.mp looped
    obtain ⟨same,leafFits,fits⟩ := ih (by omega) (fun i inside => inField i (by omega)) earlier
    obtain ⟨_,turned,returned⟩ := bind_ok_iff.mp turned
    cases returned
    obtain ⟨node,_,rfl⟩ := (insertLevel_ok_iff (by omega)).mp turned
    refine ⟨by rw [same,climb_succ],fun _ => ?_,fun i inside => ?_⟩
    · cases n with
      | zero =>
        rw [same] at node
        exact node
      | succ n => exact leafFits (Nat.succ_pos n)
    · rw [step_filled]
      split
      · exact node
      · by_cases earlier : i < n
        · exact fits i earlier
        · rw [same,climb_filled,if_neg (by omega)]
          exact inField i inside

theorem insertLevels_succeed {filled : Nat → Bytes32} {index n : Nat} {leaf : Bytes32}
    (below : n ≤ 32) (inField : ∀ i < n, (filled i).toNat < FIELD_SIZE)
    (leafFits : leaf.toNat < FIELD_SIZE) :
    (List.range n).foldlM (insertLevel hasher) ⟨index, leaf, filled⟩ =
      .ok (climb (mimc hasher) zeroAt filled index leaf n) := by
  induction n with
  | zero => rfl
  | succ n ih =>
    have earlier := ih (by omega) fun i inside => inField i (by omega)
    have node : (climb (mimc hasher) zeroAt filled index leaf n).node.toNat < FIELD_SIZE := by
      cases n with
      | zero => exact leafFits
      | succ n =>
        rw [climb_succ,step_node]
        split <;> exact mimc_inField _ _
    have stored : ((climb (mimc hasher) zeroAt filled index leaf n).filled n).toNat < FIELD_SIZE := by
      rw [climb_filled,if_neg (by omega)]
      exact inField n (by omega)
    have turned : insertLevel hasher _ n = .ok _ :=
      (insertLevel_ok_iff (by omega)).mpr ⟨node,fun _ => stored,rfl⟩
    rw [List.range_succ,List.foldlM_append,earlier]
    change ((List.foldlM (insertLevel hasher) _ [n]) : Except String _) = _
    rw [List.foldlM_cons,turned,climb_succ]
    rfl

/-! ### The tree and its leaves -/

variable (hasher)

/-- The roots after each insertion, from the one the constructor stores. -/
def rootHistory (levels : Nat) (leaves : List Bytes32) : List Bytes32 :=
  zeroAt (levels - 1) ::
    (List.range leaves.length).map fun k => root (mimc hasher) zeroAt levels (leaves.take (k + 1))

/-- The last roots of the history, as many as there are slots. -/
def recentRoots (levels : Nat) (leaves : List Bytes32) : List Bytes32 :=
  (rootHistory hasher levels leaves).drop (leaves.length + 1 - ROOT_HISTORY_SIZE)

structure Tree.Holds (t : Tree) (leaves : List Bytes32) : Prop where
  positive : 0 < t.levels
  small : t.levels < 32
  next : t.nextIndex = leaves.length
  room : leaves.length ≤ 2 ^ t.levels
  stored : Filled (mimc hasher) zeroAt t.levels leaves t.filledSubtrees
  inField : ∀ i < t.levels, (t.filledSubtrees i).toNat < FIELD_SIZE
  current : t.currentRootIndex = leaves.length % ROOT_HISTORY_SIZE
  roots : RingBuffer.Holds ROOT_HISTORY_SIZE 0 (rootHistory hasher t.levels leaves) t.roots

variable {hasher}

@[simp] theorem rootHistory_length (levels : Nat) (leaves : List Bytes32) :
    (rootHistory hasher levels leaves).length = leaves.length + 1 := by
  simp [rootHistory]

theorem rootHistory_concat (levels : Nat) (leaves : List Bytes32) (leaf : Bytes32) :
    rootHistory hasher levels (leaves ++ [leaf]) = rootHistory hasher levels leaves ++
      [root (mimc hasher) zeroAt levels (leaves ++ [leaf])] := by
  simp only [rootHistory,List.length_append,List.length_singleton,List.range_succ,List.map_append,
    List.map_cons,List.map_nil,List.cons_append]
  congr 2
  · apply List.map_congr_left
    intro k member
    rw [List.take_append_of_le_length (List.mem_range.mp member)]
  · rw [List.take_of_length_le (by simp)]

theorem fillLevels_ok {n : Nat} {filled : Nat → Bytes32} (below : n ≤ 32)
    (looped : (List.range n).foldlM fillLevel (fun _ => 0) = .ok filled) :
    ∀ i < n, filled i = zeroAt i := by
  induction n generalizing filled with
  | zero => simp
  | succ n ih =>
    rw [List.range_succ,List.foldlM_append] at looped
    obtain ⟨before,earlier,turned⟩ := bind_ok_iff.mp looped
    obtain ⟨_,turned,returned⟩ := bind_ok_iff.mp turned
    cases returned
    rw [fillLevel,zeros_ok (by omega)] at turned
    cases turned
    intro i inside
    rw [Function.update_apply]
    split
    · next same => rw [same]
    · exact ih (by omega) earlier i (by omega)

/-- The constructor makes the tree without leaves. -/
theorem create_holds {_levels : Word 4} {t : Tree} (created : create _levels = .ok t) :
    t.Holds hasher [] ∧ t.levels = _levels.toNat := by
  obtain ⟨_,some,rest⟩ := bind_ok_iff.mp created
  obtain ⟨_,small,rest⟩ := bind_ok_iff.mp rest
  obtain ⟨filled,looped,rest⟩ := bind_ok_iff.mp rest
  obtain ⟨zero,first,returned⟩ := bind_ok_iff.mp rest
  have positive : 0 < _levels.toNat := BitVec.lt_def.mp (require_ok_iff.mp some)
  have below : _levels.toNat < 32 := BitVec.lt_def.mp (require_ok_iff.mp small)
  rw [zeros_ok (by omega)] at first
  cases first
  cases returned
  refine ⟨?_,rfl⟩
  have fits (i : Nat) (inside : i < _levels.toNat) : (filled i).toNat < FIELD_SIZE := by
    rw [fillLevels_ok below.le looped i inside]
    exact zeroAt_inField i
  exact {
    positive, small := below, next := rfl, room := Nat.zero_le _
    stored := by simp [Filled]
    inField := fits
    current := rfl
    roots := RingBuffer.holds_singleton _ }

variable {t t' : Tree} {leaves : List Bytes32} {leaf : Bytes32}

/-- The tree after an insertion. -/
def Tree.inserted (hasher : IHasher) (t : Tree) (leaf : Bytes32) : Tree :=
  let s := climb (mimc hasher) zeroAt t.filledSubtrees t.nextIndex leaf t.levels
  { t with
    filledSubtrees := s.filled
    roots := Function.update t.roots ((t.currentRootIndex + 1) % ROOT_HISTORY_SIZE) s.node
    currentRootIndex := (t.currentRootIndex + 1) % ROOT_HISTORY_SIZE
    nextIndex := t.nextIndex + 1 }

/-- An insertion succeeds while there is room, for leaves of the field. -/
theorem insert_ok_iff (holds : t.Holds hasher leaves) {index : Nat} :
    _insert hasher leaf t = .ok (index,t') ↔
      leaves.length < 2 ^ t.levels ∧ leaf.toNat < FIELD_SIZE ∧ index = leaves.length ∧
      t' = t.inserted hasher leaf := by
  have small := holds.small
  constructor
  · intro inserted
    obtain ⟨_,free,rest⟩ := bind_ok_iff.mp inserted
    obtain ⟨s,looped,returned⟩ := bind_ok_iff.mp rest
    obtain ⟨same,fits,_⟩ := insertLevels_ok (by omega) holds.inField looped
    cases returned
    have free := require_ok_iff.mp free
    have room := holds.room
    rw [holds.next] at free
    refine ⟨by omega,fits holds.positive,holds.next,?_⟩
    rw [Tree.inserted,← same]
  · rintro ⟨free,fits,rfl,rfl⟩
    have looped : (List.range t.levels).foldlM (insertLevel hasher)
        ⟨t.nextIndex, leaf, t.filledSubtrees⟩ = .ok _ :=
      insertLevels_succeed (by omega) holds.inField fits
    apply bind_ok_iff.mpr
    refine ⟨(),require_ok_iff.mpr ?_,bind_ok_iff.mpr ⟨_,looped,?_⟩⟩
    · rw [holds.next]
      omega
    · rw [← holds.next]
      rfl

/-- An insertion adds its leaf, whose root becomes the last one of the history. -/
theorem Tree.Holds.inserted (holds : t.Holds hasher leaves) (free : leaves.length < 2 ^ t.levels)
    (fits : leaf.toNat < FIELD_SIZE) : (t.inserted hasher leaf).Holds hasher (leaves ++ [leaf]) := by
  have small := holds.small
  have looped : (List.range t.levels).foldlM (insertLevel hasher)
      ⟨t.nextIndex, leaf, t.filledSubtrees⟩ = .ok _ :=
    insertLevels_succeed (by omega) holds.inField fits
  have slot : (t.currentRootIndex + 1) % ROOT_HISTORY_SIZE =
      (rootHistory hasher t.levels leaves).length % ROOT_HISTORY_SIZE := by
    rw [holds.current,rootHistory_length,Nat.mod_add_mod]
  have top := climb_root holds.stored leaf free
  exact {
    positive := holds.positive
    small
    next := by simp [Tree.inserted,holds.next]
    room := by
      rw [List.length_append]
      exact free
    stored := by
      rw [Tree.inserted,holds.next]
      exact climb_stored holds.stored leaf
    inField := (insertLevels_ok (by omega) holds.inField looped).2.2
    current := by
      rw [List.length_append,Tree.inserted,holds.current]
      exact Nat.mod_add_mod ..
    roots := by
      rw [Tree.inserted,rootHistory_concat,holds.next,top,slot]
      exact holds.roots.push _ }

/-! ### The known roots -/

/-- The turns left at slot `i` look at as many slots, downwards and around. -/
theorem findRoot_iff {roots : Nat → Bytes32} {_root : Bytes32} {start i n turns : Nat}
    (inside : i < ROOT_HISTORY_SIZE) (some : 0 < n) (left : n ≤ ROOT_HISTORY_SIZE)
    (last : (i + ROOT_HISTORY_SIZE - n) % ROOT_HISTORY_SIZE = start) (enough : n ≤ turns) :
    findRoot roots _root start turns i = true ↔
      ∃ m < n, roots ((i + ROOT_HISTORY_SIZE - m) % ROOT_HISTORY_SIZE) = _root := by
  rw [ROOT_HISTORY_SIZE] at inside left last
  induction turns generalizing i n with
  | zero => omega
  | succ turns ih =>
    have own : roots ((i + ROOT_HISTORY_SIZE - 0) % ROOT_HISTORY_SIZE) = roots i := by
      rw [ROOT_HISTORY_SIZE]
      congr 1
      omega
    rw [findRoot]
    split
    · next found => simpa using ⟨0,some,own.trans found.symm⟩
    · next other =>
      have before : (if i = 0 then ROOT_HISTORY_SIZE else i) - 1 = (i + 29) % 30 := by
        rw [ROOT_HISTORY_SIZE]
        split <;> omega
      have shifted (m : Nat) (below : m < 30) : roots ((i + ROOT_HISTORY_SIZE - (m + 1)) %
          ROOT_HISTORY_SIZE) = roots (((i + 29) % 30 + ROOT_HISTORY_SIZE - m) % ROOT_HISTORY_SIZE) := by
        rw [ROOT_HISTORY_SIZE]
        congr 1
        omega
      simp only [before]
      split
      · next more =>
        have further : 1 < n := by
          by_contra single
          obtain rfl : n = 1 := by omega
          omega
        rw [ih (n := n - 1) (by omega) (by omega) (by omega) (by omega) (by omega)]
        constructor
        · rintro ⟨m,below,found⟩
          exact ⟨m + 1,by omega,(shifted m (by omega)).trans found⟩
        · rintro ⟨m,below,found⟩
          cases m with
          | zero => exact absurd (own.symm.trans found).symm other
          | succ m => exact ⟨m,by omega,(shifted m (by omega)).symm.trans found⟩
      · next done =>
        obtain rfl : n = 1 := by omega
        simp only [Bool.false_eq_true,Nat.lt_one_iff,exists_eq_left,false_iff]
        exact fun found => other (own.symm.trans found).symm

/-- The roots that are known are the last thirty, the zero word excepted. -/
theorem isKnownRoot_iff_recent (holds : t.Holds hasher leaves) {_root : Bytes32} :
    isKnownRoot t _root = true ↔ _root ≠ 0 ∧ _root ∈ recentRoots hasher t.levels leaves := by
  have inside : t.currentRootIndex < ROOT_HISTORY_SIZE := by
    rw [holds.current]
    exact Nat.mod_lt _ (by decide)
  have turned : (t.currentRootIndex + ROOT_HISTORY_SIZE - ROOT_HISTORY_SIZE) % ROOT_HISTORY_SIZE =
      t.currentRootIndex := by
    rw [Nat.add_sub_cancel,Nat.mod_eq_of_lt inside]
  rw [isKnownRoot]
  split
  · next zero => simp [zero]
  · next some =>
    have members := holds.roots.mem_iff (by decide) some
    rw [rootHistory_length] at members
    rw [findRoot_iff inside (by decide) (Nat.le_refl _) turned (Nat.le_refl _),recentRoots,← members]
    constructor
    · rintro ⟨m,_,found⟩
      exact ⟨some,_,Nat.mod_lt _ (by decide),found⟩
    · rintro ⟨_,j,below,found⟩
      rw [ROOT_HISTORY_SIZE] at below inside ⊢
      refine ⟨(t.currentRootIndex + 30 - j) % 30,Nat.mod_lt _ (by decide),?_⟩
      rw [← found]
      congr 1
      omega

/-- A recent root is the one of the constructor, or the root after one of the last deposits. -/
theorem mem_recentRoots {levels : Nat} {_root : Bytes32} :
    _root ∈ recentRoots hasher levels leaves ↔
      (leaves.length < ROOT_HISTORY_SIZE ∧ _root = zeroAt (levels - 1)) ∨
      ∃ k < leaves.length, leaves.length ≤ k + ROOT_HISTORY_SIZE ∧
        _root = root (mimc hasher) zeroAt levels (leaves.take (k + 1)) := by
  rw [recentRoots,List.mem_iff_getElem?]
  simp only [List.getElem?_drop]
  constructor
  · rintro ⟨j,at_⟩
    generalize place : leaves.length + 1 - ROOT_HISTORY_SIZE + j = i at at_
    cases i with
    | zero =>
      cases at_
      exact .inl ⟨by omega,rfl⟩
    | succ k =>
      simp only [rootHistory,List.getElem?_cons_succ,List.getElem?_map,Option.map_eq_some_iff] at at_
      obtain ⟨k',found,rfl⟩ := at_
      obtain ⟨inside,rfl⟩ := List.getElem?_eq_some_iff.mp found
      rw [List.length_range] at inside
      rw [List.getElem_range]
      exact .inr ⟨k,inside,by omega,rfl⟩
  · rintro (⟨few,rfl⟩ | ⟨k,inside,recent,rfl⟩)
    · refine ⟨0,?_⟩
      have first : leaves.length + 1 - ROOT_HISTORY_SIZE + 0 = 0 := by omega
      rw [first]
      rfl
    · refine ⟨k + 1 - (leaves.length + 1 - ROOT_HISTORY_SIZE),?_⟩
      have place : leaves.length + 1 - ROOT_HISTORY_SIZE +
          (k + 1 - (leaves.length + 1 - ROOT_HISTORY_SIZE)) = k + 1 := by omega
      rw [place]
      simp [rootHistory,inside]

theorem getLastRoot_last (holds : t.Holds hasher leaves) :
    (rootHistory hasher t.levels leaves).getLast? = some (getLastRoot t) := by
  have inside : leaves.length < (rootHistory hasher t.levels leaves).length := by simp
  have kept := holds.roots.kept leaves.length inside (by simp [ROOT_HISTORY_SIZE])
  rw [← holds.current] at kept
  rw [getLastRoot,kept,List.getLast?_eq_getElem?,rootHistory_length,Nat.add_sub_cancel]
  exact List.getElem?_eq_getElem inside

theorem rootHistory_last (levels : Nat) (some : leaves ≠ []) :
    (rootHistory hasher levels leaves).getLast? =
      Option.some (root (mimc hasher) zeroAt levels leaves) := by
  obtain ⟨init,leaf,rfl⟩ := List.eq_nil_or_concat' leaves |>.resolve_left some
  rw [rootHistory_concat,List.getLast?_concat]

end TornadoRelayer.MerkleTreeWithHistory
