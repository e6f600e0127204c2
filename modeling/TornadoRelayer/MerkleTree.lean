import Mathlib.Data.List.Induction
import Mathlib.Data.List.TakeDrop
import Mathlib.Logic.Function.Basic
import Mathlib.Tactic.Ring

/-! Binary trees of hashes over lists of leaves that only grow. An insertion climbs from the
new leaf to the root with one stored node a level; a path climbs from any leaf with the
siblings it is given. -/
namespace MerkleTree

variable {α : Type}

/-! ### Roots -/

/-- The leaves under node `j` of level `i`. -/
def segment (leaves : List α) (i j : Nat) : List α := (leaves.drop (j * 2 ^ i)).take (2 ^ i)

theorem segment_zero {leaves : List α} {levels : Nat} (fits : leaves.length ≤ 2 ^ levels) :
    segment leaves levels 0 = leaves := by
  simp [segment,List.take_of_length_le fits]

theorem segment_left (leaves : List α) (i j : Nat) :
    (segment leaves (i + 1) j).take (2 ^ i) = segment leaves i (2 * j) := by
  have start : j * 2 ^ (i + 1) = 2 * j * 2 ^ i := by ring
  have half : min (2 ^ i) (2 ^ (i + 1)) = 2 ^ i := by
    rw [pow_succ]
    omega
  rw [segment,segment,List.take_take,half,start]

theorem segment_right (leaves : List α) (i j : Nat) :
    (segment leaves (i + 1) j).drop (2 ^ i) = segment leaves i (2 * j + 1) := by
  have start : j * 2 ^ (i + 1) + 2 ^ i = (2 * j + 1) * 2 ^ i := by ring
  have half : 2 ^ (i + 1) - 2 ^ i = 2 ^ i := by
    rw [pow_succ]
    omega
  rw [segment,segment,List.drop_take,List.drop_drop,half,start]

/-- Segments that end before the last leaf stay when leaves are added. -/
theorem segment_append {leaves : List α} {i j : Nat} (complete : (j + 1) * 2 ^ i ≤ leaves.length)
    (more : List α) : segment (leaves ++ more) i j = segment leaves i j := by
  have some := Nat.two_pow_pos i
  rw [Nat.succ_mul] at complete
  rw [segment,segment,List.drop_append_of_le_length (by omega),List.take_append_of_le_length]
  rw [List.length_drop]
  omega

theorem segment_nil {leaves : List α} {i j : Nat} (past : leaves.length ≤ j * 2 ^ i) :
    segment leaves i j = [] := by
  simp [segment,List.drop_eq_nil_of_le past]

theorem segment_ne_nil {leaves : List α} {i j : Nat} (inside : j * 2 ^ i < leaves.length) :
    segment leaves i j ≠ [] := by
  have some := Nat.two_pow_pos i
  rw [← List.length_pos_iff,segment,List.length_take,List.length_drop]
  omega

variable (hash : α → α → α) (zeros : Nat → α)

/-- The root of the tree over these leaves. A subtree without any is the zero of its level. -/
def root : Nat → List α → α
  | 0, leaves => leaves.headD (zeros 0)
  | l + 1, leaves =>
    if leaves.isEmpty then zeros (l + 1)
    else hash (root l (leaves.take (2 ^ l))) (root l (leaves.drop (2 ^ l)))

@[simp] theorem root_nil (l : Nat) : root hash zeros l [] = zeros l := by
  cases l <;> rfl

theorem root_segment {leaves : List α} {i j : Nat} (some : segment leaves (i + 1) j ≠ []) :
    root hash zeros (i + 1) (segment leaves (i + 1) j) =
      hash (root hash zeros i (segment leaves i (2 * j)))
        (root hash zeros i (segment leaves i (2 * j + 1))) := by
  rw [root,if_neg (by simpa using some),segment_left,segment_right]

/-! ### Insertions -/

/-- Where a climb is: the index of the node in its level, the node, and what is stored. -/
structure Climb (α : Type) where
  index : Nat
  node : α
  filled : Nat → α

/-- From level `i` to the next: a left node is stored, a right one meets what was. -/
def Climb.step (c : Climb α) (i : Nat) : Climb α :=
  if c.index % 2 = 0 then
    ⟨c.index / 2, hash c.node (zeros i), Function.update c.filled i c.node⟩
  else ⟨c.index / 2, hash (c.filled i) c.node, c.filled⟩

def climb (filled : Nat → α) (index : Nat) (leaf : α) (levels : Nat) : Climb α :=
  (List.range levels).foldl (Climb.step hash zeros) ⟨index, leaf, filled⟩

/-- What is stored for each bit of the size: the root of the last complete segment. -/
def Filled (levels : Nat) (leaves : List α) (filled : Nat → α) : Prop :=
  ∀ i < levels, leaves.length / 2 ^ i % 2 = 1 →
    filled i = root hash zeros i (segment leaves i (leaves.length / 2 ^ i - 1))

variable {hash} {zeros}

theorem step_index (c : Climb α) (i : Nat) : (c.step hash zeros i).index = c.index / 2 := by
  rw [Climb.step]
  split <;> rfl

theorem step_node (c : Climb α) (i : Nat) : (c.step hash zeros i).node =
    if c.index % 2 = 0 then hash c.node (zeros i) else hash (c.filled i) c.node := by
  rw [Climb.step]
  split <;> rfl

theorem step_filled (c : Climb α) (i k : Nat) : (c.step hash zeros i).filled k =
    if k = i ∧ c.index % 2 = 0 then c.node else c.filled k := by
  rw [Climb.step]
  split
  · next even => simp [Function.update_apply,even]
  · next odd => simp [odd]

theorem climb_succ (filled : Nat → α) (index : Nat) (leaf : α) (levels : Nat) :
    climb hash zeros filled index leaf (levels + 1) =
      (climb hash zeros filled index leaf levels).step hash zeros levels := by
  rw [climb,climb,List.range_succ,List.foldl_append]
  rfl

@[simp] theorem climb_index (filled : Nat → α) (index : Nat) (leaf : α) (levels : Nat) :
    (climb hash zeros filled index leaf levels).index = index / 2 ^ levels := by
  induction levels with
  | zero => simp [climb]
  | succ levels ih => rw [climb_succ,step_index,ih,Nat.div_div_eq_div_mul,pow_succ]

/-- A climbed level stores the node if it was a left one; the others keep what they store. -/
theorem climb_filled (filled : Nat → α) (index : Nat) (leaf : α) (levels i : Nat) :
    (climb hash zeros filled index leaf levels).filled i =
      if i < levels ∧ index / 2 ^ i % 2 = 0 then (climb hash zeros filled index leaf i).node
      else filled i := by
  induction levels with
  | zero => simp [climb]
  | succ levels ih =>
    rw [climb_succ,step_filled,climb_index,ih]
    by_cases top : i = levels
    · subst top
      simp
    · have same : i < levels ↔ i < levels + 1 := by omega
      simp [top,same]

variable {levels : Nat} {leaves : List α} {filled : Nat → α}

/-- A climb that inserts a leaf passes through the roots of the segments that hold it. -/
theorem climb_node (stored : Filled hash zeros levels leaves filled) (leaf : α) {i : Nat}
    (below : i ≤ levels) : (climb hash zeros filled leaves.length leaf i).node =
      root hash zeros i (segment (leaves ++ [leaf]) i (leaves.length / 2 ^ i)) := by
  induction i with
  | zero => simp [climb,root,segment,List.take_of_length_le]
  | succ i ih =>
    have halved : leaves.length / 2 ^ (i + 1) = leaves.length / 2 ^ i / 2 := by
      rw [Nat.div_div_eq_div_mul,pow_succ]
    have holds : segment (leaves ++ [leaf]) (i + 1) (leaves.length / 2 ^ (i + 1)) ≠ [] := by
      have start : leaves.length / 2 ^ (i + 1) * 2 ^ (i + 1) ≤ leaves.length := Nat.div_mul_le_self ..
      apply segment_ne_nil
      simp only [List.length_append,List.length_singleton]
      omega
    rw [root_segment _ _ holds,climb_succ,step_node,climb_index,ih (by omega),climb_filled,halved]
    have stored := stored i below
    have start : leaves.length / 2 ^ i * 2 ^ i ≤ leaves.length := Nat.div_mul_le_self ..
    have end_ : leaves.length < (leaves.length / 2 ^ i + 1) * 2 ^ i := by
      rw [Nat.mul_comm]
      exact Nat.lt_mul_div_succ _ (Nat.two_pow_pos i)
    generalize leaves.length / 2 ^ i = j at *
    rcases Nat.mod_two_eq_zero_or_one j with even | odd
    · have past : segment (leaves ++ [leaf]) i (j + 1) = [] := by
        apply segment_nil
        simp only [List.length_append,List.length_singleton]
        omega
      have double : 2 * (j / 2) = j := by omega
      rw [if_pos even,double,past,root_nil]
    · have double : 2 * (j / 2) = j - 1 := by omega
      have next : j - 1 + 1 = j := by omega
      have complete : segment (leaves ++ [leaf]) i (j - 1) = segment leaves i (j - 1) :=
        segment_append (next.symm ▸ start) [leaf]
      rw [if_neg (by omega),if_neg (by omega),stored odd,double,next,complete]

/-- What is stored fits the leaves after an insertion. -/
theorem climb_stored (stored : Filled hash zeros levels leaves filled) (leaf : α) :
    Filled hash zeros levels (leaves ++ [leaf])
      (climb hash zeros filled leaves.length leaf levels).filled := by
  intro i below odd
  simp only [List.length_append,List.length_singleton] at odd ⊢
  rw [climb_filled]
  by_cases carried : leaves.length / 2 ^ i % 2 = 0
  · rw [if_pos ⟨below,carried⟩,climb_node stored leaf (by omega)]
    have next : (leaves.length + 1) / 2 ^ i = leaves.length / 2 ^ i + 1 := by
      rw [Nat.succ_div] at odd ⊢
      split at odd
      · next full => rw [if_pos full]
      · omega
    rw [next,Nat.add_sub_cancel]
  · have same : (leaves.length + 1) / 2 ^ i = leaves.length / 2 ^ i := by
      rw [Nat.succ_div] at odd ⊢
      split at odd
      · omega
      · next partly => rw [if_neg partly,Nat.add_zero]
    have start : leaves.length / 2 ^ i * 2 ^ i ≤ leaves.length := Nat.div_mul_le_self ..
    have next : leaves.length / 2 ^ i - 1 + 1 = leaves.length / 2 ^ i := by
      apply Nat.sub_add_cancel
      apply Nat.pos_of_ne_zero
      intro zero
      simp [zero] at carried
    rw [if_neg fun both => carried both.2,same,segment_append (next.symm ▸ start)]
    exact stored i below (Nat.mod_two_ne_zero.mp carried)

/-- An insertion that fits ends at the root of all the leaves. -/
theorem climb_root (stored : Filled hash zeros levels leaves filled) (leaf : α)
    (free : leaves.length < 2 ^ levels) :
    (climb hash zeros filled leaves.length leaf levels).node =
      root hash zeros levels (leaves ++ [leaf]) := by
  have single : (leaves ++ [leaf]).length ≤ 2 ^ levels := by
    rw [List.length_append]
    exact free
  rw [climb_node stored leaf (Nat.le_refl _),Nat.div_eq_of_lt free,segment_zero single]

/-! ### Paths -/

/-- The siblings of a node from the leaf up, each with whether the node is on its right. -/
abbrev Path (α : Type) := List (Bool × α)

variable (hash) (zeros)

/-- The pair that is hashed for the parent. -/
def join (step : Bool × α) (node : α) : α × α := if step.1 then (step.2, node) else (node, step.2)

def parent (node : α) (step : Bool × α) : α := hash (join step node).1 (join step node).2

def pathRoot (path : Path α) (leaf : α) : α := path.foldl (parent hash) leaf

def pathIndex : Path α → Nat
  | [] => 0
  | (right, _) :: rest => right.toNat + 2 * pathIndex rest

/-- The sibling of node `j` of level `i`. -/
def sibling (leaves : List α) (i j : Nat) : Bool × α :=
  if j % 2 = 1 then (true, root hash zeros i (segment leaves i (j - 1)))
  else (false, root hash zeros i (segment leaves i (j + 1)))

def pathTo (leaves : List α) (index levels : Nat) : Path α :=
  (List.range levels).map fun i => sibling hash zeros leaves i (index / 2 ^ i)

variable {hash} {zeros}

@[simp] theorem pathTo_length (leaves : List α) (index levels : Nat) :
    (pathTo hash zeros leaves index levels).length = levels := by
  simp [pathTo]

/-- The path to a leaf leads to the root. -/
theorem pathRoot_pathTo {leaves : List α} {index : Nat} {leaf : α} (at_ : leaves[index]? = some leaf)
    (levels : Nat) : pathRoot hash (pathTo hash zeros leaves index levels) leaf =
      root hash zeros levels (segment leaves levels (index / 2 ^ levels)) := by
  have inside := (List.getElem?_eq_some_iff.mp at_).1
  induction levels with
  | zero => simp [pathRoot,pathTo,root,segment,List.headD_eq_head?_getD,List.head?_take,at_]
  | succ levels ih =>
    have halved : index / 2 ^ (levels + 1) = index / 2 ^ levels / 2 := by
      rw [Nat.div_div_eq_div_mul,pow_succ]
    have start : index / 2 ^ (levels + 1) * 2 ^ (levels + 1) ≤ index := Nat.div_mul_le_self ..
    rw [root_segment _ _ (segment_ne_nil (Nat.lt_of_le_of_lt start inside)),halved,pathTo,
      List.range_succ,List.map_append,pathRoot,List.foldl_append]
    simp only [List.map_cons,List.map_nil,List.foldl_cons,List.foldl_nil]
    rw [pathRoot,pathTo] at ih
    rw [ih,parent,join,sibling]
    generalize index / 2 ^ levels = j
    rcases Nat.mod_two_eq_zero_or_one j with even | odd
    · have double : 2 * (j / 2) = j := by omega
      simp [even,double]
    · have double : 2 * (j / 2) = j - 1 := by omega
      have next : j - 1 + 1 = j := by omega
      simp [odd,double,next]

/-! ### Binding -/

variable (hash) (zeros)

def pathPairs : Path α → α → List (α × α)
  | [], _ => []
  | step :: rest, node => join step node :: pathPairs rest (parent hash node step)

/-- The pairs that are hashed for a root. -/
def rootPairs : Nat → List α → List (α × α)
  | 0, _ => []
  | l + 1, leaves =>
    if leaves.isEmpty then []
    else (root hash zeros l (leaves.take (2 ^ l)), root hash zeros l (leaves.drop (2 ^ l))) ::
      (rootPairs l (leaves.take (2 ^ l)) ++ rootPairs l (leaves.drop (2 ^ l)))

def zeroPairs (levels : Nat) : List (α × α) := (List.range levels).map fun i => (zeros i, zeros i)

/-- Each zero is the parent of two of the level below. -/
def Chained (levels : Nat) : Prop := ∀ i < levels, zeros (i + 1) = hash (zeros i) (zeros i)

/-- No two of these pairs share a hash, and none hashes to the zero leaf. -/
structure Binding (pairs : List (α × α)) : Prop where
  injective : ∀ p ∈ pairs, ∀ q ∈ pairs, hash p.1 p.2 = hash q.1 q.2 → p = q
  apart : ∀ p ∈ pairs, hash p.1 p.2 ≠ zeros 0

theorem binding_iff [DecidableEq α] {pairs : List (α × α)} :
    (pairs.all fun p => (pairs.all fun q => hash p.1 p.2 ≠ hash q.1 q.2 || p = q) &&
      hash p.1 p.2 ≠ zeros 0) = true ↔ Binding hash zeros pairs := by
  simp only [List.all_eq_true,Bool.and_eq_true,Bool.or_eq_true,decide_eq_true_eq]
  constructor
  · intro apart
    exact ⟨fun p left q right same => ((apart p left).1 q right).resolve_left (not_not.mpr same),
      fun p member => (apart p member).2⟩
  · intro binding p left
    exact ⟨fun q right => not_or_of_imp (binding.injective p left q right),binding.apart p left⟩

instance [DecidableEq α] (pairs : List (α × α)) : Decidable (Binding hash zeros pairs) :=
  decidable_of_iff _ (binding_iff hash zeros)

variable {hash} {zeros}

theorem pathRoot_concat (path : Path α) (step : Bool × α) (leaf : α) :
    pathRoot hash (path ++ [step]) leaf = parent hash (pathRoot hash path leaf) step := by
  simp [pathRoot]

theorem pathPairs_concat (path : Path α) (step : Bool × α) (leaf : α) :
    pathPairs hash (path ++ [step]) leaf =
      pathPairs hash path leaf ++ [join step (pathRoot hash path leaf)] := by
  induction path generalizing leaf with
  | nil => rfl
  | cons first rest ih => exact congrArg (_ :: ·) (ih _)

theorem pathIndex_concat (path : Path α) (step : Bool × α) :
    pathIndex (path ++ [step]) = pathIndex path + step.1.toNat * 2 ^ path.length := by
  induction path with
  | nil => simp [pathIndex]
  | cons first rest ih =>
    simp only [List.cons_append,pathIndex,ih,List.length_cons,pow_succ]
    ring

theorem pathIndex_lt (path : Path α) : pathIndex path < 2 ^ path.length := by
  induction path with
  | nil => simp [pathIndex]
  | cons first rest ih =>
    have bit := Bool.toNat_lt first.1
    simp only [pathIndex,List.length_cons,pow_succ]
    omega

theorem Binding.subset {few many : List (α × α)} (binding : Binding hash zeros many)
    (sub : few ⊆ many) : Binding hash zeros few where
  injective p hp q hq := binding.injective p (sub hp) q (sub hq)
  apart p hp := binding.apart p (sub hp)

theorem mem_zeroPairs {levels i : Nat} (below : i < levels) : (zeros i, zeros i) ∈ zeroPairs zeros levels :=
  List.mem_map_of_mem (List.mem_range.mpr below)

variable {pairs : List (α × α)}

/-- A root is the parent of the roots of its halves, which are among the pairs. -/
theorem root_halves (chained : Chained hash zeros levels) {l : Nat} (below : l < levels)
    (zero : zeroPairs zeros levels ⊆ pairs) (own : rootPairs hash zeros (l + 1) leaves ⊆ pairs) :
    root hash zeros (l + 1) leaves = hash (root hash zeros l (leaves.take (2 ^ l)))
      (root hash zeros l (leaves.drop (2 ^ l))) ∧
    (root hash zeros l (leaves.take (2 ^ l)),root hash zeros l (leaves.drop (2 ^ l))) ∈ pairs ∧
    rootPairs hash zeros l (leaves.take (2 ^ l)) ⊆ pairs ∧
    rootPairs hash zeros l (leaves.drop (2 ^ l)) ⊆ pairs := by
  cases leaves with
  | nil =>
    have none : rootPairs hash zeros l [] = [] := by cases l <;> rfl
    simp only [List.take_nil,List.drop_nil,root_nil,none]
    exact ⟨chained l below,zero (mem_zeroPairs below),List.nil_subset _,List.nil_subset _⟩
  | cons leaf rest =>
    rw [rootPairs,if_neg (by simp),List.cons_subset,List.append_subset] at own
    exact ⟨rfl,own⟩

/-- A path to a root starts at the leaf it says, or past the leaves at the zero leaf. -/
theorem path_binds (binding : Binding hash zeros pairs) (chained : Chained hash zeros levels)
    (zero : zeroPairs zeros levels ⊆ pairs) {path : Path α} {leaf : α}
    (short : path.length ≤ levels) (steps : pathPairs hash path leaf ⊆ pairs)
    (own : rootPairs hash zeros path.length leaves ⊆ pairs)
    (same : pathRoot hash path leaf = root hash zeros path.length leaves) :
    leaves[pathIndex path]?.getD (zeros 0) = leaf := by
  induction path using List.reverseRecOn generalizing leaves with
  | nil =>
    simp only [pathRoot,List.foldl_nil,List.length_nil,root,List.headD_eq_head?_getD] at same
    rw [pathIndex,← List.head?_eq_getElem?,same]
  | append_singleton path step ih =>
    rw [List.length_append,List.length_singleton] at short own same
    rw [pathPairs_concat,List.append_subset] at steps
    rw [pathRoot_concat] at same
    obtain ⟨halves,pair,left,right⟩ := root_halves chained short zero own
    have joined := binding.injective _ (steps.2 (List.mem_singleton_self _)) _ pair (same.trans halves)
    have inside := pathIndex_lt path
    rw [pathIndex_concat]
    obtain ⟨on_right,other⟩ := step
    cases on_right with
    | false =>
      have half := ih (by omega) steps.1 left (congrArg Prod.fst joined)
      rw [List.getElem?_take_of_lt inside] at half
      simpa using half
    | true =>
      have half := ih (by omega) steps.1 right (congrArg Prod.snd joined)
      rw [List.getElem?_drop] at half
      simpa [Nat.add_comm] using half

/-- No tree is the empty one of the level below. -/
theorem root_ne_zero (binding : Binding hash zeros pairs) (chained : Chained hash zeros levels)
    (zero : zeroPairs zeros levels ⊆ pairs) {l : Nat} (below : l < levels)
    (own : rootPairs hash zeros (l + 1) leaves ⊆ pairs) :
    root hash zeros (l + 1) leaves ≠ zeros l := by
  induction l generalizing leaves with
  | zero =>
    obtain ⟨halves,pair,_⟩ := root_halves chained below zero own
    rw [halves]
    exact binding.apart _ pair
  | succ l ih =>
    obtain ⟨halves,pair,left,_⟩ := root_halves chained below zero own
    rw [halves,chained l (by omega)]
    intro same
    have joined := binding.injective _ pair _ (zero (mem_zeroPairs (by omega : l < levels))) same
    exact ih (by omega) left (congrArg Prod.fst joined)

/-- No path that long leads to the empty tree of the level below. -/
theorem path_ne_zero (binding : Binding hash zeros pairs) (chained : Chained hash zeros levels)
    (zero : zeroPairs zeros levels ⊆ pairs) {path : Path α} {leaf : α} {l : Nat}
    (long : path.length = l + 1) (below : l < levels) (steps : pathPairs hash path leaf ⊆ pairs) :
    pathRoot hash path leaf ≠ zeros l := by
  cases path with
  | nil => contradiction
  | cons step rest =>
    intro same
    obtain rfl : rest.length = l := Nat.succ.inj long
    rw [pathPairs,List.cons_subset] at steps
    have none : rootPairs hash zeros rest.length [] = [] := by
      cases rest.length <;> rfl
    have start : ([] : List α)[pathIndex rest]?.getD (zeros 0) = parent hash leaf step :=
      path_binds binding chained zero below.le steps.2 (none ▸ List.nil_subset _)
        (same.trans (root_nil ..).symm)
    exact binding.apart _ steps.1 start.symm

/-- Trees with the same root have the same leaves, up to zero leaves. -/
theorem root_binds (binding : Binding hash zeros pairs) (chained : Chained hash zeros levels)
    (zero : zeroPairs zeros levels ⊆ pairs) {l : Nat} (below : l ≤ levels) {others : List α}
    (own : rootPairs hash zeros l leaves ⊆ pairs) (other : rootPairs hash zeros l others ⊆ pairs)
    (same : root hash zeros l leaves = root hash zeros l others) {i : Nat} (inside : i < 2 ^ l) :
    leaves[i]?.getD (zeros 0) = others[i]?.getD (zeros 0) := by
  induction l generalizing leaves others i with
  | zero =>
    obtain rfl : i = 0 := by omega
    simpa [root,List.headD_eq_head?_getD,List.head?_eq_getElem?] using same
  | succ l ih =>
    obtain ⟨halves,pair,left,right⟩ := root_halves chained below zero own
    obtain ⟨halves',pair',left',right'⟩ := root_halves chained below zero other
    rw [halves,halves'] at same
    have joined := binding.injective _ pair _ pair' same
    by_cases earlier : i < 2 ^ l
    · have half := ih (by omega) left left' (congrArg Prod.fst joined) earlier
      rwa [List.getElem?_take_of_lt earlier,List.getElem?_take_of_lt earlier] at half
    · rw [pow_succ] at inside
      have half := ih (by omega) right right' (congrArg Prod.snd joined) (i := i - 2 ^ l) (by omega)
      rw [List.getElem?_drop,List.getElem?_drop] at half
      rwa [Nat.add_sub_cancel' (Nat.le_of_not_lt earlier)] at half

/-- Without zero leaves, a root has one list of leaves. -/
theorem root_injective (binding : Binding hash zeros pairs) (chained : Chained hash zeros levels)
    (zero : zeroPairs zeros levels ⊆ pairs) {others : List α}
    (own : rootPairs hash zeros levels leaves ⊆ pairs)
    (other : rootPairs hash zeros levels others ⊆ pairs)
    (fits : leaves.length ≤ 2 ^ levels) (fits' : others.length ≤ 2 ^ levels)
    (some : zeros 0 ∉ leaves) (some' : zeros 0 ∉ others)
    (same : root hash zeros levels leaves = root hash zeros levels others) : leaves = others := by
  have present {xs : List α} {i : Nat} (real : zeros 0 ∉ xs) : xs[i]?.getD (zeros 0) = zeros 0 ↔
      xs.length ≤ i := by
    constructor
    · intro none
      by_contra inside
      rw [List.getElem?_eq_getElem (Nat.lt_of_not_le inside),Option.getD_some] at none
      exact real (none ▸ List.getElem_mem _)
    · intro past
      simp [past]
  have agree {i : Nat} (inside : i < 2 ^ levels) :=
    root_binds binding chained zero (Nat.le_refl _) own other same inside
  have length : leaves.length = others.length := by
    apply Nat.le_antisymm
    · by_contra longer
      have end_ := agree (i := others.length) (by omega)
      rw [(present some').mpr (Nat.le_refl _),present some] at end_
      omega
    · by_contra longer
      have end_ := agree (i := leaves.length) (by omega)
      rw [(present some).mpr (Nat.le_refl _),eq_comm,present some'] at end_
      omega
  apply List.ext_getElem length
  intro i left right
  simpa [left,right] using agree (Nat.lt_of_lt_of_le left fits)

end MerkleTree
