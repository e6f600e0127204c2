import TornadoRelayer.Merkle
import Mathlib.Data.List.TakeWhile

/-! The deposits of an instance and a cache of their leaves. A cache fits the history when it has
every leaf deposited up to its last block; scanning on keeps the fit, and so does cutting back to
a block that is not between a leaf's own and a later one it is dated with. -/
namespace TornadoRelayer.Merkle

open BigEndian

/-! ### Histories -/

structure Deposit where
  commitment : Nat
  block : Int
  deriving DecidableEq

/-- Every deposit an instance gets, in the order of its leaves. -/
structure History where
  instanceAddress : Address
  chainId : Nat
  deposits : List Deposit
  ordered : deposits.Pairwise fun d d' => d.block ≤ d'.block

namespace History

variable (h : History)

def upTo (b : Int) : List Deposit := h.deposits.filter (·.block ≤ b)

def leaves (b : Int) : List Nat := (h.upTo b).map Deposit.commitment

def log : List LeafEvent := h.deposits.zipIdx.map fun (d, i) => ⟨i, d.commitment, d.block⟩

/-- The log source answers a request with all there is, in any order, or fails. -/
def Complete (getLogs : Int × Int → Except Thrown (List LeafEvent)) : Prop :=
  ∀ r logs, getLogs r = .ok logs →
    logs.Perm (h.log.filter fun e => r.1 ≤ e.block ∧ e.block ≤ r.2)

/-- A tornado-cli file with every deposit up to some block. -/
def Seeded (deposits : List TornadoCliDeposit) : Prop :=
  ∃ b, 0 ≤ b ∧ (deposits.map fun d => ⟨d.leafIndex, d.commitment, d.blockNumber⟩).Perm
    (h.log.filter (·.block ≤ b))

/-- Every leaf up to the last block, each dated with its own block or a later one. -/
structure Fits (cache : LeafCache) : Prop where
  leaves : cache.leaves = h.leaves cache.lastBlock
  blocks : ∀ blocks, cache.leafBlocks = some blocks → List.Forall₂
    (fun d b => d.block ≤ b ∧ b ≤ cache.lastBlock) (h.upTo cache.lastBlock) blocks

/-- No leaf deposited up to this block is dated after it. -/
def Dated (cache : LeafCache) (head : Int) : Prop :=
  ∀ blocks, cache.leafBlocks = some blocks →
    ∀ e ∈ (h.upTo cache.lastBlock).zip blocks, e.1.block ≤ head → e.2 ≤ head

end History

/-! ### Ordered lists -/

theorem filter_ordered {f : α → Int} {l : List α} (ordered : l.Pairwise fun a b => f a ≤ f b)
    (b : Int) : l.filter (f · ≤ b) = l.takeWhile (f · ≤ b) := by
  induction l with
  | nil => rfl
  | cons a l ih =>
    rcases List.pairwise_cons.mp ordered with ⟨first,rest⟩
    by_cases early : f a ≤ b
    · simp [early,ih rest]
    · have none : l.filter (f · ≤ b) = [] := by
        simp only [List.filter_eq_nil_iff,decide_eq_true_iff]
        intro x member
        have later := first x member
        omega
      simp [early,none]

/-- What is up to `b` is what is up to `a`, and then the rest. -/
theorem filter_split {f : α → Int} {l : List α} (ordered : l.Pairwise fun a b => f a ≤ f b)
    {a b : Int} (later : a ≤ b) : l.filter (f · ≤ b) =
      l.filter (f · ≤ a) ++ l.filter fun x => a < f x ∧ f x ≤ b := by
  induction l with
  | nil => rfl
  | cons x l ih =>
    rcases List.pairwise_cons.mp ordered with ⟨first,rest⟩
    by_cases early : f x ≤ a
    · have inside : f x ≤ b := early.trans later
      simp [early,inside,ih rest]
    · have none : l.filter (f · ≤ a) = [] := by
        simp only [List.filter_eq_nil_iff,decide_eq_true_iff]
        intro y member
        have later := first y member
        omega
      have tail := ih rest
      rw [none,List.nil_append] at tail
      have after : a < f x := by omega
      by_cases inside : f x ≤ b <;> simp [early,inside,after,none,tail]

/-- Consecutive ranges collect what lies between their ends. -/
theorem tiles_perm {f : α → Int} {last head : Int} {rs : List (Int × Int)}
    (tiles : Tiles last head rs) (l : List α) :
    (rs.flatMap fun r => l.filter fun x => r.1 ≤ f x ∧ f x ≤ r.2).Perm
      (l.filter fun x => last < f x ∧ f x ≤ head) := by
  induction rs generalizing last with
  | nil =>
    have none : l.filter (fun x => last < f x ∧ f x ≤ head) = [] := by
      simp only [List.filter_eq_nil_iff,decide_eq_true_iff]
      simp only [Tiles] at tiles
      intro x _
      omega
    rw [none]
    rfl
  | cons r rest ih =>
    rcases tiles with ⟨start,some,inside,later⟩
    have split := List.filter_append_perm (fun x => decide (f x ≤ r.2))
      (l.filter fun x => last < f x ∧ f x ≤ head)
    simp only [List.filter_filter] at split
    refine .trans ?_ split
    rw [List.flatMap_cons]
    apply List.Perm.append
    · apply List.Perm.of_eq
      apply List.filter_congr
      intro x _
      rw [← Bool.decide_and,decide_eq_decide]
      omega
    · apply (ih later).trans
      apply List.Perm.of_eq
      apply List.filter_congr
      intro x _
      rw [← decide_not,← Bool.decide_and,decide_eq_decide]
      omega

/-! ### The log -/

namespace History

variable {h : History} {last head : Int}

theorem log_deposits : (h.log.map fun e => (⟨e.commitment, e.block⟩ : Deposit)) = h.deposits := by
  rw [log,List.map_map]
  exact List.zipIdx_map_fst 0 h.deposits

theorem log_ordered : h.log.Pairwise fun e e' => e.block ≤ e'.block := by
  have ordered := h.ordered
  rw [← log_deposits,List.pairwise_map] at ordered
  exact ordered

theorem log_leafIndex : h.log.map LeafEvent.leafIndex = List.range h.deposits.length := by
  rw [log,List.map_map,List.range_eq_range']
  exact List.zipIdx_map_snd 0 h.deposits

theorem log_upTo (b : Int) : ((h.log.filter (·.block ≤ b)).map fun e =>
    (⟨e.commitment, e.block⟩ : Deposit)) = h.upTo b := by
  have kept := List.filter_map (p := fun d => decide (d.block ≤ b))
    (f := fun (e : LeafEvent) => (⟨e.commitment, e.block⟩ : Deposit)) (l := h.log)
  rw [log_deposits] at kept
  exact kept.symm

/-- The leaves up to a block are numbered from zero. -/
theorem log_numbered (b : Int) : (h.log.filter (·.block ≤ b)).map LeafEvent.leafIndex =
    List.range (h.upTo b).length := by
  have length : (h.upTo b).length = (h.log.filter (·.block ≤ b)).length := by
    rw [← log_upTo,List.length_map]
  rw [length,filter_ordered log_ordered]
  have first := List.takeWhile_prefix (l := h.log) (fun e => decide (e.block ≤ b))
  have start := first.map LeafEvent.leafIndex
  rw [log_leafIndex,List.prefix_iff_eq_take,List.length_map] at start
  rw [start,List.take_range,Nat.min_eq_left]
  have short := first.length_le
  have whole := congrArg List.length (log_deposits (h := h))
  simp only [List.length_map] at whole
  omega

/-- What a scan past `last` finds: the leaves that are next. -/
def found (h : History) (last head : Int) : List LeafEvent :=
  h.log.filter fun e => last < e.block ∧ e.block ≤ head

theorem upTo_found (later : last ≤ head) : h.upTo head =
    h.upTo last ++ (h.found last head).map fun e => ⟨e.commitment, e.block⟩ := by
  rw [← log_upTo,← log_upTo,filter_split log_ordered later,List.map_append]
  rfl

theorem found_numbered (later : last ≤ head) : (h.found last head).map LeafEvent.leafIndex =
    List.range' (h.upTo last).length (h.found last head).length := by
  have all := log_numbered (h := h) head
  have length := congrArg List.length (upTo_found (h := h) later)
  rw [List.length_append,List.length_map] at length
  rw [filter_split log_ordered later,List.map_append,log_numbered,length,List.range_add] at all
  rw [List.range'_eq_map_range]
  exact List.append_cancel_left all

/-- Sorting puts what was found in the order of the log. -/
theorem found_sorted {events : List LeafEvent} (perm : events.Perm (h.log.filter p)) :
    (events.insertionSort fun a b => a.leafIndex ≤ b.leafIndex) = h.log.filter p := by
  have total : Std.Total fun (a b : LeafEvent) => a.leafIndex ≤ b.leafIndex :=
    ⟨fun a b => le_total a.leafIndex b.leafIndex⟩
  have trans : IsTrans LeafEvent fun a b => a.leafIndex ≤ b.leafIndex := ⟨fun _ _ _ => le_trans⟩
  have numbered : (h.log.map LeafEvent.leafIndex).Nodup := log_leafIndex ▸ List.nodup_range
  have rising : h.log.Pairwise fun a b => a.leafIndex ≤ b.leafIndex := by
    rw [← List.pairwise_map (f := LeafEvent.leafIndex) (R := (· ≤ ·)),log_leafIndex]
    exact List.pairwise_le_range
  apply List.Perm.eq_of_pairwise ?_ (List.pairwise_insertionSort _ events) (rising.filter p)
    ((List.perm_insertionSort _ events).trans perm)
  intro a b left right less more
  have inside {x : LeafEvent} (member : x ∈ h.log.filter p) : x ∈ h.log :=
    List.mem_of_mem_filter member
  rw [List.mem_insertionSort,perm.mem_iff] at left
  exact List.inj_on_of_nodup_map numbered (inside left) (inside right) (le_antisymm less more)

end History

/-! ### What a run adds -/

/-- Leaves that are next are all added. -/
theorem addLeaf_all {events : List LeafEvent} {leaves : List Nat} {leafBlocks : List Int}
    (next : events.map LeafEvent.leafIndex = List.range' leaves.length events.length) :
    events.foldlM addLeaf (leaves,leafBlocks) = .ok (leaves ++ events.map LeafEvent.commitment,
      leafBlocks ++ events.map LeafEvent.block) := by
  induction events generalizing leaves leafBlocks with
  | nil => simp [pure,Except.pure]
  | cons e events ih =>
    simp only [List.map_cons,List.length_cons,List.range'_succ,List.cons.injEq] at next
    have added : addLeaf (leaves,leafBlocks) e =
        .ok (leaves ++ [e.commitment],leafBlocks ++ [e.block]) := by
      simp [addLeaf,next.1]
    rw [List.foldlM_cons,added]
    have rest := @ih (leaves ++ [e.commitment]) (leafBlocks ++ [e.block])
      (by rw [List.length_append]; exact next.2)
    simp only [List.append_assoc] at rest
    exact rest

variable {h : History} {cache next : LeafCache} {head : Int}

theorem leaves_length (fits : h.Fits cache) : cache.leaves.length = (h.upTo cache.lastBlock).length := by
  rw [fits.leaves,History.leaves,List.length_map]

/-- The blocks of the cache, filled in where it has none. -/
theorem filled_blocks (fits : h.Fits cache) : List.Forall₂
    (fun d b => d.block ≤ b ∧ b ≤ cache.lastBlock) (h.upTo cache.lastBlock)
    (cache.leafBlocks.getD (cache.leaves.map fun _ => cache.lastBlock)) := by
  cases known : cache.leafBlocks with
  | some blocks => exact fits.blocks blocks known
  | none =>
    rw [Option.getD_none,fits.leaves,History.leaves,List.map_map,List.forall₂_map_right_iff,
      List.forall₂_same]
    intro d member
    have early := (List.mem_filter.mp member).2
    rw [decide_eq_true_iff] at early
    exact ⟨early,le_rfl⟩

/-- A scan of everything after the cache's last block brings the cache up to `head`. -/
theorem addLeaves_fits (fits : h.Fits cache) (later : cache.lastBlock ≤ head)
    {events : List LeafEvent} (perm : events.Perm (h.found cache.lastBlock head))
    (added : addLeaves cache head events = .ok next) :
    h.Fits next ∧ next.lastBlock = head ∧ next.instanceAddress = cache.instanceAddress ∧
      next.chainId = cache.chainId := by
  have numbered := History.found_numbered (h := h) later
  rw [← leaves_length fits] at numbered
  rw [addLeaves,History.found_sorted perm] at added
  simp only at added
  rw [show (h.log.filter fun e => decide (cache.lastBlock < e.block ∧ e.block ≤ head)) =
    h.found cache.lastBlock head from rfl,addLeaf_all numbered] at added
  cases added
  have whole := History.upTo_found (h := h) later
  refine ⟨⟨?_,?_⟩,rfl,rfl,rfl⟩
  · simp only [History.leaves,whole,List.map_append,List.map_map,fits.leaves]
    rfl
  · rintro blocks known
    cases known
    simp only [whole]
    apply List.rel_append
    · apply (filled_blocks fits).imp
      rintro d b ⟨own,early⟩
      exact ⟨own,early.trans later⟩
    · rw [List.forall₂_map_left_iff,List.forall₂_map_right_iff,List.forall₂_same]
      intro e member
      have inside := (List.mem_filter.mp member).2
      rw [decide_eq_true_iff] at inside
      exact ⟨le_rfl,inside.2⟩

/-! ### Cutting back -/

theorem takeWhile_length {p : α → Bool} {q : β → Bool} {as : List α} {bs : List β}
    (pairs : List.Forall₂ (fun a b => p a = q b) as bs) :
    (bs.takeWhile q).length = (as.takeWhile p).length := by
  induction pairs with
  | nil => rfl
  | @cons a b as bs same _ ih =>
    cases holds : q b <;> simp [same.trans holds,holds,ih]

theorem countP_le {p : α → Bool} {q : β → Bool} {as : List α} {bs : List β}
    (pairs : List.Forall₂ (fun a b => q b = true → p a = true) as bs) :
    bs.countP q ≤ as.countP p := by
  induction pairs with
  | nil => rfl
  | @cons a b as bs implies _ ih =>
    cases holds : q b
    · simp [List.countP_cons,holds]
      omega
    · simp [holds,implies holds]
      omega

theorem countP_lt {p : α → Bool} {q : β → Bool} {as : List α} {bs : List β}
    (pairs : List.Forall₂ (fun a b => q b = true → p a = true) as bs) {e : α × β}
    (member : e ∈ as.zip bs) (left : p e.1 = true) (right : q e.2 = false) :
    bs.countP q < as.countP p := by
  induction pairs with
  | nil => simp at member
  | @cons a b as bs implies rest ih =>
    rcases List.mem_cons.mp member with rfl | later
    · have less := countP_le rest
      simp only at left right
      simp [left,right]
      omega
    · have less := ih later
      cases holds : q b
      · simp [List.countP_cons,holds]
        omega
      · simp [holds,implies holds]
        omega

theorem upTo_ordered (b : Int) : (h.upTo b).Pairwise fun d d' => d.block ≤ d'.block :=
  h.ordered.filter _

theorem upTo_earlier {last : Int} (earlier : head ≤ last) :
    h.upTo head = (h.upTo last).takeWhile (·.block ≤ head) := by
  rw [← filter_ordered (upTo_ordered last),History.upTo,History.upTo,List.filter_filter]
  apply List.filter_congr
  intro d _
  rw [← Bool.decide_and,decide_eq_decide]
  omega

/-- A cut at a block that no leaf is dated over keeps the fit. -/
theorem cut_fits (fits : h.Fits cache) (earlier : head < cache.lastBlock) {blocks : List Int}
    (known : cache.leafBlocks = some blocks) (dated : h.Dated cache head) :
    h.Fits { cache with
      leaves := cache.leaves.take (blocks.takeWhile (· ≤ head)).length
      leafBlocks := some (blocks.take (blocks.takeWhile (· ≤ head)).length)
      lastBlock := head } := by
  have pairs := fits.blocks blocks known
  have same : List.Forall₂ (fun (d : Deposit) (b : Int) => decide (d.block ≤ head) = decide (b ≤ head))
      (h.upTo cache.lastBlock) blocks := by
    rw [List.forall₂_iff_zip] at pairs ⊢
    refine ⟨pairs.1,fun {d b} member => ?_⟩
    have own := (pairs.2 member).1
    have before := dated blocks known (d,b) member
    simp only at before
    rw [decide_eq_decide]
    omega
  have length := takeWhile_length same
  have cut : (h.upTo cache.lastBlock).take (blocks.takeWhile (· ≤ head)).length = h.upTo head := by
    rw [length,upTo_earlier earlier.le]
    exact (List.prefix_iff_eq_take.mp (List.takeWhile_prefix _)).symm
  have kept : blocks.take (blocks.takeWhile (· ≤ head)).length = blocks.takeWhile (· ≤ head) :=
    (List.prefix_iff_eq_take.mp (List.takeWhile_prefix _)).symm
  refine ⟨?_,?_⟩
  · simp only [fits.leaves,History.leaves]
    rw [← List.map_take,cut]
  · intro _ same
    cases same
    have first := List.forall₂_take (blocks.takeWhile (· ≤ head)).length pairs
    simp only [cut] at first ⊢
    rw [List.forall₂_iff_zip] at first ⊢
    refine ⟨first.1,fun {d b} member => ⟨(first.2 member).1,?_⟩⟩
    have inside := (List.of_mem_zip member).2
    rw [kept] at inside
    simpa using List.mem_takeWhile_imp inside

/-- A cut over which a leaf is dated loses it. -/
theorem cut_loses (fits : h.Fits cache) (earlier : head < cache.lastBlock) {blocks : List Int}
    (known : cache.leafBlocks = some blocks) (undated : ¬h.Dated cache head) :
    cache.leaves.take (blocks.takeWhile (· ≤ head)).length ≠ h.leaves head := by
  intro same
  have pairs := fits.blocks blocks known
  simp only [History.Dated,known,Option.some.injEq,forall_eq',not_forall] at undated
  obtain ⟨e,member,own,late⟩ := undated
  have less := countP_lt (p := fun (d : Deposit) => decide (d.block ≤ head))
    (q := fun (b : Int) => decide (b ≤ head)) (pairs.imp fun {d b} both early => by
      simp only [decide_eq_true_iff] at early ⊢
      omega) member (decide_eq_true own) (decide_eq_false late)
  have keep : (blocks.takeWhile (· ≤ head)).length ≤ blocks.countP (· ≤ head) := by
    have all := List.countP_eq_length.mpr fun b inside =>
      List.mem_takeWhile_imp (p := fun (b : Int) => decide (b ≤ head)) (l := blocks) inside
    rw [← all]
    exact (List.takeWhile_sublist _).countP_le
  have count : (h.leaves head).length = (h.upTo cache.lastBlock).countP (·.block ≤ head) := by
    rw [History.leaves,List.length_map,upTo_earlier earlier.le,← filter_ordered (upTo_ordered _),
      List.countP_eq_length_filter]
  have length := congrArg List.length same
  rw [List.length_take,count] at length
  omega

/-- After a rewind the cache fits unless a leaf was dated over the cut. -/
theorem rewind_ok (fits : h.Fits cache) (cut : rewind cache head = .ok next) :
    next.lastBlock ≤ head ∧ next.instanceAddress = cache.instanceAddress ∧
      next.chainId = cache.chainId ∧
      ((h.Dated cache head ∧ h.Fits next) ∨
        (¬h.Dated cache head ∧ next.lastBlock = head ∧ next.leaves ≠ h.leaves head)) := by
  rw [rewind] at cut
  split at cut
  · next ahead =>
    split at cut
    · contradiction
    · next blocks known =>
      cases cut
      refine ⟨le_rfl,rfl,rfl,?_⟩
      by_cases dated : h.Dated cache head
      · exact .inl ⟨dated,cut_fits fits ahead known dated⟩
      · exact .inr ⟨dated,rfl,cut_loses fits ahead known dated⟩
  · next within =>
    cases cut
    refine ⟨Int.not_lt.mp within,rfl,rfl,.inl ⟨?_,fits⟩⟩
    intro blocks known e member _
    have early := (List.forall₂_iff_zip.mp (fits.blocks blocks known)).2 member
    omega

end TornadoRelayer.Merkle
