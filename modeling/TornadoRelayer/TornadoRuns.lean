import TornadoRelayer.Tornado

/-! A pool over whole runs: its tree and its mappings follow what was inserted and spent, its
logs list it, and what it holds covers the deposits that are not spent. -/
namespace TornadoRelayer.Tornado

open BigEndian CallStack MerkleTreeWithHistory

/-! ### The invariant -/

def nullifierHashOf (spend : Bytes × Input) : Bytes32 := spend.2._nullifierHash

/-- The storage follows the commitments and the proofs taken so far. -/
structure Stored (d : Instance) (s : World) : Prop where
  tall : s.tree.levels = d.merkleTreeHeight.toNat
  tree : s.tree.Holds d.hasher s.leaves
  mirrored : ∀ c, s.commitments c = true ↔ c ∈ s.leaves
  distinct : s.leaves.Nodup
  inField : ∀ c ∈ s.leaves, c.toNat < FIELD_SIZE
  nullified : ∀ n, s.nullifierHashes n = true ↔ n ∈ s.spends.map nullifierHashOf
  once : (s.spends.map nullifierHashOf).Nodup
  verified : ∀ p ∈ s.spends, d.verifier.verifyProof p.1 p.2 = true
  rooted : ∀ p ∈ s.spends, p.2._root ∈ rootHistory d.hasher s.tree.levels s.leaves

/-- What a deposit or a withdrawal in progress has still to do: pay some of the pool's asset,
collect some, pass on ETH it was sent, and log what it did. -/
structure Phase where
  owed : Nat
  coming : Nat
  refund : Nat
  inserted : Option (Nat × Nat)
  spending : Option Input

def Phase.idle : Phase := ⟨0, 0, 0, none, none⟩

def Phase.collecting (d : Instance) (c : Bytes32) (index : Nat) : Phase :=
  ⟨0, d.denomination.toNat, 0, some (c.toNat, index), none⟩

def Phase.paying (input : Input) (owed refund : Nat) : Phase := ⟨owed, 0, refund, none, some input⟩

def Pending.phase (d : Instance) : Pending → Phase
  | .collecting c index => .collecting d c index
  | .payingRecipient input => .paying input input._fee.toNat 0
  | .payingRelayer input => .paying input 0 0
  | .sendingRecipient input => .paying input input._fee.toNat input._refund.toNat
  | .sendingRelayer input => .paying input 0 input._refund.toNat
  | .refundingRecipient input => .paying input 0 0
  | .refundingRelayer input => .paying input 0 0

/-- The pools that make the call. -/
def Pending.kind : Pending → Kind
  | .payingRecipient _ | .payingRelayer _ => .ETHTornado
  | _ => .ERC20Tornado

def World.held (d : Instance) (s : World) : Nat :=
  match d.kind with
  | .ETHTornado => s.balance
  | .ERC20Tornado => s.tokens

/-- Deposits that are not spent are held, and a pool of tokens keeps the ETH it had. -/
structure Funded (d : Instance) (floor : Nat) (p : Phase) (s : World) : Prop where
  backed : d.denomination.toNat * s.leaves.length + p.owed ≤
    s.held d + d.denomination.toNat * s.spends.length + p.coming
  kept : d.kind = .ERC20Tornado → floor + p.refund ≤ s.balance

/-- A leaf with its index. -/
def numbered (e : Merkle.LeafEvent) : Nat × Nat := (e.commitment, e.leafIndex)

/-- The logs list what was inserted and spent, except what is in progress. -/
structure Logged (p : Phase) (s : World) : Prop where
  deposited : s.deposited.map numbered ++ p.inserted.toList = (s.leaves.map BitVec.toNat).zipIdx
  withdrawn : s.withdrawn ++ p.spending.toList = s.spends.map Prod.snd
  ordered : s.deposited.Pairwise fun e e' => e.block ≤ e'.block
  mined : ∀ e ∈ s.deposited, e.block ≤ s.block

structure Body (d : Instance) (floor : Nat) (p : Phase) (s : World) : Prop where
  stored : Stored d s
  funded : Funded d floor p s
  logged : Logged p s

/-- While the others are in control, with at most one call of the pool pending. -/
inductive Sound (d : Instance) (floor : Nat) : List Pending → World → Prop where
  | rest {s : World} : s.entered = false → Body d floor .idle s → Sound d floor [] s
  | waiting {s : World} {k : Pending} : s.entered = true → k.kind = d.kind →
      Body d floor (k.phase d) s → Sound d floor [k] s

/-- The world to go on from when a recipient does not take its refund. -/
def Refused (d : Instance) (floor : Nat) (k : Pending) (ks : List Pending) (s : World) : Prop :=
  ∀ input, k = .refundingRecipient input → ks = [] ∧ s.entered = true ∧
    d.kind = .ERC20Tornado ∧ Body d floor (.paying input 0 input._refund.toNat) s

variable {d : Instance} {floor : Nat} {s : World} {p : Phase}

abbrev UpheldBy (d : Instance) (floor : Nat) (r : Outcome) : Prop :=
  Upholds (fun _ => Sound d floor) (fun _ => Refused d floor) 0 [] r

theorem Sound.stored {ks : List Pending} (sound : Sound d floor ks s) : Stored d s := by
  cases sound with
  | rest _ body => exact body.stored
  | waiting _ _ body => exact body.stored

theorem Sound.idle {ks : List Pending} (sound : Sound d floor ks s) (idle : ks = []) :
    s.entered = false ∧ Body d floor .idle s := by
  cases sound with
  | rest free body => exact ⟨free,body⟩
  | waiting => contradiction

/-! ### The parts of a call -/

theorem Logged.finishDeposit {c : Bytes32} {index : Nat} (logged : Logged (.collecting d c index) s) :
    Logged .idle { s with
      entered := false
      deposited := s.deposited ++ [⟨index, c.toNat, s.block⟩] } where
  deposited := by
    have listed := logged.deposited
    simp only [Phase.collecting,Option.toList_some] at listed
    simp [Phase.idle,← listed,numbered]
  withdrawn := logged.withdrawn
  ordered := by
    rw [List.pairwise_append]
    refine ⟨logged.ordered,List.pairwise_singleton _ _,fun e member e' last => ?_⟩
    rw [List.mem_singleton.mp last]
    exact logged.mined e member
  mined e member := by
    rcases List.mem_append.mp member with earlier | last
    · exact logged.mined e earlier
    · rw [List.mem_singleton.mp last]

theorem finishDeposit_upheld {c : Bytes32} {index : Nat} (stored : Stored d s)
    (funded : Funded d floor .idle s) (logged : Logged (.collecting d c index) s) :
    UpheldBy d floor (finishDeposit c index s) :=
  Sound.rest rfl ⟨{ stored with },{ funded with },logged.finishDeposit⟩

theorem finishWithdraw_upheld {input : Input} {refund : Nat}
    (body : Body d floor (.paying input 0 refund) s) :
    UpheldBy d floor (finishWithdraw input s) := by
  apply Sound.rest rfl
  have kept := body.funded.kept
  exact {
    stored := { body.stored with }
    funded := {
      backed := body.funded.backed
      kept := fun token => Nat.le_of_add_right_le (kept token) }
    logged := {
      deposited := body.logged.deposited
      withdrawn := (List.append_nil _).trans body.logged.withdrawn
      ordered := body.logged.ordered
      mined := body.logged.mined } }

/-- A pending call that can only be failed by reverting. -/
theorem refused_other {k : Pending} (other : ∀ input, k ≠ .refundingRecipient input) :
    Refused d floor k [] s := fun input same => absurd same (other input)

theorem payRelayer_upheld {input : Input} (native : d.kind = .ETHTornado) (entered : s.entered = true)
    (body : Body d floor (.paying input input._fee.toNat 0) s) :
    UpheldBy d floor (payRelayer input s) := by
  have backed := body.funded.backed
  simp only [World.held,native,Phase.paying] at backed
  rw [payRelayer]
  split
  · rw [send]
    split
    · next funds =>
      refine ⟨refused_other (by simp),.waiting entered native.symm ?_⟩
      exact {
        stored := { body.stored with }
        funded := {
          backed := by
            simp only [World.held,native,Pending.phase,Phase.paying]
            omega
          kept := by simp [native] }
        logged := { body.logged with } }
    · trivial
  · have paid : Body d floor (.paying input 0 0) s := {
      stored := body.stored
      funded := {
        backed := by
          simp only [World.held,native,Phase.paying]
          omega
        kept := by simp [native] }
      logged := { body.logged with } }
    exact finishWithdraw_upheld paid

theorem refundRelayer_upheld {input : Input} (token : d.kind = .ERC20Tornado)
    (entered : s.entered = true) (body : Body d floor (.paying input 0 input._refund.toNat) s) :
    UpheldBy d floor (refundRelayer input s) := by
  have kept := body.funded.kept token
  simp only [Phase.paying] at kept
  rw [refundRelayer,send]
  split
  · refine ⟨refused_other (by simp),.waiting entered token.symm ?_⟩
    exact {
      stored := { body.stored with }
      funded := {
        backed := by
          have backed := body.funded.backed
          simp only [World.held,token,Pending.phase,Phase.paying] at backed ⊢
          exact backed
        kept := fun _ => by
          simp only [Pending.phase,Phase.paying]
          omega }
      logged := { body.logged with } }
  · trivial

theorem refundRecipient_upheld {input : Input} (token : d.kind = .ERC20Tornado)
    (entered : s.entered = true) (body : Body d floor (.paying input 0 input._refund.toNat) s) :
    UpheldBy d floor (refundRecipient input s) := by
  have kept := body.funded.kept token
  simp only [Phase.paying] at kept
  rw [refundRecipient]
  split
  · rw [send]
    split
    · refine ⟨?_,.waiting entered token.symm ?_⟩
      · intro other same
        cases same
        exact ⟨rfl,entered,token,body⟩
      · exact {
          stored := { body.stored with }
          funded := {
            backed := by
              have backed := body.funded.backed
              simp only [World.held,token,Pending.phase,Phase.paying] at backed ⊢
              exact backed
            kept := fun _ => by
              simp only [Pending.phase,Phase.paying]
              omega }
          logged := { body.logged with } }
    · exact refundRelayer_upheld token entered body
  · exact finishWithdraw_upheld body

theorem sendRelayer_upheld {input : Input} (token : d.kind = .ERC20Tornado)
    (entered : s.entered = true)
    (body : Body d floor (.paying input input._fee.toNat input._refund.toNat) s) :
    UpheldBy d floor (sendRelayer input s) := by
  have backed := body.funded.backed
  simp only [World.held,token,Phase.paying] at backed
  rw [sendRelayer]
  split
  · rw [safeTransfer]
    split
    · refine ⟨refused_other (by simp),.waiting entered token.symm ?_⟩
      exact {
        stored := { body.stored with }
        funded := {
          backed := by
            simp only [World.held,token,Pending.phase,Phase.paying]
            omega
          kept := body.funded.kept }
        logged := { body.logged with } }
    · trivial
  · have paid : Body d floor (.paying input 0 input._refund.toNat) s := {
      stored := body.stored
      funded := {
        backed := by
          simp only [World.held,token,Phase.paying]
          omega
        kept := body.funded.kept }
      logged := { body.logged with } }
    exact refundRecipient_upheld token entered paid

/-! ### A deposit -/

theorem isKnownRoot_history {t : Tree} {leaves : List Bytes32} {hasher : IHasher} {r : Bytes32}
    (holds : t.Holds hasher leaves) (known : isKnownRoot t r = true) :
    r ∈ rootHistory hasher t.levels leaves :=
  List.mem_of_mem_drop ((isKnownRoot_iff_recent holds).mp known).2

theorem rootHistory_subset {hasher : IHasher} (levels : Nat) (leaves : List Bytes32) (leaf : Bytes32) :
    rootHistory hasher levels leaves ⊆ rootHistory hasher levels (leaves ++ [leaf]) := by
  rw [rootHistory_concat]
  exact List.subset_append_left _ _

theorem Stored.insert (stored : Stored d s) {c : Bytes32} {index : Nat} {tree : Tree}
    (fresh : ¬s.commitments c = true) (inserted : _insert d.hasher c s.tree = .ok (index,tree))
    (msgValue : Nat) : index = s.leaves.length ∧ Stored d (s.insert tree msgValue c) := by
  obtain ⟨free,fits,rfl,rfl⟩ := (insert_ok_iff stored.tree).mp inserted
  have new : c ∉ s.leaves := fun member => fresh ((stored.mirrored c).mpr member)
  refine ⟨rfl,?_⟩
  exact {
    tall := stored.tall
    tree := stored.tree.inserted free fits
    mirrored := fun c' => by
      simp only [World.insert,Function.update_apply,List.mem_append,List.mem_singleton]
      split
      · next same => simp [same]
      · next other => simp [other,stored.mirrored]
    distinct := by
      simp only [World.insert,List.nodup_append,List.mem_singleton]
      refine ⟨stored.distinct,List.nodup_singleton c,?_⟩
      rintro c' member last rfl rfl
      exact new member
    inField := fun c' member => by
      rcases List.mem_append.mp member with earlier | last
      · exact stored.inField c' earlier
      · rw [List.mem_singleton.mp last]
        exact fits
    nullified := stored.nullified
    once := stored.once
    verified := stored.verified
    rooted := fun p member => rootHistory_subset _ _ _ (stored.rooted p member) }

theorem Logged.insert (logged : Logged .idle s) (c : Bytes32) (tree : Tree) (msgValue : Nat) :
    Logged (.collecting d c s.leaves.length) (s.insert tree msgValue c) where
  deposited := by
    have listed := logged.deposited
    simp only [Phase.idle,Option.toList_none,List.append_nil] at listed
    simp [World.insert,Phase.collecting,List.zipIdx_append,listed]
  withdrawn := logged.withdrawn
  ordered := logged.ordered
  mined := logged.mined

theorem deposit_upheld (msgValue : Nat) (c : Bytes32) (rest : s.entered = false)
    (body : Body d floor .idle s) : UpheldBy d floor (deposit d msgValue c s) := by
  have backed := body.funded.backed
  simp only [Phase.idle] at backed
  rw [deposit,if_neg (by simp [rest])]
  split
  · trivial
  · next fresh =>
    split
    · trivial
    · next index tree inserted =>
      obtain ⟨rfl,stored⟩ := body.stored.insert fresh inserted msgValue
      have logged := body.logged.insert (d := d) c tree msgValue
      rw [_processDeposit]
      split
      · next native =>
        split
        · next paid =>
          apply finishDeposit_upheld stored _ logged
          refine ⟨?_,by simp [native]⟩
          simp only [World.held,native,Phase.idle,World.insert,List.length_append,
            List.length_singleton] at backed ⊢
          rw [paid,Nat.mul_succ]
          omega
        · trivial
      · next token =>
        split
        · refine ⟨refused_other (by simp),.waiting rfl token.symm ⟨stored,?_,logged⟩⟩
          refine ⟨?_,fun _ => ?_⟩
          · simp only [World.held,token,Pending.phase,Phase.collecting,World.insert,
              List.length_append,List.length_singleton] at backed ⊢
            rw [Nat.mul_succ]
            omega
          · have kept := body.funded.kept token
            simp only [Phase.idle,Pending.phase,Phase.collecting,World.insert] at kept ⊢
            omega
        · trivial

/-! ### A withdrawal -/

theorem Stored.spend (stored : Stored d s) {proof : Bytes} {input : Input}
    (unspent : ¬s.nullifierHashes input._nullifierHash = true)
    (known : isKnownRoot s.tree input._root = true)
    (verified : d.verifier.verifyProof proof input = true) (msgValue : Nat) :
    Stored d (s.spend msgValue proof input) where
  tall := stored.tall
  tree := stored.tree
  mirrored := stored.mirrored
  distinct := stored.distinct
  inField := stored.inField
  nullified n := by
    simp only [World.spend,Function.update_apply,List.map_append,List.mem_append,List.map_cons,
      List.map_nil,List.mem_singleton,nullifierHashOf]
    split
    · next same => simp [same]
    · next other => simpa [other,nullifierHashOf] using stored.nullified n
  once := by
    have new : input._nullifierHash ∉ s.spends.map nullifierHashOf :=
      fun member => unspent ((stored.nullified _).mpr member)
    simp only [World.spend,List.map_append,List.map_cons,List.map_nil,List.nodup_append,
      List.mem_singleton]
    refine ⟨stored.once,List.nodup_singleton _,?_⟩
    rintro n member _ rfl rfl
    exact new member
  verified p member := by
    rcases List.mem_append.mp member with earlier | last
    · exact stored.verified p earlier
    · rw [List.mem_singleton.mp last]
      exact verified
  rooted p member := by
    rcases List.mem_append.mp member with earlier | last
    · exact stored.rooted p earlier
    · rw [List.mem_singleton.mp last]
      exact isKnownRoot_history stored.tree known

theorem Logged.spend (logged : Logged .idle s) (msgValue : Nat) (proof : Bytes) (input : Input)
    (owed refund : Nat) : Logged (.paying input owed refund) (s.spend msgValue proof input) where
  deposited := logged.deposited
  withdrawn := by
    have listed := logged.withdrawn
    simp only [Phase.idle,Option.toList_none,List.append_nil] at listed
    simp [World.spend,Phase.paying,listed]
  ordered := logged.ordered
  mined := logged.mined

theorem withdraw_upheld (msgValue : Nat) (proof : Bytes) (input : Input) (rest : s.entered = false)
    (body : Body d floor .idle s) : UpheldBy d floor (withdraw d msgValue proof input s) := by
  have backed := body.funded.backed
  simp only [Phase.idle] at backed
  rw [withdraw,if_neg (by simp [rest])]
  split
  · trivial
  · next affordable =>
    split
    · trivial
    · next unspent =>
      split
      · trivial
      · next known =>
        split
        · trivial
        · next verified =>
          simp only [Bool.not_eq_true',Bool.not_eq_false] at known verified
          have stored := body.stored.spend unspent known verified msgValue
          have net : (d.denomination - input._fee).toNat + input._fee.toNat =
              d.denomination.toNat := by
            have le := BitVec.le_def.mp (BitVec.not_lt.mp affordable)
            rw [BitVec.toNat_sub_of_le le]
            omega
          have logged := body.logged.spend msgValue proof input 0 0
          rw [_processWithdraw]
          split
          · next native =>
            split
            · trivial
            · next unfunded =>
              split
              · trivial
              · rw [send]
                split
                · next funds =>
                  refine ⟨refused_other (by simp),.waiting rfl native.symm ?_⟩
                  refine ⟨{ stored with },⟨?_,by simp [native]⟩,{ logged with }⟩
                  simp only [World.held,native,Pending.phase,Phase.paying,World.spend,
                    List.length_append,List.length_singleton] at backed funds ⊢
                  rw [Nat.mul_succ _ s.spends.length]
                  omega
                · trivial
          · next token =>
            split
            · trivial
            · next exact_ =>
              rw [safeTransfer]
              split
              · next funds =>
                refine ⟨refused_other (by simp),.waiting rfl token.symm ?_⟩
                refine ⟨{ stored with },⟨?_,fun _ => ?_⟩,{ logged with }⟩
                · simp only [World.held,token,Pending.phase,Phase.paying,World.spend,
                    List.length_append,List.length_singleton] at backed funds ⊢
                  rw [Nat.mul_succ _ s.spends.length]
                  omega
                · have kept := body.funded.kept token
                  simp only [Phase.idle,Pending.phase,Phase.paying,World.spend] at kept ⊢
                  omega
              · trivial

/-! ### Whole runs -/

theorem Body.act (body : Body d floor p s) (a : Act) (ks : List Pending) :
    Body d floor p ((pool d).act a ks s) := by
  have backed := body.funded.backed
  simp only [World.held] at backed
  cases a with
  | force amount =>
    refine ⟨{ body.stored with },⟨?_,fun token => ?_⟩,{ body.logged with }⟩
    · simp only [World.held,pool]
      split at backed <;> omega
    · have kept := body.funded.kept token
      simp only [pool]
      omega
  | donate amount =>
    refine ⟨{ body.stored with },⟨?_,body.funded.kept⟩,{ body.logged with }⟩
    simp only [World.held,pool]
    split at backed <;> omega
  | mine =>
    refine ⟨{ body.stored with },{ body.funded with },?_⟩
    exact {
      deposited := body.logged.deposited
      withdrawn := body.logged.withdrawn
      ordered := body.logged.ordered
      mined := fun e member => (body.logged.mined e member).trans (by simp [pool]) }

theorem Sound.act {ks : List Pending} (sound : Sound d floor ks s) (a : Act) :
    Sound d floor ks ((pool d).act a ks s) := by
  have guard : ((pool d).act a ks s).entered = s.entered := by
    cases a <;> rfl
  cases sound with
  | rest free body => exact .rest (guard.trans free) (body.act a _)
  | waiting entered kind body => exact .waiting (guard.trans entered) kind (body.act a _)

/-- While a call is pending, the guard turns every other call away. -/
theorem call_upheld {ks : List Pending} (sound : Sound d floor ks s) (c : Call) (gas : Nat) :
    Upholds (fun _ => Sound d floor) (fun _ => Refused d floor) gas ks ((pool d).call c s) := by
  cases sound with
  | rest free body =>
    cases c with
    | deposit msgValue commitment => exact deposit_upheld msgValue commitment free body
    | withdraw msgValue proof input => exact withdraw_upheld msgValue proof input free body
  | waiting entered kind body =>
    cases c with
    | deposit msgValue commitment =>
      simp only [pool,deposit,entered,if_true]
      trivial
    | withdraw msgValue proof input =>
      simp only [pool,withdraw,entered,if_true]
      trivial

theorem succeed_upheld {k : Pending} {ks : List Pending} (sound : Sound d floor (k :: ks) s)
    (gas : Nat) :
    Upholds (fun _ => Sound d floor) (fun _ => Refused d floor) gas ks ((pool d).resume k true s) := by
  cases sound with
  | waiting entered kind body =>
    cases k with
    | collecting c index =>
      have backed := body.funded.backed
      have kept := body.funded.kept
      simp only [World.held,← kind,Pending.kind,Pending.phase,Phase.collecting] at backed kept
      have funded : Funded d floor .idle { s with tokens := s.tokens + d.denomination.toNat } := by
        refine ⟨?_,by simpa only [Phase.idle,← kind,Pending.kind] using kept⟩
        simp only [World.held,← kind,Pending.kind,Phase.idle]
        omega
      exact finishDeposit_upheld { body.stored with } funded { body.logged with }
    | payingRecipient input => exact payRelayer_upheld kind.symm entered body
    | payingRelayer input => exact finishWithdraw_upheld body
    | sendingRecipient input => exact sendRelayer_upheld kind.symm entered body
    | sendingRelayer input => exact refundRecipient_upheld kind.symm entered body
    | refundingRecipient input => exact finishWithdraw_upheld body
    | refundingRelayer input => exact finishWithdraw_upheld body

theorem fail_upheld {k : Pending} {ks : List Pending} (refused : Refused d floor k ks s) (gas : Nat) :
    Upholds (fun _ => Sound d floor) (fun _ => Refused d floor) gas ks ((pool d).resume k false s) := by
  cases k with
  | refundingRecipient input =>
    obtain ⟨rfl,entered,token,body⟩ := refused input rfl
    exact refundRelayer_upheld token entered body
  | _ => trivial

/-- Anyone may call the pool at any time. -/
abbrev Anything : Allowed World Pending Call Act := fun _ _ _ => True

theorem pool_invariant (d : Instance) (floor : Nat) : Invariant (pool d) Anything
    (fun _ => Sound d floor) (fun _ => Refused d floor) where
  spend := id
  spendSaved := id
  act sound _ := sound.act _
  call sound _ := call_upheld sound _ _
  succeed sound := succeed_upheld sound _
  fail refused := fail_upheld refused _

theorem deploy_sound {balance tokens block : Nat} (deployed : deploy d balance tokens block = .ok s) :
    Sound d balance [] s := by
  obtain ⟨tree,created,rest⟩ := bind_ok_iff.mp deployed
  obtain ⟨_,_,returned⟩ := bind_ok_iff.mp rest
  cases returned
  obtain ⟨holds,tall⟩ := create_holds created
  apply Sound.rest rfl
  exact {
    stored := {
      tall, tree := holds
      mirrored := by simp [World.initial]
      distinct := List.nodup_nil
      inField := by simp [World.initial]
      nullified := by simp [World.initial]
      once := List.nodup_nil
      verified := by simp [World.initial]
      rooted := by simp [World.initial] }
    funded := ⟨by simp [World.initial,Phase.idle],by simp [World.initial,Phase.idle]⟩
    logged := {
      deposited := rfl
      withdrawn := rfl
      ordered := List.Pairwise.nil
      mined := by simp [World.initial] } }

/-- What is reached from a deployed pool, in runs of any length. -/
theorem reachable_sound {gas balance tokens block : Nat} {start : World} {c : Config World Pending}
    (deployed : deploy d balance tokens block = .ok start)
    (reach : Reachable (pool d) Anything ⟨gas, start, []⟩ c) :
    Sound d balance (live c.stack) c.world := by
  have initial : Holds (fun _ => Sound d balance) (fun _ => Refused d balance)
      (⟨gas, start, []⟩ : Config World Pending) := ⟨deploy_sound deployed,trivial⟩
  exact (reach.invariant (pool_invariant d balance) initial).1

/-! ### Known roots -/

/-- Whatever is deposited, withdrawn and called back, the pool knows the last thirty of its
roots, from the one of the constructor on, and no other word; the latest is the root of all the
commitments, and between transactions its logs list these in order. -/
theorem pool_knows_recent_roots {gas balance tokens block : Nat} {start : World}
    {c : Config World Pending} (deployed : deploy d balance tokens block = .ok start)
    (reach : Reachable (pool d) Anything ⟨gas, start, []⟩ c) :
    (∀ r, isKnownRoot c.world.tree r = true ↔
      r ≠ 0 ∧ r ∈ recentRoots d.hasher d.merkleTreeHeight.toNat c.world.leaves) ∧
    (rootHistory d.hasher d.merkleTreeHeight.toNat c.world.leaves).getLast? =
      some (getLastRoot c.world.tree) ∧
    (live c.stack = [] →
      c.world.deposited.map numbered = (c.world.leaves.map BitVec.toNat).zipIdx) := by
  have sound := reachable_sound deployed reach
  have stored := sound.stored
  rw [← stored.tall]
  refine ⟨fun r => isKnownRoot_iff_recent stored.tree,getLastRoot_last stored.tree,fun idle => ?_⟩
  have listed := (sound.idle idle).2.logged.deposited
  simpa [Phase.idle] using listed

/-! ### Two deposits in a tree of two leaves -/

/-- The commitment of the note with the nullifier 5 and the secret 7. -/
def sampleCommitment : Bytes32 := 0x282847af41f8ca09b46519362ac4e201effccb45ed02c4c658ac18c8f569f7d1

/-- A leaf that is no note's. -/
def secondCommitment : Bytes32 := 42

/-- The root over the first leaf. -/
def sampleRoot : Bytes32 := 0x1631ea6b5e6b39db3d69f306145a78b1335af7c0cfea26ed848d7b4ff3f2e133

/-- The root over both. -/
def secondRoot : Bytes32 := 0x66fcc25178e88033b5b376700bf0854409095579a654047b504c1536f13bca0

/-- The MiMC sponge for these roots, the root over the leaves in the other order, and the parent
of two zero leaves. -/
def sampleSponge : List ((Word 32 × Word 32) × (Word 32 × Word 32)) := [
  ((sampleCommitment, 0),
    (0x2cb4821654a5a92d98523c8b7fb5a4d89694a5224a1877a017dab04b28777799,
      0xc0f9f2ff374107229e3b1190bdc90a834053ad5e6c5638b7dd1e83c2c7af092)),
  ((0x2c3580044720b4f7143c2c8be9d5aa2ff07bf0e9474648f0f88f40a481112704,
      0xc0f9f2ff374107229e3b1190bdc90a834053ad5e6c5638b7dd1e83c2c7af092),
    (sampleRoot, 0x1c1196a94124f71481611e4cd3951e1767f9f392bcecdd6db15ecd52ff437f98)),
  ((zeroAt 0, 0),
    (0xe28c4bf5daba3b92e52f7a6eeb5009c0eb8468e21a21e8b51f64b10364771eb,
      0x401954bbbd71e69f7d370d5cca185130ef2c6271f483760c034c7901f958412)),
  ((0xda9c2ad5026af82aa3ce7a758d505f3689f92551ecfefdc32aadb698ee12156,
      0x401954bbbd71e69f7d370d5cca185130ef2c6271f483760c034c7901f958412),
    (zeroAt 1, 0x1b7cb3897429e31360d19998b7064a85206d4a6839d813743caf5bbade410c95)),
  ((0x2cb4821654a5a92d98523c8b7fb5a4d89694a5224a1877a017dab04b287777c3,
      0xc0f9f2ff374107229e3b1190bdc90a834053ad5e6c5638b7dd1e83c2c7af092),
    (secondRoot, 0x1bdd108372afb9def3799f60b52ebae099e4498958ccc4d7c9cb80162a35d338)),
  ((secondCommitment, 0),
    (0x17884d9655993ab784fd4836427e8cf15d36dcc61a9583bafd1f79e6c71e6e32,
      0x2c16a44a68e986f7351be8a87ee824b470d4c77f7e98daf0d6367b019484c44d)),
  ((0xf4c46d2b660649781121bb5ebc2169624ffbfc38dded7f011e99d1bcc886602,
      0x2c16a44a68e986f7351be8a87ee824b470d4c77f7e98daf0d6367b019484c44d),
    (0x14dfbb54c1de42b9a1af94c29fc0d631560c2da523b608218403e34bffcd3eec,
      0x223abfc9aebbd12ba5465511e0c8ed905eff500a00dbfcf47f20604fdca34a68))]

theorem sampleSponge_inField : sampleSponge.all fun row => row.2.1.toNat < FIELD_SIZE := by decide

def sampleHasher : IHasher where
  MiMCSponge xL xR := (sampleSponge.lookup (xL, xR)).getD (0, 0)
  inField xL xR := by
    cases found : sampleSponge.lookup (xL, xR) with
    | none => decide
    | some out =>
      obtain ⟨before,after,split,_⟩ := List.lookup_eq_some_iff.mp found
      have member : ((xL,xR),out) ∈ sampleSponge := by simp [split]
      exact of_decide_eq_true (List.all_eq_true.mp sampleSponge_inField _ member)

def sampleInput : Input where
  _root := sampleRoot
  _nullifierHash := 0x22ee1a7d51f4bae8a483d523805fa3341e806bbb86405bbc458ca07d68f1ef7
  _recipient := 0xa1
  _relayer := 0xb2
  _fee := 10
  _refund := 0

/-- A pool of 100 wei that takes one proof. -/
def samplePool : Instance where
  kind := .ETHTornado
  verifier := ⟨fun _proof _input => _proof == [1] && _input == sampleInput⟩
  hasher := sampleHasher
  denomination := 100
  merkleTreeHeight := 1

def sampleStart : World :=
  .initial {
    levels := 1
    filledSubtrees := Function.update (fun _ => 0) 0 (zeroAt 0)
    roots := Function.update (fun _ => 0) 0 (zeroAt 0)
    currentRootIndex := 0
    nextIndex := 0 } 0 0 7

theorem sample_deployed : deploy samplePool 0 0 7 = .ok sampleStart := rfl

/-- The pool after the deposit. -/
def sampleDeposited : Config World Pending :=
  proceed 5 sampleStart [] ((pool samplePool).call (.deposit 100 sampleCommitment) sampleStart)

theorem sample_reached : Reachable (pool samplePool) Anything ⟨6, sampleStart, []⟩ sampleDeposited :=
  .step .start trivial ((pool samplePool).step_call (.deposit 100 sampleCommitment) 5 sampleStart [])

/-- The next block brings the second deposit. -/
def sampleTwice : Config World Pending :=
  ((pool samplePool).run [.act .mine,.call (.deposit 100 secondCommitment)] sampleDeposited).getD
    sampleDeposited

theorem sample_reached_twice :
    Reachable (pool samplePool) Anything ⟨6, sampleStart, []⟩ sampleTwice := by
  have ran : (pool samplePool).run [.act .mine,.call (.deposit 100 secondCommitment)] sampleDeposited =
      some sampleTwice := rfl
  exact sample_reached.trans (run_reachable (fun _ _ _ _ => trivial) ran)

/-- The roots over the first leaf and over both are known, the one over the other order is not. -/
theorem pool_knows_recent_roots_two :
    isKnownRoot sampleTwice.world.tree sampleRoot = true ∧
    isKnownRoot sampleTwice.world.tree secondRoot = true ∧
    isKnownRoot sampleTwice.world.tree (mimc sampleHasher secondCommitment sampleCommitment) = false ∧
    getLastRoot sampleTwice.world.tree = secondRoot ∧
    sampleTwice.world.deposited.map numbered =
      [(sampleCommitment.toNat,0),(secondCommitment.toNat,1)] := by
  obtain ⟨known,last,logged⟩ := pool_knows_recent_roots sample_deployed sample_reached_twice
  have latest : some secondRoot = some (getLastRoot sampleTwice.world.tree) :=
    (by decide : some secondRoot = _).trans last
  refine ⟨(known _).mpr (by decide),(known _).mpr (by decide),?_,?_,logged rfl⟩
  · rw [← Bool.not_eq_true,known]
    decide
  · exact (Option.some.inj latest).symm

/-- The pairs hashed for both leaves in either order, or for the first one. -/
def samplePairs : List (Bytes32 × Bytes32) :=
  [(zeroAt 0,zeroAt 0),(sampleCommitment,zeroAt 0),(sampleCommitment,secondCommitment),
    (secondCommitment,sampleCommitment)]

/-- Their hashes do not collide. -/
theorem sample_binding : MerkleTree.Binding (mimc sampleHasher) zeroAt samplePairs := by
  decide +kernel

end TornadoRelayer.Tornado
