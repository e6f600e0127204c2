import TornadoRelayer.TornadoRuns
import TornadoRelayer.TornadoNote

/-! Withdrawals against deposits. A proof that verifies was made from a note and a path; as long
as nothing that was hashed collides, each withdrawal spends a deposit of its own, and the pool
can pay it. -/
namespace TornadoRelayer.Tornado

open BigEndian CallStack MerkleTreeWithHistory MerkleTree TornadoNote

/-! ### Proofs -/

/-- The note and the path a proof was made from, and what the circuit constrains of them. -/
structure Extraction (d : Instance) (pedersenHash : Bytes → Nat) where
  note : (_proof : Bytes) → (_input : Input) → Note
  path : (_proof : Bytes) → (_input : Input) → Path Bytes32
  made : ∀ proof input, d.verifier.verifyProof proof input = true →
    noteFromSecrets pedersenHash (note proof input).nullifier (note proof input).secret =
      .ok (note proof input)
  long : ∀ proof input, d.verifier.verifyProof proof input = true →
    (path proof input).length = d.merkleTreeHeight.toNat
  leads : ∀ proof input, d.verifier.verifyProof proof input = true →
    pathRoot (mimc d.hasher) (path proof input) (BitVec.ofNat 256 (note proof input).commitment) =
      input._root
  hidden : ∀ proof input, d.verifier.verifyProof proof input = true →
    input._nullifierHash = BitVec.ofNat 256 (note proof input).nullifierHash

section

variable {d : Instance} {pedersenHash : Bytes → Nat} (x : Extraction d pedersenHash)

def Extraction.commitment (spend : Bytes × Input) : Bytes32 :=
  BitVec.ofNat 256 (x.note spend.1 spend.2).commitment

/-- The pairs hashed for the roots of the pool and for the proofs it took. -/
def Extraction.hashedPairs (s : World) : List (Bytes32 × Bytes32) :=
  zeroPairs zeroAt d.merkleTreeHeight.toNat ++
    (List.range s.leaves.length).flatMap (fun k =>
      rootPairs (mimc d.hasher) zeroAt d.merkleTreeHeight.toNat (s.leaves.take (k + 1))) ++
    s.spends.flatMap fun spend =>
      pathPairs (mimc d.hasher) (x.path spend.1 spend.2) (x.commitment spend)

/-- Nothing that was hashed collides, and no note opens the zero leaf. -/
structure Extraction.Unbroken (s : World) : Prop where
  chained : Chained (mimc d.hasher) zeroAt d.merkleTreeHeight.toNat
  binding : Binding (mimc d.hasher) zeroAt (x.hashedPairs s)
  notes : ∀ p ∈ s.spends, ∀ q ∈ s.spends, x.commitment p = x.commitment q →
    (x.note p.1 p.2).preimage = (x.note q.1 q.2).preimage
  real : ∀ p ∈ s.spends, x.commitment p ≠ zeroAt 0

end

variable {d : Instance} {pedersenHash : Bytes → Nat} {x : Extraction d pedersenHash}
  {floor : Nat} {s : World}

/-! ### Each withdrawal has its deposit -/

/-- A spent note is a leaf of the tree. -/
theorem commitment_deposited (stored : Stored d s) (unbroken : x.Unbroken s) {p : Bytes × Input}
    (spent : p ∈ s.spends) : x.commitment p ∈ s.leaves := by
  have verified := stored.verified p spent
  have rooted := stored.rooted p spent
  have long := x.long p.1 p.2 verified
  have leads : pathRoot (mimc d.hasher) (x.path p.1 p.2) (x.commitment p) = p.2._root :=
    x.leads p.1 p.2 verified
  have zero : zeroPairs zeroAt d.merkleTreeHeight.toNat ⊆ x.hashedPairs s :=
    List.Subset.trans (List.subset_append_left _ _) (List.subset_append_left _ _)
  have steps : pathPairs (mimc d.hasher) (x.path p.1 p.2) (x.commitment p) ⊆ x.hashedPairs s :=
    fun pair member => List.mem_append_right _ (List.mem_flatMap.mpr ⟨p,spent,member⟩)
  have positive := stored.tree.positive
  rw [stored.tall] at rooted positive
  rcases List.mem_cons.mp rooted with first | later
  · have short : (x.path p.1 p.2).length = d.merkleTreeHeight.toNat - 1 + 1 := by omega
    exact absurd (leads.trans first)
      (path_ne_zero unbroken.binding unbroken.chained zero short (by omega) steps)
  · obtain ⟨k,inside,root_⟩ := List.mem_map.mp later
    have own : rootPairs (mimc d.hasher) zeroAt (x.path p.1 p.2).length (s.leaves.take (k + 1)) ⊆
        x.hashedPairs s := by
      rw [long]
      intro pair member
      apply List.mem_append_left
      exact List.mem_append_right _ (List.mem_flatMap.mpr ⟨k,inside,member⟩)
    have bound := path_binds unbroken.binding unbroken.chained zero long.le steps own
      (leads.trans (long.symm ▸ root_.symm))
    cases found : (s.leaves.take (k + 1))[pathIndex (x.path p.1 p.2)]? with
    | none =>
      rw [found] at bound
      exact absurd bound.symm (unbroken.real p spent)
    | some leaf =>
      rw [found] at bound
      cases bound
      exact List.mem_of_mem_take (List.mem_of_getElem? found)

/-- The nullifier hash is made from the first half of the preimage. -/
theorem nullifierHash_of_preimage {proof proof' : Bytes} {input input' : Input}
    (verified : d.verifier.verifyProof proof input = true)
    (verified' : d.verifier.verifyProof proof' input' = true)
    (same : (x.note proof input).preimage = (x.note proof' input').preimage) :
    input._nullifierHash = input'._nullifierHash := by
  have hashed {proof : Bytes} {input : Input} (verified : d.verifier.verifyProof proof input = true) :
      input._nullifierHash =
        BitVec.ofNat 256 (pedersenHash ((x.note proof input).preimage.take 31)) := by
    obtain ⟨first,last,encoded,_,note⟩ := noteFromSecrets_eq_ok.mp (x.made proof input verified)
    have long := numberToBytesLE_length encoded
    rw [x.hidden proof input verified,note,← long,List.take_left]
  rw [hashed verified,hashed verified',same]

theorem commitments_distinct (stored : Stored d s) (unbroken : x.Unbroken s) :
    (s.spends.map x.commitment).Nodup := by
  have once := stored.once
  rw [List.Nodup,List.pairwise_map] at once ⊢
  apply once.imp_of_mem
  intro p q left right apart same
  apply apart
  exact nullifierHash_of_preimage (stored.verified p left) (stored.verified q right)
    (unbroken.notes p left q right same)

theorem spends_le (stored : Stored d s) (unbroken : x.Unbroken s) :
    s.spends.length ≤ s.leaves.length := by
  have sub : s.spends.map x.commitment ⊆ s.leaves := by
    intro c member
    obtain ⟨p,spent,rfl⟩ := List.mem_map.mp member
    exact commitment_deposited stored unbroken spent
  have length := ((commitments_distinct stored unbroken).subperm sub).length_le
  rwa [List.length_map] at length

/-- In every state a pool reaches, its withdrawals spend as many different deposits, and between
transactions what it holds covers the deposits that are left. -/
theorem withdrawals_spend_deposits {gas balance tokens block : Nat} {start : World}
    {c : Config World Pending} (deployed : deploy d balance tokens block = .ok start)
    (reach : Reachable (pool d) Anything ⟨gas, start, []⟩ c) (unbroken : x.Unbroken c.world) :
    (c.world.spends.map x.commitment).Nodup ∧ c.world.spends.map x.commitment ⊆ c.world.leaves ∧
    (live c.stack = [] → c.world.withdrawn = c.world.spends.map Prod.snd ∧
      c.world.withdrawn.length ≤ c.world.deposited.length ∧
      d.denomination.toNat * (c.world.deposited.length - c.world.withdrawn.length) ≤
        c.world.held d) := by
  have sound := reachable_sound deployed reach
  have stored := sound.stored
  refine ⟨commitments_distinct stored unbroken,?_,fun idle => ?_⟩
  · intro c' member
    obtain ⟨p,spent,rfl⟩ := List.mem_map.mp member
    exact commitment_deposited stored unbroken spent
  · obtain ⟨_,body⟩ := sound.idle idle
    have withdrawn := body.logged.withdrawn
    have deposited := congrArg List.length body.logged.deposited
    have backed := body.funded.backed
    have fewer := spends_le stored unbroken
    simp only [Phase.idle,Option.toList_none,List.append_nil,List.length_map,List.length_zipIdx,
      Nat.add_zero] at withdrawn deposited backed
    refine ⟨withdrawn,?_⟩
    rw [withdrawn,List.length_map,deposited,Nat.mul_sub]
    omega

/-! ### The note of the sample -/

def sampleNullifier : Bytes := 5 :: List.replicate 30 0

def samplePreimage : Bytes := sampleNullifier ++ 7 :: List.replicate 30 0

/-- The Pedersen hash where the note needs it. -/
def samplePedersen (bytes : Bytes) : Nat :=
  if bytes = sampleNullifier then sampleInput._nullifierHash.toNat
  else if bytes = samplePreimage then sampleCommitment.toNat
  else 0

def sampleNote : Note where
  nullifier := 5
  secret := 7
  commitment := sampleCommitment.toNat
  nullifierHash := sampleInput._nullifierHash.toNat
  preimage := samplePreimage

theorem sample_verified {proof : Bytes} {input : Input}
    (verified : samplePool.verifier.verifyProof proof input = true) : input = sampleInput := by
  have both : (proof == [1] && input == sampleInput) = true := verified
  rw [Bool.and_eq_true,beq_iff_eq,beq_iff_eq] at both
  exact both.2

def sampleExtraction : Extraction samplePool samplePedersen where
  note _ _ := sampleNote
  path _ _ := [(false, zeroAt 0)]
  made _ _ _ := by
    rw [noteFromSecrets_eq_ok]
    refine ⟨sampleNullifier,7 :: List.replicate 30 0,?_,?_,?_⟩
    · rw [numberToBytesLE,if_pos (by norm_num [sampleNote])]
      decide
    · rw [numberToBytesLE,if_pos (by norm_num [sampleNote])]
      decide
    · rfl
  long _ _ _ := rfl
  leads _ _ verified := by
    rw [sample_verified verified]
    decide
  hidden _ _ verified := by
    rw [sample_verified verified]
    decide

theorem sample_commitment (p : Bytes × Input) : sampleExtraction.commitment p = sampleCommitment :=
  BitVec.ofNat_toNat _ _

theorem sample_unbroken {s : World} (leaves : s.leaves = [sampleCommitment]) :
    sampleExtraction.Unbroken s where
  chained i below := by
    obtain rfl : i = 0 := by
      have one : samplePool.merkleTreeHeight.toNat = 1 := rfl
      omega
    decide
  binding := by
    apply sample_binding.subset
    intro pair member
    simp only [Extraction.hashedPairs,leaves] at member
    rcases List.mem_append.mp member with roots | paths
    · rcases List.mem_append.mp roots with zero | tree
      · exact List.mem_cons.mpr (.inl (List.mem_singleton.mp zero))
      · exact List.mem_cons.mpr (.inr (List.mem_append_left _ tree))
    · obtain ⟨p,spent,inside⟩ := List.mem_flatMap.mp paths
      rw [sample_commitment] at inside
      exact List.mem_cons.mpr (.inr (List.mem_append_left _ inside))
  notes _ _ _ _ _ := rfl
  real p _ := by
    rw [sample_commitment]
    decide

/-- A withdrawal paid to both of its recipients. -/
def sampleSteps : List (Step Call Act) :=
  [.call (.withdraw 0 [1] sampleInput),.answer true,.answer true]

def sampleSpent : Config World Pending :=
  ((pool samplePool).run sampleSteps sampleDeposited).getD sampleDeposited

theorem sampleSpent_reached :
    Reachable (pool samplePool) Anything ⟨6, sampleStart, []⟩ sampleSpent := by
  have ran : (pool samplePool).run sampleSteps sampleDeposited = some sampleSpent := rfl
  exact sample_reached.trans (run_reachable (fun _ _ _ _ => trivial) ran)

theorem withdrawals_spend_deposits_one : sampleSpent.world.spends.length = 1 ∧
    sampleSpent.world.spends.map sampleExtraction.commitment ⊆ sampleSpent.world.leaves :=
  ⟨rfl,(withdrawals_spend_deposits sample_deployed sampleSpent_reached (sample_unbroken rfl)).2.1⟩

/-! ### Payment -/

/-- A later world in which nothing was taken from the pool and no note was spent. -/
structure World.Kept (s s' : World) : Prop where
  balance : s.balance ≤ s'.balance
  tokens : s.tokens ≤ s'.tokens
  tree : s'.tree = s.tree
  leaves : s'.leaves = s.leaves
  deposited : s'.deposited = s.deposited
  withdrawn : s'.withdrawn = s.withdrawn
  nullifierHashes : s'.nullifierHashes = s.nullifierHashes

theorem World.Kept.held {s' : World} (kept : s.Kept s') (d : Instance) : s.held d ≤ s'.held d := by
  rw [World.held,World.held]
  split
  · exact kept.balance
  · exact kept.tokens

theorem acted_kept (acts : List Act) (ks : List Pending) (s : World) :
    s.Kept ((pool d).acted acts ks s) := by
  induction acts generalizing s with
  | nil => exact ⟨Nat.le_refl _,Nat.le_refl _,rfl,rfl,rfl,rfl,rfl⟩
  | cons a acts ih =>
    have later := ih ((pool d).act a ks s)
    cases a with
    | force amount => exact { later with balance := (Nat.le_add_right ..).trans later.balance }
    | donate amount => exact { later with tokens := (Nat.le_add_right ..).trans later.tokens }
    | mine => exact { later with }

/-- The code ends with the withdrawal logged, having paid at most so much. -/
def Ends (d : Instance) (outcome : Pending → Option (List Act)) (n : Nat) (r : Outcome) (s : World)
    (input : Input) (paid : Nat) : Prop :=
  ∃ s', (pool d).complete outcome [] n r = some (.ok s') ∧
    s'.withdrawn = s.withdrawn ++ [input] ∧ s'.nullifierHashes = s.nullifierHashes ∧
    s.held d ≤ s'.held d + paid

section

variable {outcome : Pending → Option (List Act)} {n : Nat} {input : Input}

theorem Ends.more {r : Outcome} {paid most : Nat} (ends : Ends d outcome n r s input paid)
    (le : paid ≤ most) : Ends d outcome n r s input most := by
  obtain ⟨s',ended,logged,spent,left⟩ := ends
  exact ⟨s',ended,logged,spent,by omega⟩

theorem ends_finish : Ends d outcome n (finishWithdraw input s) s input 0 :=
  ⟨_,complete_returned _,rfl,rfl,Nat.le_refl _⟩

variable (accepting : ∀ k, (outcome k).isSome)

include accepting

theorem ends_calling {k : Pending} {atCall after : World} {paid rest : Nat}
    (withdrawn : after.withdrawn = s.withdrawn)
    (nullified : after.nullifierHashes = s.nullifierHashes)
    (taken : s.held d + rest ≤ after.held d + paid)
    (next : ∀ s', after.Kept s' → Ends d outcome n ((pool d).resume k true s') s' input rest) :
    Ends d outcome (n + 1) (.calling atCall after k) s input paid := by
  obtain ⟨acts,accepted⟩ := Option.isSome_iff_exists.mp (accepting k)
  have kept := acted_kept (d := d) acts [k] after
  obtain ⟨s',ended,logged,spent,left⟩ := next _ kept
  have held := kept.held d
  refine ⟨s',(complete_succeeded accepted).trans ended,?_,?_,by omega⟩
  · rw [logged,kept.withdrawn,withdrawn]
  · rw [spent,kept.nullifierHashes,nullified]

theorem ends_payRelayer (native : d.kind = .ETHTornado) (funds : input._fee.toNat ≤ s.balance) :
    Ends d outcome (n + 1) (payRelayer input s) s input input._fee.toNat := by
  rw [payRelayer]
  split
  · rw [send,if_pos funds]
    refine ends_calling accepting rfl rfl ?_ fun _ _ => ends_finish
    simp only [World.held,native]
    omega
  · exact ends_finish.more (Nat.zero_le _)

theorem ends_refundRecipient (token : d.kind = .ERC20Tornado)
    (funds : input._refund.toNat ≤ s.balance) :
    Ends d outcome (n + 1) (refundRecipient input s) s input 0 := by
  rw [refundRecipient]
  split
  · rw [send,if_pos funds]
    refine ends_calling accepting rfl rfl ?_ fun _ _ => ends_finish
    simp only [World.held,token]
    omega
  · exact ends_finish

theorem ends_sendRelayer (token : d.kind = .ERC20Tornado) (funds : input._fee.toNat ≤ s.tokens)
    (funds' : input._refund.toNat ≤ s.balance) :
    Ends d outcome (n + 2) (sendRelayer input s) s input input._fee.toNat := by
  rw [sendRelayer]
  split
  · rw [safeTransfer,if_pos funds]
    refine ends_calling accepting rfl rfl ?_ fun s' kept =>
      ends_refundRecipient accepting token (funds'.trans kept.balance)
    simp only [World.held,token]
    omega
  · exact (ends_refundRecipient accepting token funds').more (Nat.zero_le _)

/-- What a withdrawal is checked for. -/
structure Accepts (d : Instance) (s : World) (msgValue : Nat) (proof : Bytes) (input : Input) :
    Prop where
  affordable : input._fee ≤ d.denomination
  unspent : s.nullifierHashes input._nullifierHash = false
  known : isKnownRoot s.tree input._root = true
  verified : d.verifier.verifyProof proof input = true
  native : d.kind = .ETHTornado → msgValue = 0 ∧ input._refund = 0
  token : d.kind = .ERC20Tornado → msgValue = input._refund.toNat

theorem ends_withdraw {msgValue : Nat} {proof : Bytes} (rest : s.entered = false)
    (accepts : Accepts d s msgValue proof input) (funds : d.denomination.toNat ≤ s.held d) :
    Ends d outcome (n + 3) (withdraw d msgValue proof input s) (s.spend msgValue proof input) input
      d.denomination.toNat := by
  have le := BitVec.le_def.mp accepts.affordable
  have net : (d.denomination - input._fee).toNat = d.denomination.toNat - input._fee.toNat :=
    BitVec.toNat_sub_of_le le
  rw [withdraw,if_neg (by simp [rest]),if_neg (BitVec.not_lt.mpr accepts.affordable),
    if_neg (by simp [accepts.unspent]),if_neg (by simp [accepts.known]),
    if_neg (by simp [accepts.verified]),_processWithdraw]
  split
  · next native =>
    obtain ⟨unpaid,norefund⟩ := accepts.native native
    simp only [World.held,native] at funds
    rw [if_neg (by simp [unpaid]),if_neg (by simp [norefund]),send,
      if_pos (by simp only [World.spend,net]; omega)]
    refine ends_calling accepting rfl rfl ?_ fun s' kept => ends_payRelayer accepting native ?_
    · simp only [World.held,native,World.spend,net]
      omega
    · apply Nat.le_trans _ kept.balance
      simp only [World.spend,net]
      omega
  · next token =>
    have paid := accepts.token token
    simp only [World.held,token] at funds
    rw [if_neg (by simp [paid]),safeTransfer,if_pos (by simp only [World.spend,net]; omega)]
    refine ends_calling accepting rfl rfl ?_ fun s' kept => ends_sendRelayer accepting token ?_ ?_
    · simp only [World.held,token,World.spend,net]
      omega
    · apply Nat.le_trans _ kept.tokens
      simp only [World.spend,net]
      omega
    · apply Nat.le_trans _ kept.balance
      simp only [World.spend]
      omega

end

theorem complete_ok {outcome : Pending → Option (List Act)} {n : Nat} {r : Outcome} {reason : String}
    {s' : World} (completed : (pool d).complete outcome [] n r = some (.ok s')) :
    r ≠ .reverted reason := by
  rintro rfl
  rw [complete_reverted] at completed
  cases completed

theorem accepts_of_complete {outcome : Pending → Option (List Act)} {n msgValue : Nat}
    {proof : Bytes} {input : Input} {s' : World}
    (completed : (pool d).complete outcome [] n (withdraw d msgValue proof input s) = some (.ok s')) :
    Accepts d s msgValue proof input := by
  rw [withdraw] at completed
  split at completed
  · exact absurd rfl (complete_ok completed)
  · split at completed
    · exact absurd rfl (complete_ok completed)
    · next affordable =>
      split at completed
      · exact absurd rfl (complete_ok completed)
      · next unspent =>
        split at completed
        · exact absurd rfl (complete_ok completed)
        · next known =>
          split at completed
          · exact absurd rfl (complete_ok completed)
          · next verified =>
            rw [_processWithdraw] at completed
            refine ⟨BitVec.not_lt.mp affordable,by simpa using unspent,by simpa using known,
              by simpa using verified,fun native => ?_,fun token => ?_⟩
            · simp only [native] at completed
              split at completed
              · exact absurd rfl (complete_ok completed)
              · next unpaid =>
                split at completed
                · exact absurd rfl (complete_ok completed)
                · next norefund => exact ⟨not_not.mp unpaid,not_not.mp norefund⟩
            · simp only [token] at completed
              split at completed
              · exact absurd rfl (complete_ok completed)
              · next paid => exact not_not.mp paid

/-- Between transactions, a withdrawal whose recipients take what they are sent goes through
exactly when its checks pass: the pool never lacks the funds. It pays one denomination at most,
spends the note and is logged. -/
theorem withdrawal_goes_through_iff {gas balance tokens block : Nat} {start : World}
    {c : Config World Pending} (deployed : deploy d balance tokens block = .ok start)
    (reach : Reachable (pool d) Anything ⟨gas, start, []⟩ c) (idle : live c.stack = [])
    {outcome : Pending → Option (List Act)} (accepting : ∀ k, (outcome k).isSome)
    {msgValue : Nat} {proof : Bytes} {input : Input}
    (unbroken : d.verifier.verifyProof proof input = true →
      x.Unbroken (c.world.spend msgValue proof input)) :
    ((∃ s', (pool d).complete outcome [] 3 (withdraw d msgValue proof input c.world) =
      some (.ok s')) ↔ Accepts d c.world msgValue proof input) ∧
    ∀ s', (pool d).complete outcome [] 3 (withdraw d msgValue proof input c.world) = some (.ok s') →
      s'.withdrawn = c.world.withdrawn ++ [input] ∧ isSpent s' input._nullifierHash = true ∧
      c.world.held d ≤ s'.held d + d.denomination.toNat := by
  obtain ⟨rest,body⟩ := (reachable_sound deployed reach).idle idle
  have ends (accepts : Accepts d c.world msgValue proof input) :
      Ends d outcome 3 (withdraw d msgValue proof input c.world)
        (c.world.spend msgValue proof input) input d.denomination.toNat := by
    have stored := body.stored.spend (by simp [accepts.unspent]) accepts.known accepts.verified msgValue
    have fewer := spends_le stored (unbroken accepts.verified)
    simp only [World.spend,List.length_append,List.length_singleton] at fewer
    have scaled := Nat.mul_le_mul_left d.denomination.toNat fewer
    have backed := body.funded.backed
    rw [Nat.mul_add,Nat.mul_one] at scaled
    simp only [Phase.idle] at backed
    exact ends_withdraw accepting rest accepts (by omega)
  constructor
  · constructor
    · rintro ⟨s',completed⟩
      exact accepts_of_complete completed
    · intro accepts
      obtain ⟨s',completed,_⟩ := ends accepts
      exact ⟨s',completed⟩
  · intro s' completed
    obtain ⟨s'',again,logged,spent,left⟩ := ends (accepts_of_complete completed)
    cases completed.symm.trans again
    refine ⟨logged,?_,?_⟩
    · rw [isSpent,spent]
      exact Function.update_self ..
    · apply Nat.le_trans _ left
      simp only [World.held,World.spend]
      split <;> omega

/-- What a deposit is checked for. -/
structure Takes (d : Instance) (s : World) (msgValue : Nat) (commitment : Bytes32) : Prop where
  fresh : commitment ∉ s.leaves
  inField : commitment.toNat < FIELD_SIZE
  room : s.leaves.length < 2 ^ d.merkleTreeHeight.toNat
  value : msgValue = match d.kind with
    | .ETHTornado => d.denomination.toNat
    | .ERC20Tornado => 0

/-- The commitment is the next leaf, and the root over it the last one. -/
def Taken (d : Instance) (s : World) (commitment : Bytes32) (s' : World) : Prop :=
  s'.leaves = s.leaves ++ [commitment] ∧
  getLastRoot s'.tree =
    MerkleTree.root (mimc d.hasher) zeroAt d.merkleTreeHeight.toNat (s.leaves ++ [commitment]) ∧
  ∃ block, s'.deposited = s.deposited ++ [⟨s.leaves.length, commitment.toNat, block⟩]

theorem Stored.lastRoot (stored : Stored d s) (some : s.leaves ≠ []) : getLastRoot s.tree =
    MerkleTree.root (mimc d.hasher) zeroAt d.merkleTreeHeight.toNat s.leaves := by
  have last := getLastRoot_last stored.tree
  rw [rootHistory_last _ some,stored.tall] at last
  exact (Option.some.inj last).symm

theorem taken_of_insert {commitment : Bytes32} {index msgValue block : Nat} {tree : Tree} {s' : World}
    (stored : Stored d (s.insert tree msgValue commitment)) (kept : (s.insert tree msgValue commitment).Kept s')
    (last : index = s.leaves.length) : Taken d s commitment { s' with
      entered := false
      deposited := s'.deposited ++ [⟨index, commitment.toNat, block⟩] } := by
  have root_ := stored.lastRoot (by simp [World.insert])
  refine ⟨kept.leaves,?_,block,?_⟩
  · simp only [kept.tree]
    exact root_
  · simp only [kept.deposited,last]
    rfl

theorem takes_of_complete {outcome : Pending → Option (List Act)} {n msgValue : Nat}
    {commitment : Bytes32} {s' : World} (stored : Stored d s) (rest : s.entered = false)
    (completed : (pool d).complete outcome [] n (deposit d msgValue commitment s) = some (.ok s')) :
    Takes d s msgValue commitment := by
  rw [deposit,if_neg (by simp [rest])] at completed
  split at completed
  · exact absurd rfl (complete_ok completed)
  · next fresh =>
    split at completed
    · exact absurd rfl (complete_ok completed)
    · next index tree inserted =>
      obtain ⟨room,inField,_⟩ := (insert_ok_iff stored.tree).mp inserted
      rw [_processDeposit] at completed
      refine ⟨fun member => fresh ((stored.mirrored _).mpr member),inField,stored.tall ▸ room,?_⟩
      split at completed
      · next native =>
        split at completed
        · next paid => simpa [native] using paid
        · exact absurd rfl (complete_ok completed)
      · next token =>
        split at completed
        · next unpaid => simpa [token] using unpaid
        · exact absurd rfl (complete_ok completed)

theorem complete_of_takes {outcome : Pending → Option (List Act)}
    (accepting : ∀ k, (outcome k).isSome) {msgValue : Nat} {commitment : Bytes32}
    (stored : Stored d s) (rest : s.entered = false) (takes : Takes d s msgValue commitment) :
    ∃ s', (pool d).complete outcome [] 1 (deposit d msgValue commitment s) = some (.ok s') ∧
      Taken d s commitment s' := by
  have inserted := (insert_ok_iff stored.tree).mpr
    ⟨stored.tall.symm ▸ takes.room,takes.inField,rfl,rfl⟩
  have fresh : ¬s.commitments commitment = true := fun taken =>
    takes.fresh ((stored.mirrored _).mp taken)
  have after := (stored.insert fresh inserted msgValue).2
  have value := takes.value
  rw [deposit,if_neg (by simp [rest]),if_neg fresh,inserted]
  simp only [_processDeposit]
  cases kind : d.kind with
  | ETHTornado =>
    simp only [kind] at value ⊢
    rw [if_pos value]
    exact ⟨_,complete_returned _,taken_of_insert after ⟨Nat.le_refl _,Nat.le_refl _,rfl,rfl,rfl,rfl,rfl⟩ rfl⟩
  | ERC20Tornado =>
    simp only [kind] at value ⊢
    rw [if_pos value]
    obtain ⟨acts,accepted⟩ :=
      Option.isSome_iff_exists.mp (accepting (.collecting commitment s.leaves.length))
    have kept := acted_kept (d := d) acts [.collecting commitment s.leaves.length]
      (s.insert (s.tree.inserted d.hasher commitment) msgValue commitment)
    refine ⟨_,(complete_succeeded accepted).trans (complete_returned _),?_⟩
    exact taken_of_insert after { kept with tokens := (Nat.le_trans kept.tokens (Nat.le_add_right ..)) } rfl

/-- Between transactions, a deposit goes through exactly when its commitment is new and of the
field, there is room, and it comes with the right value: hashing never stops it. -/
theorem deposit_goes_through_iff {gas balance tokens block : Nat} {start : World}
    {c : Config World Pending} (deployed : deploy d balance tokens block = .ok start)
    (reach : Reachable (pool d) Anything ⟨gas, start, []⟩ c) (idle : live c.stack = [])
    {outcome : Pending → Option (List Act)} (accepting : ∀ k, (outcome k).isSome)
    {msgValue : Nat} {commitment : Bytes32} :
    ((∃ s', (pool d).complete outcome [] 1 (deposit d msgValue commitment c.world) = some (.ok s')) ↔
      Takes d c.world msgValue commitment) ∧
    ∀ s', (pool d).complete outcome [] 1 (deposit d msgValue commitment c.world) = some (.ok s') →
      Taken d c.world commitment s' := by
  obtain ⟨rest,body⟩ := (reachable_sound deployed reach).idle idle
  have stored := body.stored
  constructor
  · constructor
    · rintro ⟨s',completed⟩
      exact takes_of_complete stored rest completed
    · intro takes
      obtain ⟨s',completed,_⟩ := complete_of_takes accepting stored rest takes
      exact ⟨s',completed⟩
  · intro s' completed
    obtain ⟨s'',again,taken⟩ :=
      complete_of_takes accepting stored rest (takes_of_complete stored rest completed)
    cases completed.symm.trans again
    exact taken

theorem deposit_goes_through_first : ∃ s', (pool samplePool).complete (fun _ => some []) [] 1
    (deposit samplePool 100 sampleCommitment sampleStart) = some (.ok s') := by
  have reach : Reachable (pool samplePool) Anything ⟨6, sampleStart, []⟩ ⟨6, sampleStart, []⟩ := .start
  apply (deposit_goes_through_iff sample_deployed reach rfl (fun _ => rfl)).1.mpr
  exact ⟨List.not_mem_nil,by decide,by decide,rfl⟩

theorem withdrawal_goes_through_sample : ∃ s', (pool samplePool).complete (fun _ => some []) [] 3
    (withdraw samplePool 0 [1] sampleInput sampleDeposited.world) = some (.ok s') := by
  have unbroken : samplePool.verifier.verifyProof [1] sampleInput = true →
      sampleExtraction.Unbroken (sampleDeposited.world.spend 0 [1] sampleInput) :=
    fun _ => sample_unbroken rfl
  apply (withdrawal_goes_through_iff sample_deployed sample_reached rfl (fun _ => rfl) unbroken).1.mpr
  exact {
    affordable := by decide
    unspent := rfl
    known := by decide
    verified := rfl
    native := fun _ => ⟨rfl,rfl⟩
    token := by
      intro other
      contradiction }

end TornadoRelayer.Tornado
