import TornadoRelayer.Rules
import TornadoRelayer.Measurement
import Mathlib.Algebra.BigOperators.Group.Finset.Piecewise
import Mathlib.Algebra.Order.BigOperators.Group.Finset

/-! What relays record of an asset against what came in, and what settlements pay
out against what relays recorded. Both sides are counted on the history. -/
namespace TornadoRelayer.Paymaster

open BigEndian Keccak CallStack Measurement

/-! ### Counting -/

def recordedTotal (select : Asset → Bool) : List Entry → Nat
  | [] => 0
  | .recorded a _ n :: h => recordedTotal select h + if select a then n else 0
  | _ :: h => recordedTotal select h

/-- What came in of an asset, from anyone. -/
def enteredTotal (a : Asset) : List Entry → Nat
  | [] => 0
  | .entered b n _ :: h => enteredTotal a h + if b = a then n else 0
  | _ :: h => enteredTotal a h

/-- What came in of an asset while a relay measured it. -/
def broughtIn (a : Asset) : List Entry → Nat
  | [] => 0
  | .entered b n measured :: h => broughtIn a h + if b = a ∧ measured then n else 0
  | _ :: h => broughtIn a h

def leftTotal (a : Asset) : List Entry → Nat
  | [] => 0
  | .left b n :: h => leftTotal a h + if b = a then n else 0
  | _ :: h => leftTotal a h

/-- What was recorded for the sender since its last settlement. -/
def unsettled (select : Asset → Bool) (sender : Address) : List Entry → Nat
  | [] => 0
  | .recorded a s n :: h => unsettled select sender h + if s = sender ∧ select a then n else 0
  | .took s _ _ :: h => if s = sender then 0 else unsettled select sender h
  | _ :: h => unsettled select sender h

/-- What settlements found recorded for their senders. -/
def claimed (select : Asset → Bool) : List Entry → Nat
  | [] => 0
  | .took s _ _ :: h => claimed select h + unsettled select s h
  | _ :: h => claimed select h

open Finset in
/-- Every record is claimed at most once. -/
theorem claimed_le (select : Asset → Bool) (h : List Entry) (senders : Finset Address) :
    claimed select h + ∑ s ∈ senders, unsettled select s h ≤ recordedTotal select h := by
  induction h generalizing senders with
  | nil => simp [claimed,unsettled,recordedTotal]
  | cons e h ih =>
    cases e with
    | recorded a s n =>
      have before := ih senders
      have added : ∑ t ∈ senders, unsettled select t (.recorded a s n :: h) ≤
          ∑ t ∈ senders, unsettled select t h + if select a then n else 0 := by
        simp only [unsettled,sum_add_distrib]
        apply Nat.add_le_add_left
        by_cases counted : select a = true
        · simp only [counted,and_true,if_true,sum_ite_eq]
          split <;> omega
        · simp [counted]
      simp only [claimed,recordedTotal]
      omega
    | took s eth token =>
      have before := ih (insert s (senders.erase s))
      rw [sum_insert (notMem_erase s senders)] at before
      have cleared : ∑ t ∈ senders, unsettled select t (.took s eth token :: h) ≤
          ∑ t ∈ senders.erase s, unsettled select t h := by
        rw [← sum_filter_add_sum_filter_not senders (s = ·)]
        have own : ∑ t ∈ senders with s = t, unsettled select t (.took s eth token :: h) = 0 := by
          apply sum_eq_zero
          intro t member
          simp [unsettled,(mem_filter.mp member).2]
        rw [own,Nat.zero_add]
        apply le_of_eq
        apply sum_congr
        · ext t
          simp only [mem_filter,mem_erase]
          tauto
        · intro t member
          have other := (mem_erase.mp member).1
          simp [unsettled,Ne.symm other]
      simp only [claimed,recordedTotal]
      omega
    | validated ctx => exact ih senders
    | dryRun s w => exact ih senders
    | begun m w => exact ih senders
    | called t w => exact ih senders
    | entered a n measured => exact ih senders
    | left a n => exact ih senders

theorem broughtIn_le (a : Asset) (h : List Entry) : broughtIn a h ≤ enteredTotal a h := by
  induction h with
  | nil => exact Nat.le_refl _
  | cons e h ih =>
    cases e with
    | entered b n measured =>
      simp only [broughtIn,enteredTotal]
      by_cases same : b = a
      · simp only [same,true_and,if_true]
        split <;> omega
      · simp only [same,false_and,if_false]
        exact ih
    | _ => exact ih

theorem unsettled_or (p q : Asset → Bool) (sender : Address) (h : List Entry) :
    unsettled (fun a => p a || q a) sender h ≤ unsettled p sender h + unsettled q sender h := by
  induction h with
  | nil => exact Nat.le_refl _
  | cons e h ih =>
    cases e with
    | recorded a s n =>
      simp only [unsettled]
      by_cases own : s = sender
      · by_cases left : p a = true
        · simp only [own,left,Bool.true_or,true_and,if_true]
          omega
        · simp only [own,left,Bool.false_or,true_and]
          split <;> simp <;> omega
      · simp only [own,false_and,if_false]
        exact ih
    | took s eth token =>
      simp only [unsettled]
      by_cases own : s = sender
      · simp [own]
      · simp only [if_neg own]
        exact ih
    | _ => exact ih

/-! ### The slots -/

def Asset.isToken : Asset → Bool
  | .eth => false
  | .token _ => true

theorem free_tail {e : Entry} {h : List Entry} (free : CollisionFree (slotStrings (e :: h))) :
    CollisionFree (slotStrings h) :=
  free.subset fun _ member => strings_cons.mpr (.inr member)

theorem seeds_apart {h : List Entry} (free : CollisionFree (slotStrings h)) :
    RECEIVED_ETH_SLOT_SEED ≠ RECEIVED_TOKEN_SLOT_SEED := by
  intro same
  have texts := free _ (List.mem_append_left _ (List.mem_cons_self))
    _ (List.mem_append_left _ (List.mem_cons_of_mem _ (List.mem_singleton_self _))) same
  revert texts
  decide +kernel

/-- A slot holds no more than was recorded in it since it was last taken: wrapping
around only loses. -/
theorem received_replay {h : List Entry} {seed : Bytes32} {select : Asset → Bool}
    {sender : Address} (free : CollisionFree (receivedString seed sender :: slotStrings h))
    (kind : seed = RECEIVED_ETH_SLOT_SEED ∨ seed = RECEIVED_TOKEN_SLOT_SEED)
    (selected : ∀ a : Asset, a.seed = seed → select a = true) :
    (replay h (receivedSlot seed sender)).toNat ≤ unsettled select sender h := by
  induction h with
  | nil => exact Nat.zero_le _
  | cons e h ih =>
    have own : receivedString seed sender ∈ receivedString seed sender :: slotStrings (e :: h) :=
      List.mem_cons_self
    have touched {string : Bytes} (member : string ∈ e.strings) :
        string ∈ receivedString seed sender :: slotStrings (e :: h) :=
      List.mem_cons_of_mem _ (strings_cons.mpr (.inl member))
    have earlier : CollisionFree (receivedString seed sender :: slotStrings h) := by
      apply free.subset
      intro string member
      rw [List.mem_cons] at member ⊢
      exact member.imp_right fun old => strings_cons.mpr (.inr old)
    have before := ih earlier
    have apart {key : Key} (member : key.string ∈ e.strings) : receivedSlot seed sender ≠ key.slot :=
      (slot_ne_received free (touched member) own).symm
    have same {seed' : Bytes32} {s : Address} (member : receivedString seed' s ∈ e.strings)
        (hit : receivedSlot seed sender = receivedSlot seed' s) : seed = seed' ∧ sender = s :=
      receivedString_injective (free _ own _ (touched member) hit)
    cases e with
    | validated ctx =>
      change (Storage.set _ _ _ _).toNat ≤ _
      rw [Storage.set_other _ _ (apart (List.mem_singleton_self _))]
      exact before
    | dryRun s w =>
      change (Storage.set _ _ _ _).toNat ≤ _
      rw [Storage.set_other _ _ (apart (List.mem_singleton_self _))]
      exact before
    | begun m w =>
      change (Storage.set _ _ _ _).toNat ≤ _
      rw [Storage.set_other _ _ (apart (List.mem_singleton_self _))]
      exact before
    | recorded a s n =>
      change (Storage.set _ _ _ _).toNat ≤ unsettled select sender h + _
      by_cases hit : receivedSlot seed sender = receivedSlot a.seed s
      · have hashed : receivedString a.seed s ∈ (Entry.recorded a s n).strings :=
          List.mem_singleton_self _
        obtain ⟨kind,rfl⟩ := same hashed hit
        rw [← hit,Storage.set_self,BitVec.toNat_add,BitVec.toNat_ofNat,selected a kind.symm]
        have wrapped := Nat.mod_le ((replay h (receivedSlot seed sender)).toNat + n % 2 ^ 256) (2 ^ 256)
        have reduced := Nat.mod_le n (2 ^ 256)
        simp only [and_self,if_true]
        omega
      · rw [Storage.set_other _ _ hit]
        omega
    | took s eth token =>
      change (Storage.set (Storage.set _ _ _) _ _ _).toNat ≤ if s = sender then 0 else _
      by_cases own' : s = sender
      · subst own'
        rw [if_pos rfl]
        rcases kind with rfl | rfl
        · by_cases hit : receivedSlot RECEIVED_ETH_SLOT_SEED s = receivedSlot RECEIVED_TOKEN_SLOT_SEED s
          · rw [hit,Storage.set_self]
            exact Nat.le_refl _
          · rw [Storage.set_other _ _ hit,Storage.set_self]
            exact Nat.le_refl _
        · rw [Storage.set_self]
          exact Nat.le_refl _
      · have hashedEth : receivedString RECEIVED_ETH_SLOT_SEED s ∈ (Entry.took s eth token).strings :=
          List.mem_cons_self
        have hashedToken : receivedString RECEIVED_TOKEN_SLOT_SEED s ∈
            (Entry.took s eth token).strings := List.mem_cons_of_mem _ (List.mem_singleton_self _)
        have otherEth : receivedSlot seed sender ≠ receivedSlot RECEIVED_ETH_SLOT_SEED s :=
          fun hit => own' (same hashedEth hit).2.symm
        have otherToken : receivedSlot seed sender ≠ receivedSlot RECEIVED_TOKEN_SLOT_SEED s :=
          fun hit => own' (same hashedToken hit).2.symm
        rw [Storage.set_other _ _ otherToken,Storage.set_other _ _ otherEth,if_neg own']
        exact before
    | called t w => exact before
    | entered a n measured => exact before
    | left a n => exact before

/-! ### The invariant -/

/-- With `befores` what the relays in progress measured of the asset: what was recorded
came in, and what was paid out was recorded. -/
structure Receipts (a : Asset) (befores : List Nat) (R : Asset → Nat) (w : World) : Prop where
  replayed : Replayed w
  measured : Covered (w.holding a) (broughtIn a w.history) (recordedTotal (· == a) w.history) befores
  paid : CollisionFree (slotStrings w.history) →
    leftTotal a w.history + R a ≤ claimed (· == a) w.history

/-- A refund in token `a` is no more than what relays recorded in it for the sender. -/
def Call.OwnToken (d : Deployment) (a : Asset) (w : World) : Call → Prop
  | .postOp _ .opSucceeded ctx cost price =>
    .token ctx.terms.feeToken = a → ctx.terms.feeToken ≠ 0 → ctx.terms.refundTo ≠ 0 →
    ∀ keep, keepAmount d ctx.terms cost.toNat price.toNat = .ok keep →
      unsettled (fun b => b.isToken && b != a) ctx.sender w.history = 0 ∨
      ctx.terms.fee.toNat - keep ≤ unsettled (· == a) ctx.sender w.history
  | _ => True

/-- The asset moves by transfers, reaches the paymaster under at most one relay that
measures it, and is refunded out of its own receipts. -/
def Fair (d : Deployment) (a : Asset) : Allowed World Pending Call Act
  | _, w, .call c => c.msgSender ≠ d.self ∧ c.OwnToken d a w
  | ks, _, .act (.receive b v) => b = a → 0 < v → (befores a ks).length ≤ 1
  | _, _, .act (.report t _) => a ≠ .token t
  | _, _, _ => True

theorem holding_note (w : World) (e : Entry) (a : Asset) : (w.note e).holding a = w.holding a := by
  cases a <;> rfl

theorem holding_tstore (w : World) (slot : Bytes32) (value : Word 32) (a : Asset) :
    (w.tstore slot value).holding a = w.holding a := by
  cases a <;> rfl

theorem holding_emit (w : World) (e : Event) (a : Asset) : (w.emit e).holding a = w.holding a := by
  cases a <;> rfl

theorem holding_setHolding (w : World) (a b : Asset) (n : Nat) :
    (w.setHolding b n).holding a = if a = b then n else w.holding a := by
  cases a with
  | eth => cases b <;> rfl
  | token t =>
    cases b with
    | eth => rfl
    | token u => simp [World.setHolding,World.holding]

/-- A record changes nothing but the total of its asset. -/
theorem addReceived_counts (w : World) (b : Asset) (sender : Address) (n : Nat) (a : Asset) :
    (addReceived w b sender n).holding a = w.holding a ∧
      broughtIn a (addReceived w b sender n).history = broughtIn a w.history ∧
      recordedTotal (· == a) (addReceived w b sender n).history =
        recordedTotal (· == a) w.history + (if b = a then n else 0) ∧
      leftTotal a (addReceived w b sender n).history = leftTotal a w.history ∧
      claimed (· == a) (addReceived w b sender n).history = claimed (· == a) w.history ∧
      (CollisionFree (slotStrings (addReceived w b sender n).history) →
        CollisionFree (slotStrings w.history)) := by
  by_cases nothing : n = 0
  · subst nothing
    rw [addReceived,if_pos rfl,ite_self]
    exact ⟨rfl,rfl,rfl,rfl,rfl,id⟩
  · rw [addReceived,if_neg nothing,holding_note,holding_tstore]
    refine ⟨rfl,rfl,?_,rfl,rfl,free_tail⟩
    change recordedTotal _ w.history + (if (b == a) = true then n else 0) = _
    simp only [beq_iff_eq]

/-- A record of another asset. -/
theorem Receipts.addOther {a b : Asset} {bs : List Nat} {R : Asset → Nat} {w : World}
    (now : Receipts a bs R w) (other : b ≠ a) (sender : Address) (n : Nat) :
    Receipts a bs R (addReceived w b sender n) := by
  obtain ⟨holding,brought,recorded,left,took,earlier⟩ := addReceived_counts w b sender n a
  rw [if_neg other,Nat.add_zero] at recorded
  refine ⟨now.replayed.addReceived b sender n,?_,?_⟩
  · rw [holding,brought,recorded]
    exact now.measured
  · intro free
    rw [left,took]
    exact now.paid (earlier free)

/-- The innermost measurement of the asset becomes a record. -/
theorem Receipts.addOwn {a : Asset} {before : Nat} {bs : List Nat} {R : Asset → Nat} {w : World}
    (now : Receipts a (before :: bs) R w) (sender : Address) :
    Receipts a bs R (addReceived w a sender (w.holding a - before)) := by
  obtain ⟨holding,brought,recorded,left,took,earlier⟩ :=
    addReceived_counts w a sender (w.holding a - before) a
  rw [if_pos rfl] at recorded
  refine ⟨now.replayed.addReceived a sender _,?_,?_⟩
  · rw [holding,brought,recorded]
    exact now.measured.stop
  · intro free
    rw [left,took]
    exact now.paid (earlier free)

theorem Receipts.recorded {a : Asset} {p : RelayPending} {ks : List Pending} {R : Asset → Nat}
    {w : World} (now : Receipts a (befores a (.relay p :: ks)) R w) :
    Receipts a (befores a ks) R (recordedBy w p) := by
  rw [recordedBy]
  cases a with
  | eth =>
    have closed := now.addOwn p.withdrawal.recipient
    split
    · exact closed
    · exact closed.addOther (by simp) _ _
  | token t =>
    by_cases measures : p.token = t ∧ t ≠ 0
    · obtain ⟨rfl,real⟩ := measures
      have started : befores (.token p.token) (.relay p :: ks) =
          p.tokenBefore :: befores (.token p.token) ks := by
        rw [befores,List.filterMap_cons,Pending.before,if_pos ⟨rfl,real⟩]
        rfl
      rw [started] at now
      have apart := now.addOther (b := .eth) (by simp) p.withdrawal.recipient
        (w.balance - p.ethBefore)
      have closed := apart.addOwn p.withdrawal.recipient
      rw [if_neg real]
      have same : (addReceived w .eth p.withdrawal.recipient (w.balance - p.ethBefore)).holding
          (.token p.token) = (addReceived w .eth p.withdrawal.recipient
            (w.balance - p.ethBefore)).tokens p.token := rfl
      rw [same] at closed
      exact closed
    · have unmeasured : befores (.token t) (.relay p :: ks) = befores (.token t) ks := by
        simp only [befores,List.filterMap_cons,Pending.before,if_neg measures]
      rw [unmeasured] at now
      have apart := now.addOther (b := .eth) (by simp) p.withdrawal.recipient
        (w.balance - p.ethBefore)
      split
      · exact apart
      · next real =>
        apply apart.addOther
        intro same
        cases same
        exact measures ⟨rfl,real⟩

/-- A settlement claims what is recorded for its sender; `extra` of it goes to the purse. -/
theorem Receipts.take {a : Asset} {bs : List Nat} {R R' : Asset → Nat} {w : World}
    (now : Receipts a bs R w) {sender : Address} {extra : Nat}
    (covered : CollisionFree (slotStrings (takenBy w sender).history) →
      extra ≤ unsettled (· == a) sender w.history) (purse : R' a = R a + extra) :
    Receipts a bs R' (takenBy w sender) := by
  refine ⟨now.replayed.taken sender,?_,?_⟩
  · have holding : (takenBy w sender).holding a = w.holding a := by
      rw [takenBy,takeReceived,holding_note,holding_tstore,holding_tstore]
    rw [holding]
    exact now.measured
  · intro free
    have before := now.paid (free_tail free)
    have more := covered free
    change leftTotal a w.history + R' a ≤
      claimed (· == a) w.history + unsettled (· == a) sender w.history
    omega

/-- What a settlement finds in the ETH slot was recorded in ETH. -/
theorem taken_eth {w : World} (replayed : Replayed w) {sender : Address}
    (free : CollisionFree (slotStrings (takenBy w sender).history)) :
    (takeReceived w sender).1.toNat ≤ unsettled (· == .eth) sender w.history := by
  have hashed : receivedString RECEIVED_ETH_SLOT_SEED sender ∈
      slotStrings (takenBy w sender).history := strings_cons.mpr (.inl List.mem_cons_self)
  have own : CollisionFree (receivedString RECEIVED_ETH_SLOT_SEED sender :: slotStrings w.history) := by
    apply free.subset
    intro string member
    rcases List.mem_cons.mp member with same | old
    · rw [same]
      exact hashed
    · exact strings_cons.mpr (.inr old)
  have held : (replay w.history _).toNat ≤ unsettled (· == .eth) sender w.history :=
    received_replay own (.inl rfl) (by
    intro b seeded
    cases b with
    | eth => rfl
    | token t => exact absurd seeded.symm (seeds_apart free))
  change (w.transient _).toNat ≤ _
  rw [replayed.storage]
  exact held

/-- What it finds in the token slot was recorded in some token. -/
theorem taken_token {w : World} (replayed : Replayed w) {sender : Address}
    (free : CollisionFree (slotStrings (takenBy w sender).history)) :
    (takeReceived w sender).2.1.toNat ≤ unsettled Asset.isToken sender w.history := by
  have hashed : receivedString RECEIVED_TOKEN_SLOT_SEED sender ∈
      slotStrings (takenBy w sender).history :=
    strings_cons.mpr (.inl (List.mem_cons_of_mem _ (List.mem_singleton_self _)))
  have own : CollisionFree (receivedString RECEIVED_TOKEN_SLOT_SEED sender ::
      slotStrings w.history) := by
    apply free.subset
    intro string member
    rcases List.mem_cons.mp member with same | old
    · rw [same]
      exact hashed
    · exact strings_cons.mpr (.inr old)
  have held : (replay w.history _).toNat ≤ unsettled Asset.isToken sender w.history :=
    received_replay own (.inr rfl) (by
    intro b seeded
    cases b with
    | eth => exact absurd seeded (seeds_apart free)
    | token t => rfl)
  change (Storage.set w.transient _ 0 _).toNat ≤ _
  rw [replayed.storage]
  by_cases cleared : receivedSlot RECEIVED_TOKEN_SLOT_SEED sender =
      receivedSlot RECEIVED_ETH_SLOT_SEED sender
  · rw [cleared,Storage.set_self]
    exact Nat.zero_le _
  · rw [Storage.set_other _ _ cleared]
    exact held

theorem refundDue_unless {terms : Terms} {keep balance bound : Nat}
    (bounded : terms.refundTo ≠ 0 → balance ≤ bound ∨ terms.fee.toNat - keep ≤ bound) :
    refundDue terms keep balance ≤ bound := by
  rw [refundDue]
  split
  · exact Nat.zero_le _
  · next refunds =>
    split
    · rcases bounded refunds with balance | fee
      · exact (Nat.min_le_right ..).trans balance
      · exact (Nat.min_le_left ..).trans fee
    · exact Nat.zero_le _

theorem Receipts.pay {a b : Asset} {bs : List Nat} {R : Asset → Nat} {w : World} {n v : Nat}
    (now : Receipts a bs (withPurse R b n) w) (enough : v ≤ n) :
    Receipts a bs (withPurse R b (n - v)) (w.pay b v) := by
  have fell : (w.pay b v).holding a ≤ w.holding a := by
    rw [World.pay,holding_note,holding_setHolding]
    split
    · next same =>
      rw [same]
      exact Nat.sub_le ..
    · exact Nat.le_refl _
  have history : (w.pay b v).history = .left b v :: w.history := by
    rw [World.pay,World.note]
    cases b <;> rfl
  refine ⟨now.replayed.pay b v,?_,?_⟩
  · rw [history]
    exact now.measured.fall fell
  · intro free
    rw [history] at free ⊢
    have before := now.paid (free_tail free)
    change leftTotal a w.history + (if b = a then v else 0) + withPurse R b (n - v) a ≤
      claimed (· == a) w.history
    rw [withPurse] at before ⊢
    by_cases same : b = a
    · subst same
      simp only [if_true] at before ⊢
      omega
    · simp only [if_neg same,if_neg (Ne.symm same)] at before ⊢
      omega

theorem Receipts.receive {a b : Asset} {bs : List Nat} {R : Asset → Nat} {w : World} {v : Nat}
    {measured : Bool} (now : Receipts a bs R w) (alone : b = a → 0 < v → bs.length ≤ 1)
    (own : b = a → (measured = true ↔ bs ≠ [])) :
    Receipts a bs R ((w.setHolding b (w.holding b + v)).note (.entered b v measured)) := by
  have history : (w.setHolding b (w.holding b + v)).history = w.history := by cases b <;> rfl
  refine ⟨now.replayed.receive b _ v measured,?_,?_⟩
  · rw [holding_note,holding_setHolding,World.note,history]
    change Covered _ (broughtIn a w.history + if b = a ∧ measured = true then v else 0)
      (recordedTotal (· == a) w.history) bs
    by_cases same : b = a
    · subst same
      have arrived := now.measured.arrive v (alone rfl)
      simp only [if_true,own rfl,true_and]
      by_cases empty : bs = []
      · simpa [empty] using arrived
      · simpa [empty] using arrived
    · rw [if_neg (Ne.symm same),if_neg (fun hit => same hit.1)]
      exact now.measured
  · intro free
    rw [World.note,history] at free ⊢
    exact now.paid (free_tail free)

theorem Receipts.consume {a : Asset} {bs : List Nat} {R : Asset → Nat} {s : World}
    {w : Withdrawal} (now : Receipts a bs R s) (msgSender target : Address)
    (granted : sponsorshipAllowance s w.recipient (withdrawalHash w) ≠ 0) :
    Receipts a bs R (consumedBy s msgSender target w) := by
  have replayed := now.replayed.consumed msgSender target granted
  refine ⟨replayed,?_,fun free => now.paid (free_tail (free_tail free))⟩
  rw [consumedBy,holding_note,holding_note,holding_tstore]
  exact now.measured

theorem Receipts.dryRun {a : Asset} {bs : List Nat} {R : Asset → Nat} {s : World}
    (now : Receipts a bs R s) (w : Withdrawal) : Receipts a bs R (dryRunBy s w) := by
  refine ⟨now.replayed.dryRun w,?_,fun free => now.paid (free_tail free)⟩
  rw [dryRunBy,holding_note,grantSponsorship,holding_tstore]
  exact now.measured

/-- A relay that starts measures the holding it finds. -/
theorem Receipts.start {a : Asset} {ks : List Pending} {R : Asset → Nat} {s : World}
    (now : Receipts a (befores a ks) R s) (w : Withdrawal) (viaRouter : Bool) (token : Address) :
    Receipts a (befores a (.relay (relayPending s w viaRouter token) :: ks)) R s := by
  have opened : Receipts a (s.holding a :: befores a ks) R s :=
    ⟨now.replayed,now.measured.start,now.paid⟩
  cases a with
  | eth => exact opened
  | token t =>
    rw [befores,List.filterMap_cons,Pending.before,relayPending]
    by_cases measures : token = t ∧ t ≠ 0
    · rw [if_pos measures]
      obtain ⟨rfl,real⟩ := measures
      simp only [if_neg real]
      exact opened
    · rw [if_neg measures]
      exact now

theorem token_unsettled (t : Address) (sender : Address) (h : List Entry) :
    unsettled Asset.isToken sender h ≤ unsettled (· == .token t) sender h +
      unsettled (fun b => b.isToken && b != .token t) sender h := by
  have split : Asset.isToken = fun b => b == .token t || (b.isToken && b != .token t) := by
    funext b
    cases b with
    | eth => rfl
    | token u => by_cases same : u = t <;> simp [Asset.isToken,same]
  have parts := unsettled_or (· == .token t) (fun b => b.isToken && b != .token t) sender h
  rw [← split] at parts
  exact parts

theorem receipts_rules (d : Deployment) (a : Asset) :
    Rules d (Fair d a) (fun _ ks R w => Receipts a (befores a ks) R w) where
  external := fun permitted => permitted.1
  spend := id
  lower := fun now less =>
    ⟨now.replayed,now.measured,fun free => (Nat.add_le_add_left (less a) _).trans (now.paid free)⟩
  emit := by
    intro g ks R w e now
    refine ⟨now.replayed.emit e,?_,now.paid⟩
    rw [holding_emit]
    exact now.measured
  settling := by
    intro g k ks R w settling
    have same : befores a (k :: ks) = befores a ks := by
      cases k <;> first | contradiction | rfl
    rw [same]
  receive := by
    intro g ks R w b v now permitted
    apply now.receive permitted
    rintro rfl
    simp
  report := by
    intro g ks R w t n now permitted
    refine ⟨now.replayed.setHolding (.token t) n,?_,now.paid⟩
    rw [holding_setHolding,if_neg permitted]
    exact now.measured
  validate := by
    intro g ks R w ctx now
    refine ⟨now.replayed.validated ctx,?_,fun free => now.paid (free_tail free)⟩
    rw [validatedBy,holding_note,grantSponsorship,holding_tstore]
    exact now.measured
  begin_ := by
    intro g ks R s w target viaRouter token now granted
    exact (now.consume _ target granted).start w viaRouter token
  simulate := by
    intro g ks R s w target viaRouter token now granted
    exact (now.dryRun w).consume _ target granted
  record := fun now _ _ => now.recorded
  take := by
    intro g ks R w m ctx cost price mode now _
    exact now.take (fun _ => Nat.zero_le _) (Nat.add_zero _).symm
  settleEth := by
    intro g ks R w m ctx cost price now _ _
    cases a with
    | eth => exact now.take (fun free => taken_eth now.replayed free) rfl
    | token t => exact now.take (fun _ => Nat.zero_le _) rfl
  settleToken := by
    intro g ks R w m ctx cost price keep now permitted token kept
    by_cases own : a = .token ctx.terms.feeToken
    · subst own
      have covered (free : CollisionFree (slotStrings (takenBy w ctx.sender).history)) :
          refundDue ctx.terms keep (takeReceived w ctx.sender).2.1.toNat ≤
            unsettled (· == .token ctx.terms.feeToken) ctx.sender w.history := by
        apply refundDue_unless
        intro refunds
        refine (permitted.2 rfl token refunds keep kept).imp_left ?_
        intro nothing
        have found := taken_token now.replayed free
        have parts := token_unsettled ctx.terms.feeToken ctx.sender w.history
        omega
      exact now.take covered (congrArg (R _ + ·) (if_pos rfl))
    · exact now.take (fun _ => Nat.zero_le _) (by simp [withPurse,own])
  pay := fun now enough _ => now.pay enough

/-- The account of the asset: nothing but settlements lowers it. -/
theorem account_rules (d : Deployment) (a : Asset) (start : Nat) :
    Rules d (Fair d a) (fun _ _ _ w =>
      start + enteredTotal a w.history ≤ w.holding a + leftTotal a w.history) where
  external := fun permitted => permitted.1
  spend := id
  lower := fun now _ => now
  emit := by
    intro g ks R w e now
    rw [holding_emit]
    exact now
  settling := fun _ => Iff.rfl
  receive := by
    intro g ks R w b v now _
    have history : (w.setHolding b (w.holding b + v)).history = w.history := by cases b <;> rfl
    rw [holding_note,holding_setHolding,World.note,history]
    change start + (enteredTotal a w.history + if b = a then v else 0) ≤ _ + leftTotal a w.history
    by_cases same : b = a
    · subst same
      simp only [if_true]
      omega
    · rw [if_neg same,if_neg (Ne.symm same)]
      exact now
  report := by
    intro g ks R w t n now permitted
    rw [holding_setHolding,if_neg permitted]
    exact now
  validate := by
    intro g ks R w ctx now
    rw [validatedBy,holding_note,grantSponsorship,holding_tstore]
    exact now
  begin_ := by
    intro g ks R s w target viaRouter token now _
    rw [consumedBy,holding_note,holding_note,holding_tstore]
    exact now
  simulate := by
    intro g ks R s w target viaRouter token now _
    rw [consumedBy,holding_note,holding_note,holding_tstore,dryRunBy,holding_note,grantSponsorship,
      holding_tstore]
    exact now
  record := by
    intro g ks R s p now _ _
    have added (s : World) (b : Asset) (sender : Address) (n : Nat)
        (now : start + enteredTotal a s.history ≤ s.holding a + leftTotal a s.history) :
        start + enteredTotal a (addReceived s b sender n).history ≤
          (addReceived s b sender n).holding a + leftTotal a (addReceived s b sender n).history := by
      rw [addReceived]
      split
      · exact now
      · rw [holding_note,holding_tstore]
        exact now
    rw [recordedBy]
    split
    · exact added _ _ _ _ now
    · exact added _ _ _ _ (added _ _ _ _ now)
  take := by
    intro g ks R w m ctx cost price mode now _
    rw [takenBy,takeReceived,holding_note,holding_tstore,holding_tstore]
    exact now
  settleEth := by
    intro g ks R w m ctx cost price now _ _
    rw [takenBy,takeReceived,holding_note,holding_tstore,holding_tstore]
    exact now
  settleToken := by
    intro g ks R w m ctx cost price keep now _ _ _
    rw [takenBy,takeReceived,holding_note,holding_tstore,holding_tstore]
    exact now
  pay := by
    intro g ks R w b n v now _ _
    have history : (w.setHolding b (w.holding b - v)).history = w.history := by cases b <;> rfl
    rw [World.pay,holding_note,holding_setHolding,World.note,history]
    change start + enteredTotal a w.history ≤ _ + (leftTotal a w.history + if b = a then v else 0)
    by_cases same : b = a
    · subst same
      simp only [if_true]
      omega
    · rw [if_neg same,if_neg (Ne.symm same)]
      exact now

/-! ### Every run -/

variable {lib : Eip7702Support} {tryRecover : Bytes32 → Bytes → Option Address} {d : Deployment}

/-- In a fair run the records came in through relays, settlements pay out no more than
that, and what was held beforehand stays. -/
theorem fair_settlement {a : Asset} {gas balance : Nat} {tokens : Address → Nat}
    {c : Config World Pending}
    (reach : Reachable (paymaster lib tryRecover d) (Fair d a)
      ⟨gas, World.initial balance tokens, []⟩ c) :
    recordedTotal (· == a) c.world.history ≤ broughtIn a c.world.history ∧
    (CollisionFree (slotStrings c.world.history) →
      leftTotal a c.world.history ≤ broughtIn a c.world.history ∧
      (World.initial balance tokens).holding a ≤ c.world.holding a) := by
  have initial : Receipts a (befores a []) (reserve []) (World.initial balance tokens) :=
    ⟨.initial balance tokens,Nat.le_refl _,fun _ => Nat.le_refl _⟩
  have receipts := (receipts_rules d a).reachable initial reach
  have account := (account_rules d a ((World.initial balance tokens).holding a)).reachable
    (Nat.le_refl _) reach
  have recorded := receipts.measured.recorded_le
  refine ⟨recorded,fun free => ?_⟩
  have paid := receipts.paid free
  have claims := claimed_le (· == a) c.world.history ∅
  rw [Finset.sum_empty] at claims
  have arrived := broughtIn_le a c.world.history
  constructor
  · omega
  · omega

end TornadoRelayer.Paymaster
