import TornadoRelayer.Scripts

/-! What `findSponsoringWithdraw` accepts: one call of the paymaster, a `relayWithdraw` that
fits the rules, and no withdrawal straight from a pool beside it. The router's `withdraw` is
in neither ABI it decodes with. -/
namespace TornadoRelayer

open BigEndian

variable {decoder : Decoder} {calls : List DecodedCall} {rules : SponsorRules}

/-! ### The decoded withdrawals -/

def DecodedCall.Withdraws (decoder : Decoder) (call : DecodedCall) : Prop :=
  ∃ proof root nullifierHash recipient relayer fee refund, decoder.tornadoInstance call.data =
    some (.withdraw proof root nullifierHash recipient relayer fee refund)

theorem decodeTornadoWithdraw_paymaster {call : DecodedCall} {index : Nat} {w : TornadoWithdrawCall}
    (called : call.target = rules.paymaster) :
    decodeTornadoWithdraw decoder (some rules.paymaster) call index = some w ↔
      decoder.paymaster call.data = some (.relayWithdraw w.toWithdrawal) ∧ w.index = index ∧
        w.refund = 0 ∧ w.via = .paymaster := by
  rw [decodeTornadoWithdraw,if_pos (by simp [called])]
  obtain ⟨withdrawal,at_,refund,via⟩ := w
  split
  · next relayed decoded =>
    rw [decoded]
    constructor
    · intro same
      cases same
      simp
    · rintro ⟨same,rfl,rfl,rfl⟩
      cases same
      rfl
  · next undecoded =>
    simp only [reduceCtorEq,false_iff]
    rintro ⟨decoded,_⟩
    exact undecoded _ decoded

theorem decodeTornadoWithdraw_direct {call : DecodedCall} {index : Nat}
    (elsewhere : call.target ≠ rules.paymaster) :
    (decodeTornadoWithdraw decoder (some rules.paymaster) call index = none ↔
      ¬call.Withdraws decoder) ∧
    ∀ w, decodeTornadoWithdraw decoder (some rules.paymaster) call index = some w →
      w.index = index ∧ w.via = .direct := by
  rw [decodeTornadoWithdraw,if_neg (by simpa using Ne.symm elsewhere)]
  split
  · next decoded =>
    refine ⟨?_,?_⟩
    · simp only [reduceCtorEq,false_iff,not_not]
      exact ⟨_,_,_,_,_,_,_,decoded⟩
    · rintro w same
      cases same
      simp
  · next undecoded =>
    refine ⟨?_,by simp⟩
    simp only [true_iff]
    rintro ⟨proof,root,nullifierHash,recipient,relayer,fee,refund,decoded⟩
    exact undecoded _ _ _ _ _ _ _ decoded

theorem decodeTornadoWithdraw_index {call : DecodedCall} {index : Nat} {w : TornadoWithdrawCall}
    (decoded : decodeTornadoWithdraw decoder (some rules.paymaster) call index = some w) :
    w.index = index ∧ (w.via = .paymaster ↔ call.target = rules.paymaster) := by
  by_cases called : call.target = rules.paymaster
  · have relayed := (decodeTornadoWithdraw_paymaster called).mp decoded
    simp [relayed,called]
  · have direct := (decodeTornadoWithdraw_direct called).2 w decoded
    simp [direct,called]

theorem mem_decodeTornadoWithdraws {w : TornadoWithdrawCall} :
    w ∈ decodeTornadoWithdraws decoder calls (some rules.paymaster) ↔
      ∃ call, calls[w.index]? = some call ∧
        decodeTornadoWithdraw decoder (some rules.paymaster) call w.index = some w := by
  simp only [decodeTornadoWithdraws,List.mem_filterMap,Prod.exists,List.mem_zipIdx_iff_getElem?]
  constructor
  · rintro ⟨call,index,at_,decoded⟩
    obtain rfl := (decodeTornadoWithdraw_index decoded).1
    exact ⟨call,at_,decoded⟩
  · rintro ⟨call,at_,decoded⟩
    exact ⟨call,w.index,at_,decoded⟩

/-! ### Lists with one element of a kind -/

/-- What one place gives is all there is when no other place gives anything. -/
theorem filterMap_zipIdx_single {α β : Type} {xs : List α} {f : α × Nat → Option β} {i : Nat}
    {a : α} {b : β} (at_ : xs[i]? = some a) (given : f (a,i) = some b)
    (others : ∀ j x, xs[j]? = some x → j ≠ i → f (x,j) = none) : xs.zipIdx.filterMap f = [b] := by
  obtain ⟨bound,rfl⟩ := List.getElem?_eq_some_iff.mp at_
  have split : xs.zipIdx = xs.zipIdx.take i ++ (xs[i],i) :: xs.zipIdx.drop (i + 1) := by
    have inside : i < xs.zipIdx.length := by simpa using bound
    have here : xs.zipIdx[i] = (xs[i],i) := by simp
    rw [← here,List.cons_getElem_drop_succ,List.take_append_drop]
  have before : (xs.zipIdx.take i).filterMap f = [] := by
    apply List.filterMap_eq_nil_iff.mpr
    rintro ⟨x,j⟩ member
    obtain ⟨k,less,same⟩ := List.mem_take_iff_getElem.mp member
    simp only [List.getElem_zipIdx,Prod.mk.injEq] at same
    obtain ⟨rfl,rfl⟩ := same
    apply others
    · simp
    · omega
  have after : (xs.zipIdx.drop (i + 1)).filterMap f = [] := by
    apply List.filterMap_eq_nil_iff.mpr
    rintro ⟨x,j⟩ member
    obtain ⟨k,less,same⟩ := List.mem_drop_iff_getElem.mp member
    simp only [List.getElem_zipIdx,Prod.mk.injEq] at same
    obtain ⟨rfl,rfl⟩ := same
    apply others
    · simp
    · omega
  rw [split,List.filterMap_append,before,List.filterMap_cons,given,after]
  rfl

theorem filter_zipIdx_length {α : Type} (xs : List α) (p : α → Bool) :
    (xs.zipIdx.filter fun x => p x.1).length = (xs.filter p).length := by
  have unzipped : xs.filter p = (xs.zipIdx.filter fun x => p x.1).map Prod.fst := by
    conv_lhs => rw [← List.zipIdx_map_fst 0 xs,List.filter_map]
    rfl
  rw [unzipped,List.length_map]

/-- Two places of a list whose filter has one element. -/
theorem filter_single_index {α : Type} {xs : List α} {p : α → Bool} {i j : Nat} {a b : α}
    (single : (xs.filter p).length = 1) (ha : xs[i]? = some a) (hb : xs[j]? = some b)
    (pa : p a = true) (pb : p b = true) : i = j := by
  rw [← filter_zipIdx_length] at single
  obtain ⟨x,only⟩ := List.length_eq_one_iff.mp single
  have first : (a,i) ∈ xs.zipIdx.filter fun x => p x.1 := by
    simp [List.mem_zipIdx_iff_getElem?,ha,pa]
  have second : (b,j) ∈ xs.zipIdx.filter fun x => p x.1 := by
    simp [List.mem_zipIdx_iff_getElem?,hb,pb]
  rw [only,List.mem_singleton] at first second
  simpa using congrArg Prod.snd (first.trans second.symm)

theorem filter_single {α : Type} {xs : List α} {p : α → Bool} {i : Nat} {a : α}
    (at_ : xs[i]? = some a) (pa : p a = true)
    (others : ∀ j x, xs[j]? = some x → j ≠ i → p x = false) : (xs.filter p).length = 1 := by
  have only : xs.zipIdx.filterMap (Option.guard fun x => p x.1) = [(a,i)] := by
    apply filterMap_zipIdx_single at_
    · simp [Option.guard,pa]
    · intro j x at' apart
      simp [Option.guard,others j x at' apart]
  rw [← filter_zipIdx_length,← List.filterMap_eq_filter,only]
  rfl

/-! ### The accepted lists -/

/-- The call at `w.index` is the only one of the paymaster, and no other withdraws from a pool. -/
structure Sponsors (decoder : Decoder) (calls : List DecodedCall) (rules : SponsorRules)
    (w : TornadoWithdrawCall) : Prop where
  call : ∃ call, calls[w.index]? = some call ∧ call.target = rules.paymaster ∧ call.value = 0 ∧
    decoder.paymaster call.data = some (.relayWithdraw w.toWithdrawal)
  pool : w.pool ∈ rules.allowedInstances
  relayer : w.relayer = rules.rewardAccount
  recipient : w.recipient = rules.sender
  refund : w.refund = 0
  via : w.via = .paymaster
  alone : ∀ i call, calls[i]? = some call → i ≠ w.index → call.target ≠ rules.paymaster
  single : ∀ i call, calls[i]? = some call → i ≠ w.index → ¬call.Withdraws decoder

theorem checkSponsoring_ok_iff {w v : TornadoWithdrawCall} :
    checkSponsoring calls rules w = .ok v ↔ v = w ∧ w.relayer = rules.rewardAccount ∧
      w.recipient = rules.sender ∧ w.pool ∈ rules.allowedInstances ∧
      ∃ call, calls[w.index]? = some call ∧ call.value = 0 := by
  rw [checkSponsoring]
  by_cases relayer : w.relayer = rules.rewardAccount
  · by_cases recipient : w.recipient = rules.sender
    · by_cases pool : w.pool ∈ rules.allowedInstances
      · cases at_ : calls[w.index]? with
        | none => simp [relayer,recipient,pool]
        | some call =>
          by_cases free : call.value = 0
          · simp [relayer,recipient,pool,free,eq_comm]
          · simp [relayer,recipient,pool,free]
      · simp [relayer,recipient,pool]
    · simp [relayer,recipient]
  · simp [relayer]

/-- The paymaster is called once, by what was found. -/
theorem findSponsoringWithdraw_found {w : TornadoWithdrawCall}
    (found : findSponsoringWithdraw decoder calls rules = .ok w) :
    decodeTornadoWithdraws decoder calls (some rules.paymaster) = [w] ∧ w.via = .paymaster ∧
      (calls.filter fun c => c.target = rules.paymaster).length = 1 ∧
      checkSponsoring calls rules w = .ok w := by
  simp only [findSponsoringWithdraw] at found
  split at found
  · contradiction
  split at found
  · contradiction
  next balanced =>
  split at found
  · contradiction
  next v rest relayed =>
  split at found
  · contradiction
  next most =>
  obtain rfl := (checkSponsoring_ok_iff.mp found).1
  rw [not_not] at balanced
  have kept : w ∈ decodeTornadoWithdraws decoder calls (some rules.paymaster) ∧ w.via = .paymaster := by
    have member : w ∈ (decodeTornadoWithdraws decoder calls (some rules.paymaster)).filter
        fun w => w.via = .paymaster := by
      rw [relayed]
      exact List.mem_cons_self
    simpa using member
  have only : decodeTornadoWithdraws decoder calls (some rules.paymaster) = [w] := by
    have one : (decodeTornadoWithdraws decoder calls (some rules.paymaster)).length = 1 := by
      have some := List.length_pos_of_mem kept.1
      omega
    obtain ⟨u,single⟩ := List.length_eq_one_iff.mp one
    rw [single,List.mem_singleton] at kept
    rw [single,kept.1]
  refine ⟨only,kept.2,?_,found⟩
  rw [balanced,only]
  simp [kept.2]

theorem findSponsoringWithdraw_ok_iff {w : TornadoWithdrawCall} :
    findSponsoringWithdraw decoder calls rules = .ok w ↔ Sponsors decoder calls rules w := by
  constructor
  · intro found
    obtain ⟨only,via,once,checked⟩ := findSponsoringWithdraw_found found
    obtain ⟨_,relayer,recipient,pool,call,at_,free⟩ := checkSponsoring_ok_iff.mp checked
    have member : w ∈ decodeTornadoWithdraws decoder calls (some rules.paymaster) := by simp [only]
    obtain ⟨call',at',decoded⟩ := mem_decodeTornadoWithdraws.mp member
    cases at_.symm.trans at'
    have called := (decodeTornadoWithdraw_index decoded).2.mp via
    obtain ⟨relayed,_,refund,_⟩ := (decodeTornadoWithdraw_paymaster called).mp decoded
    have alone : ∀ i call, calls[i]? = some call → i ≠ w.index → call.target ≠ rules.paymaster := by
      intro i other at' apart called'
      exact apart (filter_single_index once at' at_ (by simp [called']) (by simp [called]))
    refine ⟨⟨call,at_,called,free,relayed⟩,pool,relayer,recipient,refund,via,alone,?_⟩
    intro i other at' apart withdraws
    have direct := @decodeTornadoWithdraw_direct decoder rules other i (alone i other at' apart)
    cases decoded' : decodeTornadoWithdraw decoder (some rules.paymaster) other i with
    | none => exact direct.1.mp decoded' withdraws
    | some u =>
      have index := (direct.2 u decoded').1
      have listed : u ∈ decodeTornadoWithdraws decoder calls (some rules.paymaster) :=
        mem_decodeTornadoWithdraws.mpr ⟨other,by rw [index]; exact ⟨at',decoded'⟩⟩
      rw [only,List.mem_singleton] at listed
      exact apart (by rw [← index,listed])
  · intro sponsors
    obtain ⟨call,at_,called,free,relayed⟩ := sponsors.call
    have decoded := (decodeTornadoWithdraw_paymaster called).mpr
      ⟨relayed,rfl,sponsors.refund,sponsors.via⟩
    have only : decodeTornadoWithdraws decoder calls (some rules.paymaster) = [w] := by
      apply filterMap_zipIdx_single at_ decoded
      intro j other at' apart
      have direct := @decodeTornadoWithdraw_direct decoder rules other j
        (sponsors.alone j other at' apart)
      exact direct.1.mpr (sponsors.single j other at' apart)
    have once : (calls.filter fun c => c.target = rules.paymaster).length = 1 := by
      apply filter_single at_
      · simp [called]
      · intro j other at' apart
        simp [sponsors.alone j other at' apart]
    have checked := checkSponsoring_ok_iff.mpr
      ⟨rfl,sponsors.relayer,sponsors.recipient,sponsors.pool,call,at_,free⟩
    simp [findSponsoringWithdraw,only,sponsors.via,once,checked]

/-! ### Other withdrawals -/

inductive RouterCall where
  | withdraw (w : Withdrawal) (refund : Word 32)
  | other

/-- The DAO's `TornadoRouter`, whose ABI the relayer does not decode with. -/
structure Router where
  address : Address
  decode : Bytes → Option RouterCall

def DecodedCall.WithdrawsByRouter (router : Router) (call : DecodedCall) : Prop :=
  call.target = router.address ∧ ∃ w refund, router.decode call.data = some (.withdraw w refund)

/-- The ways an account withdraws a note with a call of its own. -/
inductive DecodedCall.IsTornadoWithdrawal (decoder : Decoder) (router : Router)
    (paymaster : Address) (call : DecodedCall) : Prop where
  | relayWithdraw (w : Withdrawal) : call.target = paymaster →
    decoder.paymaster call.data = some (.relayWithdraw w) → IsTornadoWithdrawal decoder router paymaster call
  | pool : call.Withdraws decoder → IsTornadoWithdrawal decoder router paymaster call
  | router : call.WithdrawsByRouter router → IsTornadoWithdrawal decoder router paymaster call

/-- Every withdrawal beside the accepted one was refused, unless the router makes it. -/
theorem second_withdrawal_refused_iff {router : Router} {w : TornadoWithdrawCall}
    (found : findSponsoringWithdraw decoder calls rules = .ok w) :
    (∀ i call, calls[i]? = some call → i ≠ w.index →
      ¬call.IsTornadoWithdrawal decoder router rules.paymaster) ↔
    ∀ call ∈ calls, call.target ≠ rules.paymaster → ¬call.WithdrawsByRouter router := by
  have sponsors := findSponsoringWithdraw_ok_iff.mp found
  obtain ⟨sponsoring,at_,called,_,_⟩ := sponsors.call
  constructor
  · intro refused call member elsewhere routed
    obtain ⟨i,there⟩ := List.mem_iff_getElem?.mp member
    apply refused i call there _ (.router routed)
    rintro rfl
    cases at_.symm.trans there
    exact elsewhere called
  · intro unrouted i call there apart withdrawal
    have elsewhere := sponsors.alone i call there apart
    cases withdrawal with
    | relayWithdraw _ paymaster _ => exact elsewhere paymaster
    | pool withdraws => exact sponsors.single i call there apart withdraws
    | router routed => exact unrouted call (List.mem_of_getElem? there) elsewhere routed

def sampleRules : SponsorRules := ⟨samplePaymaster, samplePaymaster, [samplePool], sampleAccount⟩

/-- `withdraw(pool, proof, root, nullifierHash, recipient, relayer, fee, refund)`. -/
def routerWithdrawCall (w : Withdrawal) (refund : Word 32) : Bytes :=
  [0xb4, 0x38, 0x68, 0x9f] ++ toBytes 32 w.pool.toNat ++ toBytes 32 256 ++ w.root.bytes ++
    w.nullifierHash.bytes ++ toBytes 32 w.recipient.toNat ++ toBytes 32 w.relayer.toNat ++
    w.fee.bytes ++ refund.bytes ++ abiBytes w.proof

def sampleRouter : Router where
  address := 0x20073e
  decode data :=
    if data = routerWithdrawCall (sampleWithdrawal 2) 0 then some (.withdraw (sampleWithdrawal 2) 0)
    else none

/-- `transfer(to, amount)` on a token. -/
def transferCall : DecodedCall :=
  ⟨0x70ce, 0, [0xa9, 0x05, 0x9c, 0xbb] ++ toBytes 32 sampleAccount.toNat ++ toBytes 32 1⟩

def sponsoringCall : TornadoWithdrawCall :=
  { sampleWithdrawal 1 with index := 0, refund := 0, via := .paymaster }

theorem second_withdrawal_refused_transfer :
    findSponsoringWithdraw (samplePlatform [1]).decoder [sampleCall 1, transferCall] sampleRules =
      .ok sponsoringCall ∧
    ∀ i call, [sampleCall 1, transferCall][i]? = some call → i ≠ sponsoringCall.index →
      ¬call.IsTornadoWithdrawal (samplePlatform [1]).decoder sampleRouter sampleRules.paymaster := by
  have found : findSponsoringWithdraw (samplePlatform [1]).decoder [sampleCall 1, transferCall]
      sampleRules = .ok sponsoringCall := by decide +kernel
  refine ⟨found,(second_withdrawal_refused_iff found).mpr ?_⟩
  intro call member elsewhere routed
  simp only [List.mem_cons,List.not_mem_nil,or_false] at member
  rcases member with rfl | rfl
  · exact elsewhere rfl
  · exact absurd routed.1 (by decide)

/-- The router's `withdraw` of a second note beside the sponsored one. -/
theorem router_withdrawal_accepted :
    let routed : DecodedCall :=
      ⟨sampleRouter.address, 0, routerWithdrawCall (sampleWithdrawal 2) 0⟩
    findSponsoringWithdraw (samplePlatform [1]).decoder [sampleCall 1, routed] sampleRules =
      .ok sponsoringCall ∧
    ¬∀ i call, [sampleCall 1, routed][i]? = some call → i ≠ sponsoringCall.index →
      ¬call.IsTornadoWithdrawal (samplePlatform [1]).decoder sampleRouter sampleRules.paymaster := by
  refine ⟨by decide +kernel,fun refused => ?_⟩
  apply refused 1 _ rfl (by decide)
  exact .router ⟨rfl,sampleWithdrawal 2,0,by simp [sampleRouter]⟩

end TornadoRelayer
