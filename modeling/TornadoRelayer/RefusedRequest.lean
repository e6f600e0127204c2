import TornadoRelayer.OneSponsorship
import TornadoRelayer.Refusal

/-! What a refused request leaves in the store: nothing of its own, if it was signable; and of
the others' entries only the expired ones go. -/
namespace TornadoRelayer

open BigEndian EventLoop JavaScript RelayerService Paymaster

variable {platform : Platform} {service : RelayerService} {op : RpcUserOperation}
  {context : SponsorContext} {log : ServiceLog} {w : World}
  {k token : String} {start : World} {c c' : RelayerConfiguration}
  {h : Journal serviceInterface Reply}

/-! ### Runs that are told -/

theorem status_idles : (do return Reply.status (← service.status) : Async Reply).Logs Idling := by
  refine logs_bind (logs_bind (silent_idles nowSeconds_quiet) fun _ => ?_) fun _ => logs_done _
  exact logs_bind (logs_act fun _ => ⟨rfl,by simp⟩) fun _ => logs_bind (silent_idles (quiet_ask _)) fun _ =>
    logs_bind (logs_act fun _ => ⟨rfl,by simp⟩) fun _ => logs_done _

theorem told_requested (told : ToldBy platform start c h) {i : Nat}
    {p : Program serviceInterface Reply} (called : h.called i = some p) :
    ∃ service, Requested platform service p := by
  induction told with
  | start => cases called
  | @step c c' h s told permitted stepped ih =>
    obtain ⟨world,waiting,current,fresh⟩ := c
    cases s with
    | call p' =>
      by_cases new : i = fresh
      · subst new
        simp only [Process.record,Function.update_self,Option.some.injEq] at called
        subst called
        obtain ⟨service,_,requested⟩ := permitted
        exact ⟨service,requested⟩
      · simp only [Process.record,Function.update_of_ne new] at called
        exact ih called
    | advance fault =>
      cases current with
      | none => contradiction
      | some running =>
        obtain ⟨j,p'⟩ := running
        cases p' with
        | done r => exact ih called
        | await query next => exact ih called
        | perform op next => exact ih called
    | resume j answer =>
      cases current with
      | some running => contradiction
      | none =>
        obtain ⟨t,found,_⟩ := Option.map_eq_some_iff.mp stepped
        simp only [Process.record,found] at called
        exact ih called
    | env e => exact ih called
    | reset r => cases called

/-- What has reserved is a request for a signature. -/
theorem told_signs (told : ToldBy platform start c h) {i : Nat} {r : Except Thrown Reply}
    (ended : h.Ended i r) (reserves : Reserves (h.logs i) k token) :
    ∃ service op context,
      h.called i = some (do return .signed (← RelayerService.sign platform service op context)) := by
  obtain ⟨p,called,ran⟩ := ended
  obtain ⟨service,requested⟩ := told_requested told called
  cases requested with
  | sign op context => exact ⟨service,op,context,called⟩
  | status => exact (Idle.unreserved (status_idles _ _ ran) k token reserves).elim

/-- A script with the journal of its run. -/
def tell (platform : Platform) (kind : StoreKind) : List Move → RelayerConfiguration →
    Journal serviceInterface Reply → Option (RelayerConfiguration × Journal serviceInterface Reply)
  | [], c, h => some (c,h)
  | m :: moves, c, h => (m.toStep platform kind False c).bind fun s =>
    (relayer.step s c).bind fun c' => tell platform kind moves c' (relayer.record s c h)

variable {kind : StoreKind} {h' : Journal serviceInterface Reply}

theorem permits_any {s : RelayerStep} (permitted : (permits platform kind False).step c s) :
    (anyRun platform).step c s := by
  cases s with
  | call p => exact permitted
  | resume i answer => exact fun _ _ => trivial
  | _ => trivial

theorem tell_told {moves : List Move} (told : ToldBy platform start c h)
    (played : tell platform kind moves c h = some (c',h')) : ToldBy platform start c' h' := by
  induction moves generalizing c h with
  | nil =>
    cases played
    exact told
  | cons m moves ih =>
    obtain ⟨s,made,rest⟩ := Option.bind_eq_some_iff.mp played
    obtain ⟨after,stepped,rest⟩ := Option.bind_eq_some_iff.mp rest
    exact ih (.step told (permits_any (Move.toStep_permitted made)) stepped) rest

/-- The request that has just been refused, if one has. -/
def refusing (c : RelayerConfiguration) : Option Nat :=
  match c.current with
  | some (i,.done (.error _)) => some i
  | _ => none

theorem told_refused (told : ToldBy platform start c h) {i : Nat} (refused : refusing c = some i) :
    ∃ thrown, h.Ended i (.error thrown) := by
  rw [refusing] at refused
  split at refused
  · next j thrown running =>
    cases refused
    exact ⟨thrown,told.ended ownGuard_sound running⟩
  · contradiction

/-- The request that has just been refused had reserved this. -/
theorem told_refusal (told : ToldBy platform start c h) {i : Nat} (refused : refusing c = some i)
    (reserved : (h.logs i).filterMap reservation = [(k,token)]) :
    Reserves (h.logs i) k token ∧ ∃ service op context thrown,
      h.called i = some (do return .signed (← RelayerService.sign platform service op context)) ∧
      h.Ended i (.error thrown) := by
  obtain ⟨thrown,ended⟩ := told_refused told refused
  have reserves : Reserves (h.logs i) k token := by
    rw [Reserves,reserved]
    exact List.mem_singleton_self _
  obtain ⟨service,op,context,called⟩ := told_signs told ended reserves
  exact ⟨reserves,service,op,context,thrown,called,ended⟩

/-- No estimate was answered, and nothing was signed. -/
def unjudged (log : ServiceLog) : Bool := log.all fun e => match e with
  | .answered (Query.estimateUserOperationGas ..) _ | .answered (Query.signMessage _) _ => false
  | _ => true

theorem unjudged_signable (unjudged : unjudged log = true) : Signable platform service op context log := by
  have none := List.all_eq_true.mp unjudged
  intro r rate claim token _ _ _
  refine ⟨?_,?_⟩
  · intro implementation simulated override res result _ asked
    cases none _ asked
  · intro hash signature asked
    cases none _ asked

/-! ### A refused request leaves its note free -/

/-- Entries go that have expired or are one's own, and those that come are one's own. -/
structure Spares (own : String → String → Prop) (now : JsNumber)
    (before after : MemorySponsorshipStore) : Prop where
  kept : ∀ k note, (k,note) ∈ before.notes.entries → (k,note) ∈ after.notes.entries ∨
    note.validUntil < now ∨ ∃ token, own k token ∧ note.token = .string token
  added : ∀ k note, (k,note) ∈ after.notes.entries → (k,note) ∈ before.notes.entries ∨
    ∃ token, own k token ∧ note.token = .string token

theorem Spares.same {own : String → String → Prop} {now : JsNumber} {store : MemorySponsorshipStore} :
    Spares own now store store := ⟨fun _ _ => .inl,fun _ _ => .inl⟩

theorem OwnOnly.spares {op : Op} (may : OwnOnly log op w) (fault : Bool) :
    Spares (Reserves (log ++ [.performed op (relayer.exec fault op w).2])) w.now w.store
      (relayer.exec fault op w).1.store := by
  cases op with
  | prune now =>
    refine ⟨fun k note member => ?_,fun k note member => .inl (InsertionMap.mem_filter.mp member).1⟩
    by_cases expired : note.validUntil < now
    · exact .inr (.inl (expired.trans_le may))
    · exact .inl (InsertionMap.mem_filter.mpr ⟨member,by simp [expired]⟩)
  | reserve key claim =>
    refine ⟨fun k note member => .inl (mem_reserve.mpr (.inl member)),fun k note member => ?_⟩
    refine (mem_reserve.mp member).imp_right ?_
    rintro ⟨free,rfl,rfl⟩
    refine ⟨_,reserves_add.mpr (.inr ?_),rfl⟩
    have granted : (relayer.exec fault (.reserve k claim) w).2 =
        .ok (sponsorshipToken w.clock (w.store.seq + 1)) := by
      simp only [relayer,World.exec,MemorySponsorshipStore.reserve]
      rw [MemorySponsorshipStore.get] at free
      rw [free]
    rw [granted]
    rfl
  | release key token =>
    refine ⟨fun k note member => ?_,fun k note member => .inl (mem_release_iff.mp member).1⟩
    by_cases taken : k = key ∧ note.token = .string token ∧ note.status = .pending
    · obtain ⟨rfl,own,_⟩ := taken
      exact .inr (.inr ⟨token,Reserves.grows _ _ may,own⟩)
    · exact .inl (mem_release_iff.mpr ⟨member,taken⟩)
  | set key next =>
    obtain ⟨held,token,found,reserves,own,rfl⟩ := may
    refine ⟨fun k note member => ?_,fun k note member => ?_⟩
    · by_cases same : k = key
      · subst same
        obtain rfl := InsertionMap.unique member (InsertionMap.get_eq_some.mp found)
        exact .inr (.inr ⟨token,Reserves.grows _ _ reserves,own⟩)
      · exact .inl (InsertionMap.mem_set.mpr (.inr ⟨same,member⟩))
    · rcases InsertionMap.mem_set.mp member with ⟨rfl,rfl⟩ | ⟨_,old⟩
      · exact .inr ⟨token,Reserves.grows _ _ reserves,own⟩
      · exact .inl old
  | writeFileSync value => cases fault <;> exact .same
  | renameSync => cases fault <;> exact .same
  | _ => exact .same

theorem told_spares (told : ToldBy platform start c h) {i : Nat} {p : Program serviceInterface Reply}
    (running : c.current = some (i,p)) {fault : Bool}
    (stepped : relayer.step (.advance fault) c = some c') :
    Spares (Reserves ((relayer.record (.advance fault) c h).logs i)) c.world.now c.world.store
      c'.world.store := by
  have explained := told.explained ownGuard_sound
  obtain ⟨world,waiting,current,fresh⟩ := c
  cases running
  cases p with
  | done r =>
    cases stepped
    cases r with
    | error e => exact .same
    | ok reply => cases reply <;> exact .same
  | await query next =>
    cases stepped
    exact .same
  | perform op next =>
    cases stepped
    have spares := (explained.may ownGuard_framed rfl).spares fault
    simp only [Process.record,Journal.add_self]
    exact spares

/-- The entry of this reservation is gone, and the note can be reserved unless another holds it. -/
structure LeftFree (store : MemorySponsorshipStore) (k token : String) : Prop where
  gone : ∀ note, (k,note) ∈ store.notes.entries → note.token ≠ .string token
  reservable : ∀ ms claim, (∃ next, (store.reserve ms k claim).2 = .ok next) ∨
    ∃ held, store.get k = some held ∧ held.token ≠ .string token

/-- In every run: a request for a signature that has been refused holds nothing in the store,
if it was signable, so that its note can be reserved again; and no step of a request touches an
entry of another that has not expired. -/
theorem refused_leaves_free (told : ToldBy platform start c h) :
    (∀ i service op context thrown,
      h.called i = some (do return .signed (← RelayerService.sign platform service op context)) →
      h.Ended i (.error thrown) → Signable platform service op context (h.logs i) →
      ∀ k token, Reserves (h.logs i) k token → LeftFree c.world.store k token) ∧
    ∀ i p fault c', c.current = some (i,p) → relayer.step (.advance fault) c = some c' →
      Spares (Reserves ((relayer.record (.advance fault) c h).logs i)) c.world.now c.world.store
        c'.world.store := by
  refine ⟨?_,fun i p fault c' running => told_spares told running⟩
  rintro i service op context thrown asked ⟨p,called,ran⟩ signable k token reserves
  obtain rfl := Option.some.inj (asked.symm.trans called)
  have refused : ServiceRuns (service.sign platform op context) (h.logs i) (.error thrown) := by
    rcases runs_bind ran with ⟨_,_,_,_,returned,_⟩ | ⟨e,refused,same⟩
    · cases (runs_done returned).2
    · exact Except.error.inj same ▸ refused
  have frees := sign_refused signable refused reserves
  have gone := (told_owned told).gone i k token
  have gone : ∀ note, (k,note) ∈ c.world.store.notes.entries → note.token ≠ .string token :=
    fun note => gone note frees.released frees.unrecorded
  refine ⟨gone,fun ms claim => ?_⟩
  cases held : c.world.store.get k with
  | none =>
    left
    rw [MemorySponsorshipStore.get] at held
    simp [MemorySponsorshipStore.reserve,held]
  | some note => exact .inr ⟨note,rfl,gone note (InsertionMap.get_eq_some.mp held)⟩

/-- A note is reserved, and the deposit does not cover it. -/
def uncovered : List Move :=
  [.boot (sampleService (.file "sponsorships.json") [SIMPLE_7702_ACCOUNT])] ++
    askDeposit (sampleOp 1 SIMPLE_7702_ACCOUNT) ++ [.answer 0 (sampleAnswers 0),.advance,.advance]

def sampleStart : World := World.first 1000000000 ⟨none,none⟩ 0

def sampleKey : String := toHex (1 : Bytes32).bytes

theorem refused_leaves_free_uncovered : ∃ c h thrown token,
    ToldBy (samplePlatform [1]) sampleStart c h ∧ h.Ended 0 (.error thrown) ∧
    Reserves (h.logs 0) sampleKey token ∧ LeftFree c.world.store sampleKey token := by
  have played : (tell (samplePlatform [1]) (.file "sponsorships.json") uncovered
      (Config.initial sampleStart) .empty).map
        (fun s => (refusing s.1,unjudged (s.2.logs 0),(s.2.logs 0).filterMap reservation)) =
      some (some 0,true,[(sampleKey,"1000000000-1")]) := by
    decide +kernel
  obtain ⟨⟨c,h⟩,reached,facts⟩ := Option.map_eq_some_iff.mp played
  simp only [Prod.mk.injEq] at facts
  obtain ⟨refused,unjudged,reserved⟩ := facts
  have told := tell_told .start reached
  obtain ⟨reserves,service,op,context,thrown,called,ended⟩ := told_refusal told refused reserved
  exact ⟨c,h,thrown,_,told,ended,reserves,(refused_leaves_free told).1 0 service op context thrown
    called ended (unjudged_signable unjudged) _ _ reserves⟩

/-- The operation at no price. -/
def freeOp : RpcUserOperation :=
  { sampleOp 1 SIMPLE_7702_ACCOUNT with maxFeePerGas := .value 0, maxPriorityFeePerGas := .value 0 }

/-- Verification gas that does not fit. -/
def oversizedOp : RpcUserOperation := { freeOp with verificationGasLimit := .value (2 ^ 128) }

/-- An initCode of `null` beside a factory. -/
def nullInitCodeOp : RpcUserOperation :=
  { freeOp with factory := some EIP7702_FACTORY, initCode := some .null }

/-- Every check passes, and the request is refused when it is hashed. -/
def unhashed (op : RpcUserOperation) : List Move :=
  [.boot (sampleService (.file "sponsorships.json") [SIMPLE_7702_ACCOUNT])] ++
    askDeposit op ++ (passChecks 0 0).take 11

/-- Who has been refused, what it had reserved, and whether that is still held. -/
def unhashedOutcome (op : RpcUserOperation) :
    Option (Option Nat × List (String × String) × Option Bool) :=
  (tell (samplePlatform [1]) (.file "sponsorships.json") (unhashed op)
    (Config.initial sampleStart) .empty).map fun s =>
      (refusing s.1,(s.2.logs 0).filterMap reservation,
        (s.1.world.store.get sampleKey).map fun note => note.heldBy "1000000000-1")

theorem refused_leaves_free_oversized :
    ¬∀ (platform : Platform) (start : World) (c : RelayerConfiguration)
      (h : Journal serviceInterface Reply), ToldBy platform start c h →
      ∀ i service op context thrown,
        h.called i = some (do return .signed (← RelayerService.sign platform service op context)) →
        h.Ended i (.error thrown) →
        ∀ k token, Reserves (h.logs i) k token → LeftFree c.world.store k token := by
  intro always
  have played : unhashedOutcome oversizedOp =
      some (some 0,[(sampleKey,"1000000000-1")],some true) := by
    decide +kernel
  obtain ⟨⟨c,h⟩,reached,facts⟩ := Option.map_eq_some_iff.mp played
  simp only [Prod.mk.injEq] at facts
  obtain ⟨refused,reserved,left⟩ := facts
  have told := tell_told .start reached
  obtain ⟨reserves,service,op,context,thrown,called,ended⟩ := told_refusal told refused reserved
  have free := always _ _ c h told 0 service op context thrown called ended _ _ reserves
  obtain ⟨note,found,own⟩ := Option.map_eq_some_iff.mp left
  exact free.gone note (InsertionMap.get_eq_some.mp found) (SponsoredNote.heldBy_iff.mp own)

example : unhashedOutcome nullInitCodeOp =
    some (some 0,[(sampleKey,"1000000000-1")],some true) := by decide +kernel

end TornadoRelayer
