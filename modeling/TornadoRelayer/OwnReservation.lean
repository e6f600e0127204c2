import TornadoRelayer.FailClosed
import TornadoRelayer.Journal

/-! What a request does to the store: it marks and releases the reservation it was granted and
no other, and prunes only what has expired. -/
namespace TornadoRelayer

open BigEndian EventLoop JavaScript RelayerService Paymaster

/-! ### What a request does to the store -/

/-- The key and the token of a reservation that was granted. -/
def reservation : Logged serviceInterface → Option (String × String)
  | .performed (Op.reserve k _) (.ok token) => some (k,token)
  | _ => none

def Reserves (log : ServiceLog) (k token : String) : Prop := (k,token) ∈ log.filterMap reservation

def Releases (log : ServiceLog) (k token : String) : Prop := .performed (Op.release k token) () ∈ log

/-- Some entry was marked signed. -/
def Records (log : ServiceLog) : Prop := ∃ k next, .performed (Op.set k next) () ∈ log

theorem Reserves.grows {k token : String} (log : ServiceLog) (e : Logged serviceInterface)
    (reserves : Reserves log k token) : Reserves (log ++ [e]) k token := by
  rw [Reserves,List.filterMap_append]
  exact List.mem_append_left _ reserves

theorem reserves_add {log : ServiceLog} {e : Logged serviceInterface} {k token : String} :
    Reserves (log ++ [e]) k token ↔ Reserves log k token ∨ reservation e = some (k,token) := by
  rw [Reserves,List.filterMap_append,List.mem_append]
  simp [Reserves]

/-- A request touches its own reservation only, and prunes only what has expired. -/
def OwnOnly (log : ServiceLog) : Op → World → Prop
  | .set k next, w => ∃ held token, w.store.get k = some held ∧ Reserves log k token ∧
    held.token = .string token ∧ next = { held with status := .signed }
  | .release k token, _ => Reserves log k token
  | .prune now, w => now ≤ w.now
  | _, _ => True

/-- The clock runs on; the store is left alone. -/
structure Waited (w w' : World) : Prop where
  clock : w.clock ≤ w'.clock
  store : w'.store = w.store

def ownGuard : Guard serviceInterface World := ⟨OwnOnly,Waited⟩

theorem ownGuard_framed : ownGuard.Framed where
  refl _ := ⟨le_rfl,rfl⟩
  trans first second := ⟨first.clock.trans second.clock,second.store.trans first.store⟩

variable {platform : Platform} {service : RelayerService} {op : RpcUserOperation}
  {context : SponsorContext} {log : ServiceLog} {w w' : World} {k token : String}

/-- On success it ends with `K`. -/
abbrev GuardedRequest (K : α → ServiceLog → World → Prop) (p : Async α) (log : ServiceLog)
    (w : World) : Prop :=
  Program.Guarded (I := serviceInterface) relayer.exec ownGuard
    (fun r log w => ∀ a, r = .ok a → K a log w) p log w

theorem guarded_seq {K : α → ServiceLog → World → Prop} {K' : β → ServiceLog → World → Prop}
    {p : Async α} {f : α → Async β} (first : GuardedRequest K p log w)
    (later : ∀ a log w, K a log w → GuardedRequest K' (f a) log w) :
    GuardedRequest K' (p >>= f) log w := by
  refine guarded_bind ownGuard_framed (guarded_mono first ?_)
  intro r log w holds
  cases r with
  | ok a => exact later a log w (holds a rfl)
  | error e =>
    rintro w' _ b ⟨⟩

theorem guarded_lift {K : α → ServiceLog → World → Prop} {r : Except Thrown α}
    (holds : ∀ a w', Waited w w' → K a log w') : GuardedRequest K (liftM r) log w :=
  guarded_done fun w' passed a _ => holds a w' passed

theorem guarded_pure {K : α → ServiceLog → World → Prop} {a : α}
    (holds : ∀ w', Waited w w' → K a log w') : GuardedRequest K (pure a) log w := by
  refine guarded_done ?_
  rintro w' passed _ ⟨⟩
  exact holds w' passed

theorem guarded_throw {K : α → ServiceLog → World → Prop} (e : Thrown) :
    GuardedRequest K (throw e) log w := by
  refine guarded_done ?_
  rintro w' _ a ⟨⟩

theorem guarded_perform (op : Op) {K : op.Result → ServiceLog → World → Prop}
    (step : ∀ fault w', Waited w w' → OwnOnly log op w' ∧
      ∀ w'', Waited (relayer.exec fault op w').1 w'' → K (relayer.exec fault op w').2
        (log ++ [.performed op (relayer.exec fault op w').2]) w'') :
    GuardedRequest K (perform op) log w := by
  refine guarded_act fun fault w' passed => ?_
  obtain ⟨may,after⟩ := step fault w' passed
  refine ⟨may,?_⟩
  rintro w'' later a ⟨⟩
  exact after w'' later

theorem silent_guarded {p : Async α} (quiet : p.Quiet Op.Silent) :
    GuardedRequest (fun _ _ _ => True) p log w := by
  have free (log : ServiceLog) (op : Op) (w : World) (silent : op.Silent) : ownGuard.may log op w := by
    cases op <;> trivial
  exact guarded_mono (guarded_quiet free quiet) fun _ _ _ _ _ _ => trivial

/-- The reservation is in the log to the end, however the program ends. -/
theorem Reserves.keep {K : α → ServiceLog → World → Prop} {p : Async α}
    (reserves : Reserves log k token) (guarded : GuardedRequest K p log w) :
    GuardedRequest (fun a log w => K a log w ∧ Reserves log k token) p log w := by
  refine guarded_mono (guarded_keep (fun log e => Reserves.grows log e) reserves guarded) ?_
  rintro r log w ⟨holds,kept⟩ a returned
  exact ⟨holds a returned,kept⟩

theorem releasing_guarded {K : α → ServiceLog → World → Prop} {p : Async α} {wrap : Thrown → Thrown}
    (stable : ∀ {a log w w'}, Waited w w' → K a log w → K a log w')
    (reserves : Reserves log k token) (guarded : GuardedRequest K p log w) :
    GuardedRequest K (releasing k token wrap p) log w := by
  refine guarded_catching ownGuard_framed
    (guarded_mono (guarded_keep (fun log e => Reserves.grows log e) reserves guarded) ?_)
  rintro r log w ⟨holds,kept⟩
  cases r with
  | ok a =>
    rintro w' passed a' ⟨⟩
    exact stable passed (holds a rfl)
  | error e =>
    refine guarded_seq (K := fun _ _ _ => True) (guarded_perform (.release k token) ?_) ?_
    · exact fun fault w' _ => ⟨kept,fun _ _ => trivial⟩
    · exact fun _ log w _ => guarded_throw _

/-! ### `sign` touches its own reservation only -/

theorem nowSeconds_guarded : GuardedRequest (fun now _ w => now ≤ w.now) nowSeconds log w := by
  refine guarded_seq (K := fun (ms : Nat) _ w => ((ms / 1000 : Nat) : JsNumber) ≤ w.now)
    (guarded_perform .dateNow ?_) ?_
  · intro fault w' _
    exact ⟨trivial,fun w'' later => World.now_mono later.clock⟩
  · intro ms log w before
    exact guarded_pure fun w' passed => before.trans (World.now_mono passed.clock)

/-- Writing to the disk leaves the entry that is being recorded. -/
theorem persistSigned_guarded {store : StoreKind} {next held : SponsoredNote}
    (found : w.store.get k = some held) :
    GuardedRequest (fun _ _ w => w.store.get k = some held) (persistSigned store k next) log w := by
  have still {w w' : World} (found : w.store.get k = some held) (passed : Waited w w') :
      w'.store.get k = some held := passed.store ▸ found
  cases store with
  | memory => exact guarded_pure fun w' passed => still found passed
  | file path =>
    refine guarded_seq (K := fun _ _ w => w.store.get k = some held)
      (guarded_perform .signedEntries fun fault w' passed => ⟨trivial,fun w'' later => ?_⟩) ?_
    · exact still (still found passed) later
    intro entries log w found
    refine guarded_seq (K := fun _ _ w => w.store.get k = some held)
      (guarded_perform (.writeFileSync _) fun fault w' passed => ⟨trivial,fun w'' later => ?_⟩) ?_
    · have kept : (relayer.exec fault (.writeFileSync (storedNotes (entries.set k next))) w').1.store =
          w'.store := by cases fault <;> rfl
      rw [later.store,kept,passed.store,found]
    intro written log w found
    refine guarded_seq (K := fun _ _ w => w.store.get k = some held)
      (guarded_lift fun _ w' passed => still found passed) ?_
    intro _ log w found
    refine guarded_seq (K := fun _ _ w => w.store.get k = some held)
      (guarded_perform .renameSync fun fault w' passed => ⟨trivial,fun w'' later => ?_⟩) ?_
    · have kept : (relayer.exec fault .renameSync w').1.store = w'.store := by cases fault <;> rfl
      rw [later.store,kept,passed.store,found]
    intro renamed log w found
    exact guarded_lift fun _ w' passed => still found passed

theorem commit_guarded {store : StoreKind} (reserves : Reserves log k token) :
    GuardedRequest (fun _ _ _ => True) (commit store k token) log w := by
  refine guarded_seq (K := fun (held : Option SponsoredNote) log w => w.store.get k = held ∧
    Reserves log k token) (reserves.keep (guarded_perform (.get k) ?_)) ?_
  · exact fun fault w' passed => ⟨trivial,fun w'' later => by rw [later.store]; rfl⟩
  rintro held log w ⟨found,reserves⟩
  cases held with
  | none => exact guarded_throw _
  | some held =>
    by_cases own : held.heldBy token = true
    · simp only [own,if_true]
      have holder := SponsoredNote.heldBy_iff.mp own
      refine guarded_seq (reserves.keep (persistSigned_guarded found)) ?_
      rintro _ log w ⟨found,reserves⟩
      refine guarded_perform (.set k _) fun fault w' passed => ⟨?_,fun _ _ => trivial⟩
      exact ⟨held,token,passed.store ▸ found,reserves,holder,rfl⟩
    · simp only [own]
      exact guarded_throw _

theorem checkReserved_quiet (platform : Platform) (service : RelayerService) (op : RpcUserOperation)
    (r : CheckedRequest) (now : JsNumber) :
    (service.checkReserved platform op r now).Quiet Op.Silent := by
  have covers : (service.assertDepositCovers platform r.maxGasCostWei now).Quiet Op.Silent :=
    quiet_bind (quiet_lift _) fun _ =>
      quiet_bind (quiet_catching (quiet_ask _) fun _ => trivial) fun _ =>
      quiet_bind (quiet_act (I := serviceInterface) trivial) fun _ => quiet_lift _
  exact quiet_bind (resolveSenderImplementation_quiet service op) fun _ =>
    quiet_bind covers fun _ => quiet_bind (assertRegistrationCurrent_quiet service) fun _ =>
    quiet_bind (assertWithdrawSimulates_quiet platform _) fun _ =>
    quiet_bind (assertBundlerSimulates_quiet platform service op _) fun _ => quiet_lift _

theorem signReserved_guarded {r : CheckedRequest} {tokenPerEth : Int} {now : JsNumber}
    (reserves : Reserves log r.key token) :
    GuardedRequest (fun _ _ _ => True) (service.signReserved platform op r tokenPerEth now token)
      log w := by
  have free {α : Type} {w : World} {log : ServiceLog} {r : Except Thrown α} :
      GuardedRequest (fun _ _ _ => True) (liftM r) log w := guarded_lift fun _ _ _ => trivial
  have released {α : Type} {w : World} {log : ServiceLog} {p : Async α} {wrap : Thrown → Thrown}
      (reserves : Reserves log r.key token) (guarded : GuardedRequest (fun _ _ _ => True) p log w) :
      GuardedRequest (fun _ log _ => True ∧ Reserves log r.key token) (releasing r.key token wrap p)
        log w :=
    reserves.keep (releasing_guarded (fun _ _ => trivial) reserves guarded)
  refine guarded_seq (released reserves (silent_guarded (checkReserved_quiet ..))) ?_
  intro implementation log w kept
  refine guarded_seq (kept.2.keep free) ?_
  intro terms log w kept
  refine guarded_seq (kept.2.keep free) ?_
  intro hash log w kept
  refine guarded_seq (released kept.2 (silent_guarded (quiet_ask _))) ?_
  intro signature log w kept
  refine guarded_seq (released kept.2 (commit_guarded kept.2)) ?_
  intro _ log w _
  exact guarded_seq free fun _ _ _ _ => guarded_pure fun _ _ => trivial

theorem sign_guarded :
    GuardedRequest (fun _ _ _ => True) (service.sign platform op context) log w := by
  have free {α : Type} {w : World} {log : ServiceLog} {r : Except Thrown α} :
      GuardedRequest (fun _ _ _ => True) (liftM r) log w := guarded_lift fun _ _ _ => trivial
  refine guarded_seq free fun r log w _ => ?_
  refine guarded_seq (silent_guarded (rateFor_quiet _)) fun tokenPerEth log w _ => ?_
  refine guarded_seq free fun _ log w _ => ?_
  refine guarded_seq nowSeconds_guarded fun now log w timed => ?_
  refine guarded_seq (K := fun _ _ _ => True) (guarded_perform (.prune now) ?_) fun _ log w _ => ?_
  · exact fun fault w' passed => ⟨timed.trans (World.now_mono passed.clock),fun _ _ => trivial⟩
  refine guarded_seq free fun nonce log w _ => ?_
  refine guarded_seq (K := fun (reserved : Except SponsoredNote String) log _ => ∀ token,
    reserved = .ok token → Reserves log r.key token) (guarded_perform (.reserve r.key _) ?_) ?_
  · intro fault w' _
    refine ⟨trivial,fun w'' _ token granted => ?_⟩
    rw [granted]
    exact reserves_add.mpr (.inr rfl)
  intro reserved log w reserves
  cases reserved with
  | error held => exact guarded_throw _
  | ok token => exact signReserved_guarded (reserves token rfl)

theorem status_guarded : GuardedRequest (fun _ _ _ => True) service.status log w := by
  refine guarded_seq nowSeconds_guarded fun now log w timed => ?_
  refine guarded_seq (K := fun _ _ _ => True) (guarded_perform (.prune now) ?_) fun _ log w _ => ?_
  · exact fun fault w' passed => ⟨timed.trans (World.now_mono passed.clock),fun _ _ => trivial⟩
  refine silent_guarded (quiet_bind (quiet_ask _) fun _ => ?_)
  exact quiet_bind (quiet_act (I := serviceInterface) trivial) fun _ => trivial

/-- Requests of a running service, any answers, and processes that stop and start. -/
def anyRun (platform : Platform) : Permits serviceInterface Reply World Surroundings Restart where
  call w p := ∃ service, w.service = some service ∧ Requested platform service p
  answer _ _ _ _ := True
  env _ _ := True
  reset _ _ := True

theorem ownGuard_sound : ownGuard.Sound relayer (anyRun platform) where
  toFramed := ownGuard_framed
  env e w _ := by
    cases e with
    | tick ms => exact ⟨Nat.le_add_right _ _,rfl⟩
    | topUp amount => exact ⟨le_rfl,rfl⟩
    | inclusion n charge => exact ⟨le_rfl,rfl⟩
  call := by
    rintro w p ⟨service,_,requested⟩
    have guarded : GuardedRequest (fun _ _ _ => True) p [] w := by
      cases requested with
      | sign op context =>
        exact guarded_seq sign_guarded fun _ _ _ _ => guarded_pure fun _ _ => trivial
      | status => exact guarded_seq status_guarded fun _ _ _ _ => guarded_pure fun _ _ => trivial
    exact guarded_mono guarded fun _ _ _ _ => trivial

/-! ### Whose an entry is -/

/-- A reserved token is its request's alone. An entry with it is pending until the request
records it, and gone once the request has released it unrecorded. -/
structure Owned (store : MemorySponsorshipStore) (logs : Nat → ServiceLog) : Prop where
  minted : ∀ i k token, Reserves (logs i) k token →
    ∃ ms n, token = sponsorshipToken ms n ∧ n ≤ store.seq
  alone : ∀ i j k k' token, Reserves (logs i) k token → Reserves (logs j) k' token → i = j
  freed : ∀ i k token, Releases (logs i) k token → Reserves (logs i) k token
  pending : ∀ i k token note, Reserves (logs i) k token → (k,note) ∈ store.notes.entries →
    note.token = .string token → note.status = .signed → Records (logs i)
  gone : ∀ i k token note, Releases (logs i) k token → ¬Records (logs i) →
    (k,note) ∈ store.notes.entries → note.token ≠ .string token

variable {store : MemorySponsorshipStore} {logs logs' : Nat → ServiceLog}

variable {i j : Nat} {e : Logged serviceInterface}

/-- What one more entry says of a log is said of the request that wrote it. -/
theorem log_update (P : ServiceLog → Prop) {said : Prop}
    (add : ∀ log, P (log ++ [e]) ↔ P log ∨ said) :
    P (Function.update logs i (logs i ++ [e]) j) ↔ P (logs j) ∨ (j = i ∧ said) := by
  by_cases same : j = i
  · subst same
    rw [Function.update_self,add]
    simp
  · rw [Function.update_of_ne same]
    simp [same]

theorem reserves_update : Reserves (Function.update logs i (logs i ++ [e]) j) k token ↔
    Reserves (logs j) k token ∨ (j = i ∧ reservation e = some (k,token)) :=
  log_update (Reserves · k token) fun _ => reserves_add

theorem releases_update : Releases (Function.update logs i (logs i ++ [e]) j) k token ↔
    Releases (logs j) k token ∨ (j = i ∧ e = .performed (Op.release k token) ()) := by
  apply log_update (Releases · k token)
  intro log
  rw [Releases,List.mem_append,List.mem_singleton]
  simp [Releases,eq_comm]

theorem records_update : Records (Function.update logs i (logs i ++ [e]) j) ↔
    Records (logs j) ∨ (j = i ∧ ∃ k next, e = .performed (Op.set k next) ()) := by
  apply log_update Records
  intro log
  simp only [Records,List.mem_append,List.mem_singleton,exists_or,eq_comm]

theorem reserves_kept (unreserved : reservation e = none) :
    Reserves (Function.update logs i (logs i ++ [e]) j) k token ↔ Reserves (logs j) k token := by
  simp [reserves_update,unreserved]

theorem releases_kept (unreleased : ∀ k token, e ≠ .performed (Op.release k token) ()) :
    Releases (Function.update logs i (logs i ++ [e]) j) k token ↔ Releases (logs j) k token := by
  simp [releases_update,unreleased]

theorem records_kept (unset : ∀ k next, e ≠ .performed (Op.set k next) ()) :
    Records (Function.update logs i (logs i ++ [e]) j) ↔ Records (logs j) := by
  simp [records_update,unset]

/-- Entries may go, and logs may grow by what is none of the three. -/
theorem Owned.fewer (owned : Owned store logs) {notes : Notes} (i : Nat)
    (sub : ∀ k note, (k,note) ∈ notes.entries → (k,note) ∈ store.notes.entries)
    (unreserved : reservation e = none) (unreleased : ∀ k token, e ≠ .performed (Op.release k token) ())
    (unset : ∀ k next, e ≠ .performed (Op.set k next) ()) :
    Owned { store with notes } (Function.update logs i (logs i ++ [e])) := by
  refine ⟨?_,?_,?_,?_,?_⟩
  · exact fun j k token r => owned.minted j k token ((reserves_kept unreserved).mp r)
  · exact fun j j' k k' token r r' => owned.alone j j' k k' token ((reserves_kept unreserved).mp r)
      ((reserves_kept unreserved).mp r')
  · exact fun j k token r => (reserves_kept unreserved).mpr
      (owned.freed j k token ((releases_kept unreleased).mp r))
  · exact fun j k token note r member own signed => (records_kept unset).mpr
      (owned.pending j k token note ((reserves_kept unreserved).mp r) (sub k note member) own signed)
  · exact fun j k token note r unrecorded member =>
      owned.gone j k token note ((releases_kept unreleased).mp r)
        (fun recorded => unrecorded ((records_kept unset).mpr recorded)) (sub k note member)

theorem Owned.release (owned : Owned store logs) (reserved : Reserves (logs i) k token) :
    Owned (store.release k token)
      (Function.update logs i (logs i ++ [.performed (Op.release k token) ()])) := by
  have seq : (store.release k token).seq = store.seq := by rw [release_notes]
  have unset (k' : String) (next : SponsoredNote) :
      (.performed (Op.release k token) () : Logged serviceInterface) ≠ .performed (Op.set k' next) () := by
    simp
  refine ⟨?_,?_,?_,?_,?_⟩
  · intro j k' token' r
    rw [seq]
    exact owned.minted j k' token' ((reserves_kept rfl).mp r)
  · exact fun j j' k' k'' token' r r' =>
      owned.alone j j' k' k'' token' ((reserves_kept rfl).mp r) ((reserves_kept rfl).mp r')
  · intro j k' token' r
    rw [reserves_kept rfl]
    rcases releases_update.mp r with old | ⟨rfl,same⟩
    · exact owned.freed j k' token' old
    · obtain ⟨rfl,rfl⟩ : k = k' ∧ token = token' := by simpa using same
      exact reserved
  · intro j k' token' note r member own signed
    exact (records_kept unset).mpr (owned.pending j k' token' note ((reserves_kept rfl).mp r)
      (mem_release_iff.mp member).1 own signed)
  · intro j k' token' note r unrecorded member own
    rw [records_kept unset] at unrecorded
    obtain ⟨old,kept⟩ := mem_release_iff.mp member
    rcases releases_update.mp r with before | ⟨rfl,same⟩
    · exact owned.gone j k' token' note before unrecorded old own
    · obtain ⟨rfl,rfl⟩ : k = k' ∧ token = token' := by simpa using same
      cases status : note.status with
      | pending => exact kept ⟨rfl,own,status⟩
      | signed => exact unrecorded (owned.pending j k token note reserved old own status)

theorem Owned.set (owned : Owned store logs) {held : SponsoredNote}
    (reserved : Reserves (logs i) k token) (own : held.token = .string token) :
    Owned (store.set k { held with status := .signed }) (Function.update logs i
      (logs i ++ [.performed (Op.set k { held with status := .signed }) ()])) := by
  have unreleased (k' token' : String) : (.performed (Op.set k { held with status := .signed }) () :
      Logged serviceInterface) ≠ .performed (Op.release k' token') () := by simp
  have recorded : Records (Function.update logs i
      (logs i ++ [.performed (Op.set k { held with status := .signed }) ()]) i) :=
    records_update.mpr (.inr ⟨rfl,_,_,rfl⟩)
  -- The token of the new entry is that of request `i` only.
  have mine {j : Nat} {k' token' : String} (r : Reserves (logs j) k' token')
      (same : held.token = .string token') : i = j := by
    rw [own] at same
    exact owned.alone i j k k' token reserved ((Json.string.inj same) ▸ r)
  refine ⟨?_,?_,?_,?_,?_⟩
  · exact fun j k' token' r => owned.minted j k' token' ((reserves_kept rfl).mp r)
  · exact fun j j' k' k'' token' r r' =>
      owned.alone j j' k' k'' token' ((reserves_kept rfl).mp r) ((reserves_kept rfl).mp r')
  · exact fun j k' token' r =>
      (reserves_kept rfl).mpr (owned.freed j k' token' ((releases_kept unreleased).mp r))
  · intro j k' token' note r member own' signed
    rw [reserves_kept rfl] at r
    rcases InsertionMap.mem_set.mp member with ⟨_,rfl⟩ | ⟨_,old⟩
    · exact mine r own' ▸ recorded
    · exact records_update.mpr (.inl (owned.pending j k' token' note r old own' signed))
  · intro j k' token' note r unrecorded member own'
    rw [releases_kept unreleased] at r
    rcases InsertionMap.mem_set.mp member with ⟨_,rfl⟩ | ⟨_,old⟩
    · exact unrecorded (mine (owned.freed j k' token' r) own' ▸ recorded)
    · exact owned.gone j k' token' note r
        (fun before => unrecorded (records_update.mpr (.inl before))) old own'

/-- The token is new, so that no log has it yet. -/
theorem Owned.unminted (owned : Owned store logs) {ms : Nat}
    (reserved : Reserves (logs i) k (sponsorshipToken ms (store.seq + 1))) : False := by
  obtain ⟨_,n,same,le⟩ := owned.minted i k _ reserved
  have counter := sponsorshipToken_injective same
  omega

theorem Owned.reserve (owned : Owned store logs) (i ms : Nat) (k : String) (claim : NoteClaim) :
    Owned (store.reserve ms k claim).1 (Function.update logs i
      (logs i ++ [.performed (Op.reserve k claim) (store.reserve ms k claim).2])) := by
  cases free : store.notes.get k with
  | some held =>
    have refused : store.reserve ms k claim = (store,.error held) := by
      rw [MemorySponsorshipStore.reserve,free]
    rw [refused]
    exact owned.fewer i (fun _ _ member => member) rfl (by simp) (by simp)
  | none =>
    let token := sponsorshipToken ms (store.seq + 1)
    have granted : store.reserve ms k claim =
        (⟨store.notes.set k ⟨claim,.pending,.string token⟩,store.seq + 1⟩,.ok token) := by
      rw [MemorySponsorshipStore.reserve,free]
    have entry {k' : String} {note : SponsoredNote}
        (member : (k',note) ∈ (store.notes.set k ⟨claim,.pending,.string token⟩).entries) :
        (k',note) ∈ store.notes.entries ∨ note = ⟨claim,.pending,.string token⟩ := by
      rcases InsertionMap.mem_set.mp member with ⟨_,new⟩ | ⟨_,old⟩
      · exact .inr new
      · exact .inl old
    rw [granted]
    have reserves (j : Nat) (k' token' : String) : Reserves (Function.update logs i
        (logs i ++ [.performed (Op.reserve k claim) (.ok token)]) j) k' token' ↔
        Reserves (logs j) k' token' ∨ (j = i ∧ k = k' ∧ token = token') := by
      simp [reserves_update,reservation]
    have unreleased (k' token' : String) : (.performed (Op.reserve k claim) (.ok token) :
        Logged serviceInterface) ≠ .performed (Op.release k' token') () := by simp
    have unset (k' : String) (next : SponsoredNote) : (.performed (Op.reserve k claim) (.ok token) :
        Logged serviceInterface) ≠ .performed (Op.set k' next) () := by simp
    refine ⟨?_,?_,?_,?_,?_⟩
    · intro j k' token' r
      rcases (reserves ..).mp r with old | ⟨_,_,rfl⟩
      · obtain ⟨t,n,same,le⟩ := owned.minted j k' token' old
        exact ⟨t,n,same,Nat.le_succ_of_le le⟩
      · exact ⟨ms,store.seq + 1,rfl,le_rfl⟩
    · intro j j' k' k'' token' r r'
      rcases (reserves ..).mp r with old | ⟨rfl,_,rfl⟩
      · rcases (reserves ..).mp r' with old' | ⟨_,_,rfl⟩
        · exact owned.alone j j' k' k'' token' old old'
        · exact (owned.unminted old).elim
      · rcases (reserves ..).mp r' with old' | ⟨rfl,_,_⟩
        · exact (owned.unminted old').elim
        · rfl
    · exact fun j k' token' r =>
        (reserves ..).mpr (.inl (owned.freed j k' token' ((releases_kept unreleased).mp r)))
    · intro j k' token' note r member own signed
      rw [records_kept unset]
      rcases entry member with old | rfl
      · rcases (reserves ..).mp r with before | ⟨_,rfl,_⟩
        · exact owned.pending j k' token' note before old own signed
        · rw [InsertionMap.get_eq_some.mpr old] at free
          cases free
      · cases signed
    · intro j k' token' note r unrecorded member own
      rw [releases_kept unreleased] at r
      rw [records_kept unset] at unrecorded
      rcases entry member with old | rfl
      · exact owned.gone j k' token' note r unrecorded old own
      · exact owned.unminted (Json.string.inj own ▸ owned.freed j k' token' r)

/-! ### Every run -/

theorem Owned.step (owned : Owned w.store logs) {op : Op} (fault : Bool) (may : OwnOnly (logs i) op w) :
    Owned (relayer.exec fault op w).1.store
      (Function.update logs i (logs i ++ [.performed op (relayer.exec fault op w).2])) := by
  cases op with
  | reserve k claim => exact owned.reserve i w.clock k claim
  | release k token => exact owned.release may
  | set k next =>
    obtain ⟨held,token,_,reserved,own,rfl⟩ := may
    exact owned.set reserved own
  | prune now =>
    exact owned.fewer i (fun _ _ member => (InsertionMap.mem_filter.mp member).1) rfl (by simp)
      (by simp)
  | writeFileSync value =>
    cases fault <;> exact owned.fewer i (fun _ _ member => member) rfl (by simp) (by simp)
  | renameSync =>
    cases fault <;> exact owned.fewer i (fun _ _ member => member) rfl (by simp) (by simp)
  | _ => exact owned.fewer i (fun _ _ member => member) rfl (by simp) (by simp)

variable {start : World} {c c' : RelayerConfiguration} {h : Journal serviceInterface Reply}

abbrev ToldBy (platform : Platform) (start : World) (c : RelayerConfiguration)
    (h : Journal serviceInterface Reply) : Prop :=
  Told relayer (anyRun platform) start c h

theorem told_owned (told : ToldBy platform start c h) : Owned c.world.store h.logs := by
  have nothing (store : MemorySponsorshipStore) : Owned store fun _ => [] := by
    constructor <;> simp [Reserves,Releases]
  induction told with
  | start => exact nothing _
  | @step c c' h s told permitted stepped ih =>
    have explained := told.explained ownGuard_sound
    obtain ⟨world,waiting,current,fresh⟩ := c
    cases s with
    | call p =>
      cases current with
      | some running => contradiction
      | none =>
        cases stepped
        exact ih
    | advance fault =>
      cases current with
      | none => contradiction
      | some running =>
        obtain ⟨i,p⟩ := running
        cases p with
        | done r =>
          cases stepped
          cases r with
          | error e => exact ih
          | ok reply => cases reply <;> exact ih
        | await query next =>
          cases stepped
          exact ih
        | perform op next =>
          cases stepped
          exact ih.step fault (explained.may ownGuard_framed rfl)
    | resume i answer =>
      cases current with
      | some running => contradiction
      | none =>
        obtain ⟨t,found,moved⟩ := Option.map_eq_some_iff.mp stepped
        cases moved
        simp only [Process.record,found]
        exact ih.fewer i (fun _ _ member => member) rfl (by simp) (by simp)
    | env e =>
      cases stepped
      rw [(ownGuard_sound.env e world permitted).store]
      exact ih
    | reset r =>
      cases stepped
      exact nothing _

end TornadoRelayer
