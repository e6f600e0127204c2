import TornadoRelayer.Requests

/-! `sign` and `status` against the invariants, one await and one operation at a time. -/
namespace TornadoRelayer

open BigEndian EventLoop JavaScript RelayerService

/-! ### What only reads -/

def Op.Silent : Op → Prop
  | .dateNow | .get _ | .signedEntries | .outstanding _ => True
  | _ => False

theorem silent_still (fault : Bool) (op : Op) (w : World) (silent : op.Silent) :
    (relayer.exec fault op w).1 = w := by
  cases op <;> first | rfl | exact silent.elim

theorem rateFor_quiet (info : InstanceInfo) : (rateFor info).Quiet Op.Silent := by
  rw [rateFor]
  split
  · trivial
  · exact quiet_catching (quiet_ask _) fun _ => trivial

theorem nowSeconds_quiet : nowSeconds.Quiet Op.Silent :=
  quiet_bind (quiet_act (I := serviceInterface) trivial) fun _ => trivial

variable (platform : Platform) (service : RelayerService)

theorem resolveSenderImplementation_quiet (op : RpcUserOperation) :
    (service.resolveSenderImplementation op).Quiet Op.Silent := by
  rw [resolveSenderImplementation]
  split
  · exact quiet_lift _
  · exact quiet_bind (quiet_ask _) fun _ => quiet_bind (quiet_lift _) fun _ => quiet_lift _

theorem assertRegistrationCurrent_quiet : service.assertRegistrationCurrent.Quiet Op.Silent := by
  rw [assertRegistrationCurrent]
  split
  · trivial
  · exact quiet_bind (quiet_catching (quiet_ask _) fun _ => trivial) fun _ => quiet_lift _

theorem assertWithdrawSimulates_quiet (w : Withdrawal) :
    (assertWithdrawSimulates platform w).Quiet Op.Silent :=
  quiet_bind (quiet_ask _) fun _ => quiet_bind (quiet_lift _) fun _ =>
    quiet_bind (quiet_catching (quiet_ask _) fun _ => trivial) fun _ => quiet_lift _

theorem stateOverride_quiet (op : RpcUserOperation) : (stateOverride op).Quiet Op.Silent := by
  rw [stateOverride]
  split
  · trivial
  · exact quiet_bind (quiet_ask _) fun _ => trivial

theorem assertBundlerSimulates_quiet (op : RpcUserOperation) (refundTo : Option Address) :
    (service.assertBundlerSimulates platform op refundTo).Quiet Op.Silent := by
  have estimate (simulated : RpcUserOperation) (override : Option (Address × Bytes)) :
      (service.estimateUserOperationGas platform simulated override).Quiet Op.Silent :=
    quiet_bind (quiet_catching (quiet_ask _) fun _ => trivial) fun _ => quiet_lift _
  exact quiet_bind (quiet_lift _) fun _ => quiet_bind nowSeconds_quiet fun _ =>
    quiet_bind (quiet_lift _) fun _ => quiet_bind (quiet_lift _) fun _ =>
    quiet_bind (stateOverride_quiet op) fun _ =>
    quiet_bind (quiet_catching (estimate _ _) fun _ => trivial) fun _ => quiet_lift _

/-! ### Soundness of the logic -/

variable {platform service} {kind : StoreKind} {budgeted : Prop} {i : Nat} {g : Reservations}
  {w : World}

abbrev SafeRequest (platform : Platform) (kind : StoreKind) (budgeted : Prop) (i : Nat)
    (K : α → Reservations → World → Prop) (p : Async α) (g : Reservations) (w : World) : Prop :=
  Safe relayer (permits platform kind budgeted) (logic kind budgeted) i (OnSuccess K) p g w

/-- Nothing but the store and the disk changes, and no other request's reservation. -/
theorem keeps_others {g g' : Reservations} (other : ∀ j, j ≠ i → g' j = g j)
    (store : MemorySponsorshipStore) (disk : Disk) :
    ∀ j, j ≠ i → (logic kind budgeted).rely j g w g' { w with store, disk } :=
  fun j apart => ⟨other j apart,Grown.within w store disk⟩

/-- The service is running. -/
def Up (service : RelayerService) (_ : Reservations) (w : World) : Prop := w.service = some service

/-- It is, and the request has this reservation. -/
def Holding (service : RelayerService) (i : Nat) (r : Reservation) (g : Reservations) (w : World) :
    Prop :=
  w.service = some service ∧ g i = some r

theorem Up.closed {g g' : Reservations} {w w' : World} (up : Up service g w)
    (relied : (logic kind budgeted).rely i g w g' w') : Up service g' w' :=
  relied.2.service.trans up

theorem Holding.closed {r : Reservation} {g g' : Reservations} {w w' : World}
    (holding : Holding service i r g w) (relied : (logic kind budgeted).rely i g w g' w') :
    Holding service i r g' w' :=
  ⟨relied.2.service.trans holding.1,relied.1.trans holding.2⟩

theorem Holding.stable {r : Reservation} {w' : World} (passed : Passed w w')
    (holding : Holding service i r g w) : Holding service i r g w' :=
  ⟨passed.service.trans holding.1,holding.2⟩

theorem logic_framed : (logic kind budgeted).Framed where
  tickRefl := Passed.refl
  tickTrans := Passed.trans
  tickRely _ passed := ⟨rfl,passed.toGrown⟩
  relyTrans first second := ⟨second.1.trans first.1,first.2.trans second.2⟩

theorem Up.quiet {p : Async α} (up : Up service g w) (quiet : p.Quiet Op.Silent) :
    SafeRequest platform kind budgeted i (fun _ => Up service) p g w :=
  safe_quiet logic_framed silent_still (fun up relied => Up.closed (i := i) up relied) quiet up

theorem Holding.quiet {r : Reservation} {p : Async α} (holding : Holding service i r g w)
    (quiet : p.Quiet Op.Silent) :
    SafeRequest platform kind budgeted i (fun _ => Holding service i r) p g w :=
  safe_quiet logic_framed silent_still (fun holding relied => Holding.closed holding relied) quiet
    holding

theorem perform_safe (op : Op) {K : Reservations → World → Prop}
    {K' : op.Result → Reservations → World → Prop}
    (stable : ∀ {w'}, Passed w w' → K g w → K g w') (now : K g w)
    (step : ∀ s fault, K g s → Invariant kind budgeted g s →
      ∃ g', Invariant kind budgeted g' (relayer.exec fault op s).1 ∧
        (∀ j, j ≠ i → (logic kind budgeted).rely j g s g' (relayer.exec fault op s).1) ∧
        K' (relayer.exec fault op s).2 g' (relayer.exec fault op s).1) :
    SafeRequest platform kind budgeted i K' (perform op) g w :=
  safe_act (I := serviceInterface) stable now step

theorem await_safe (query : Query) {K : Reservations → World → Prop}
    {K' : query.Answer → Reservations → World → Prop}
    (stable : ∀ {w'}, Passed w w' → K g w → K g w') (now : K g w)
    (step : ∀ s g' s' a, K g s → Invariant kind budgeted g s → Invariant kind budgeted g' s' →
      (logic kind budgeted).rely i g s g' s' →
      (permits platform kind budgeted).answer query s s' (.ok a) → K' a g' s') :
    SafeRequest platform kind budgeted i K' (await query) g w :=
  safe_ask (I := serviceInterface) stable now step

/-! ### Before the reservation -/

/-- The time a request works with: what is issued and valid then is still recorded. -/
def Timed (service : RelayerService) (now : JsNumber) (_ : Reservations) (w : World) : Prop :=
  w.service = some service ∧ now ≤ w.now ∧ Recorded w.store.notes now w.issued

theorem Timed.stable {now : JsNumber} {w' : World} (passed : Passed w w')
    (timed : Timed service now g w) : Timed service now g w' := by
  obtain ⟨up,past,recorded⟩ := timed
  refine ⟨passed.service.trans up,past.trans passed.toGrown.later,?_⟩
  rw [passed.store,passed.same]
  exact recorded

theorem nowSeconds_safe (up : Up service g w) :
    SafeRequest platform kind budgeted i (fun now => Timed service now) nowSeconds g w := by
  refine safe_seq (K := fun ms => Timed service ((ms / 1000 : Nat) : JsNumber))
    (perform_safe .dateNow (K := Up service) (fun passed up => passed.service.trans up) up ?_) fun ms g w timed =>
    safe_pure timed
  intro s fault up inv
  exact ⟨g,inv,fun j _ => ⟨rfl,(Passed.refl s).toGrown⟩,up,le_rfl,inv.live.memory service up⟩

theorem prune_safe {now : JsNumber} (timed : Timed service now g w) :
    SafeRequest platform kind budgeted i (fun _ => Timed service now)
      (perform (.prune now)) g w := by
  refine perform_safe _ (K := Timed service now) (fun passed timed => timed.stable passed) timed ?_
  rintro s fault ⟨up,past,recorded⟩ inv
  refine ⟨g,inv.prune past,keeps_others (fun _ _ => rfl) _ _,up,past,?_⟩
  exact recorded.prune le_rfl

theorem reserve_safe {now : JsNumber} {k : String} {claim : NoteClaim} {cost : Nat}
    (priced : claim.maxGasCostWei = some (cost : Int)) (timed : Timed service now g w) :
    SafeRequest platform kind budgeted i
      (fun (reserved : Except SponsoredNote String) g w => ∀ token, reserved = .ok token →
        Holding service i ⟨k,token,claim.validUntil,now,cost,False⟩ g w)
      (perform (.reserve k claim)) g w := by
  refine perform_safe (.reserve k claim) (K := Timed service now) (fun passed timed => timed.stable passed) timed ?_
  rintro s fault ⟨up,past,recorded⟩ inv
  cases free : s.store.notes.get k with
  | some held =>
    have refused : s.store.reserve s.clock k claim = (s.store,.error held) := by
      rw [MemorySponsorshipStore.reserve,free]
    refine ⟨g,?_,?_,?_⟩ <;> simp only [relayer,World.exec,refused]
    · exact inv
    · exact fun j _ => ⟨rfl,(Passed.refl s).toGrown⟩
    · intro token ok
      contradiction
  | none =>
    let token := sponsorshipToken s.clock (s.store.seq + 1)
    refine ⟨Function.update g i (some ⟨k,token,claim.validUntil,now,cost,False⟩),?_,?_,?_⟩
    · simp only [relayer,World.exec,MemorySponsorshipStore.reserve,free]
      exact inv.reserve i past recorded free priced _ rfl
    · simp only [relayer,World.exec,MemorySponsorshipStore.reserve,free]
      exact keeps_others (fun j apart => Function.update_of_ne apart _ _) _ _
    · simp only [relayer,World.exec,MemorySponsorshipStore.reserve,free]
      intro token ok
      cases ok
      exact ⟨up,Function.update_self ..⟩

/-! ### The deposit -/

/-- A reading of the deposit, with what the store still holds of the operations since. -/
structure HasRead (budgeted : Prop) (service : RelayerService) (i : Nat) (r : Reservation)
    (deposit : Int) (g : Reservations) (w : World) : Prop where
  holding : Holding service i r g w
  past : r.now ≤ w.now
  recorded : Recorded w.store.notes w.now w.issued
  read : Read budgeted r deposit w

theorem HasRead.stable {r : Reservation} {deposit : Int} {w' : World} (passed : Passed w w')
    (read : HasRead budgeted service i r deposit g w) : HasRead budgeted service i r deposit g w' := by
  obtain ⟨holding,past,recorded,recent,moment,split,value,kept⟩ := read
  obtain ⟨new,split',valid⟩ := passed.toGrown.chain
  refine ⟨holding.stable passed,past.trans passed.toGrown.later,?_,new ++ recent,moment,?_,?_,?_⟩
  · rw [passed.store,passed.same]
    exact recorded.later passed.toGrown.later
  · rw [split',split,List.append_assoc]
  · rw [passed.opening]
    exact value
  · intro b n charge landed
    rw [passed.store,passed.same]
    rcases List.mem_append.mp landed with late | early
    · obtain ⟨o,found,alive⟩ := valid n charge late
      rw [passed.same] at found
      obtain ⟨note,standing,records⟩ := recorded o (List.mem_of_getElem? found) alive
      exact ⟨o,note,found,standing,records,past.trans alive⟩
    · exact kept b n charge early

theorem readDeposit_safe {r : Reservation} (holding : Holding service i r g w) :
    SafeRequest platform kind budgeted i (fun deposit => HasRead budgeted service i r deposit)
      readDeposit g w := by
  refine safe_try (await_safe .getDeposit (K := Holding service i r) (fun passed h => h.stable passed) holding ?_)
    fun _ _ _ => safe_throw _
  rintro s g' s' deposit holding inv inv' relied ⟨recent,moment,split,⟨since,older⟩,value,held⟩
  have here := holding.closed relied
  have past := (inv.live.reservations i r holding.2).past
  refine ⟨here,(inv'.live.reservations i r here.2).past,inv'.live.memory service here.1,
    recent,moment,split,value,fun b n charge landed => ?_⟩
  obtain ⟨o,note,found,standing,records⟩ := held b n charge landed
  obtain ⟨new,split',valid⟩ := relied.2.chain
  -- Events after the moment read came in while the request waited.
  have later : recent ++ since = new := by
    rw [split,← older,← List.append_assoc] at split'
    exact List.append_cancel_right split'
  obtain ⟨o',found',alive⟩ := valid n charge (later ▸ List.mem_append_left _ landed)
  cases found.symm.trans found'
  exact ⟨o,note,found,standing,records,past.trans alive⟩

/-- The reservation, approved. -/
def Reservation.covered (r : Reservation) : Reservation := { r with approved := True }

theorem checkBudget_ok {deposit : Int} {notes : List SponsoredNote}
    (ok : service.checkBudget platform deposit notes = .ok ()) :
    ∃ wei, committedGasCost notes = .known wei ∧
      wei + service.config.minDepositWei.getD 0 ≤ deposit := by
  rw [checkBudget] at ok
  split at ok
  · obtain ⟨_,_,failed⟩ := bind_ok_iff.mp ok
    contradiction
  · next wei known =>
    split at ok
    · contradiction
    · next enough => exact ⟨wei,known,not_lt.mp enough⟩

theorem outstanding_safe {r : Reservation} {deposit : Int}
    (read : HasRead budgeted service i r deposit g w) :
    SafeRequest platform kind budgeted i (fun (notes : List SponsoredNote) g w =>
        service.checkBudget platform deposit notes = .ok () → Holding service i r.covered g w)
      (perform (.outstanding r.now)) g w := by
  refine perform_safe (.outstanding r.now) (K := HasRead budgeted service i r deposit) (fun passed h => h.stable passed) read ?_
  intro s fault read inv
  by_cases ok : service.checkBudget platform deposit (s.store.outstanding r.now) = .ok ()
  · obtain ⟨wei,known,enough⟩ := checkBudget_ok ok
    refine ⟨Function.update g i (some r.covered),?_,?_,fun _ => ⟨read.holding.1,Function.update_self ..⟩⟩
    · refine inv.approve read.holding.2 read.read known fun b => ?_
      have reserve := (inv.budget b).reserve service read.holding.1
      omega
    · exact fun j apart => ⟨Function.update_of_ne apart _ _,(Passed.refl s).toGrown⟩
  · exact ⟨g,inv,fun j _ => ⟨rfl,(Passed.refl s).toGrown⟩,fun passes => absurd passes ok⟩

theorem assertDepositCovers_safe {r : Reservation} (maxGasCostWei : Int)
    (holding : Holding service i r g w) :
    SafeRequest platform kind budgeted i (fun _ => Holding service i r.covered)
      (service.assertDepositCovers platform maxGasCostWei r.now) g w := by
  refine safe_seq (K := fun _ => Holding service i r) (safe_lift fun _ _ => holding) ?_
  intro _ g w holding
  refine safe_seq (readDeposit_safe holding) fun deposit g w read => ?_
  refine safe_seq (outstanding_safe read) fun notes g w covers => ?_
  exact safe_lift fun _ ok => covers ok

theorem checkReserved_safe (op : RpcUserOperation) (r : CheckedRequest) {reservation : Reservation}
    (holding : Holding service i reservation g w) :
    SafeRequest platform kind budgeted i (fun _ => Holding service i reservation.covered)
      (service.checkReserved platform op r reservation.now) g w := by
  refine safe_seq (holding.quiet (resolveSenderImplementation_quiet service op)) ?_
  intro _ g w holding
  refine safe_seq (assertDepositCovers_safe _ holding) fun _ g w holding => ?_
  refine safe_seq (holding.quiet (assertRegistrationCurrent_quiet service)) fun _ g w holding => ?_
  refine safe_seq (holding.quiet (assertWithdrawSimulates_quiet platform _)) fun _ g w holding => ?_
  refine safe_seq (holding.quiet (assertBundlerSimulates_quiet platform service op _)) ?_
  exact fun _ g w holding => safe_pure holding

/-! ### Giving the reservation back -/

theorem releasing_safe {K : α → Reservations → World → Prop} {p : Async α} (k token : String)
    (wrap : Thrown → Thrown) (safe : SafeRequest platform kind budgeted i K p g w) :
    SafeRequest platform kind budgeted i K (releasing k token wrap p) g w := by
  refine safe_try safe fun e g w => ?_
  refine safe_seq (K := fun _ _ _ => True) (perform_safe (.release k token) (K := fun _ _ => True) (fun _ _ => trivial) trivial ?_)
    fun _ _ _ _ => safe_throw _
  intro s fault _ inv
  exact ⟨g,inv.release k token,keeps_others (fun _ _ => rfl) _ _,trivial⟩

/-! ### Recording -/

/-- The entry the request has reserved. -/
structure Owns (service : RelayerService) (i : Nat) (r : Reservation) (note : SponsoredNote)
    (g : Reservations) (w : World) : Prop where
  holding : Holding service i r g w
  entry : r.Has w.store.notes note

theorem Owns.stable {r : Reservation} {note : SponsoredNote} {w' : World} (passed : Passed w w')
    (owns : Owns service i r note g w) : Owns service i r note g w' :=
  ⟨owns.holding.stable passed,by rw [passed.store]; exact owns.entry⟩

/-- The file holds the entry, signed. -/
def Saved (kind : StoreKind) (k : String) (next : SponsoredNote) (w : World) : Prop :=
  ∀ path, kind = .file path → ∃ entries : Notes,
    w.disk.file = some (.json (storedNotes entries)) ∧ (k,next) ∈ entries.entries

/-- The entries about to be written: everything live, and the new one. -/
structure Gathered (r : Reservation) (next : SponsoredNote) (budgeted : Prop) (entries : Notes)
    (w : World) : Prop where
  recorded : Recorded entries w.now w.issued
  nonneg : budgeted → NonNegative entries
  new : (r.key,next) ∈ entries.entries

theorem Gathered.stable {r : Reservation} {next : SponsoredNote} {entries : Notes} {w' : World}
    (passed : Passed w w') (gathered : Gathered r next budgeted entries w) :
    Gathered r next budgeted entries w' := by
  refine ⟨?_,gathered.nonneg,gathered.new⟩
  rw [passed.same]
  exact gathered.recorded.later passed.toGrown.later

theorem Gathered.of_set {r : Reservation} {note : SponsoredNote}
    (inv : Invariant kind budgeted g w) (owns : Owns service i r note g w) :
    Gathered r { note with status := .signed } budgeted
      (w.store.signedEntries.set r.key { note with status := .signed }) w := by
  refine ⟨?_,?_,InsertionMap.mem_set.mpr (.inl ⟨rfl,rfl⟩)⟩
  · intro s member alive
    have recorded := (inv.live.memory service owns.holding.1).signedEntries
    obtain ⟨entry,found,records⟩ := recorded s member alive
    have other := inv.live.alive_ne owns.holding.2 owns.entry member alive
    exact ⟨entry,InsertionMap.mem_set.mpr (.inr ⟨other,found⟩),records⟩
  · intro b k entry cost member priced
    have nonneg := (inv.budget b).memory
    rcases InsertionMap.mem_set.mp member with ⟨_,rfl⟩ | ⟨_,old⟩
    · exact nonneg r.key note cost owns.entry.1 priced
    · exact nonneg k entry cost (InsertionMap.mem_filter.mp old).1 priced

theorem writeNotes_safe {r : Reservation} {note next : SponsoredNote} {entries : Notes}
    (owns : Owns service i r note g w) (gathered : Gathered r next budgeted entries w) :
    SafeRequest platform kind budgeted i
      (fun _ g w => Owns service i r note g w ∧ Saved kind r.key next w)
      (writeNotes entries) g w := by
  refine safe_seq (K := fun (written : Except Thrown Unit) g w => Owns service i r note g w ∧
      Gathered r next budgeted entries w ∧
      (written = .ok () → w.disk.tmp = some (.json (storedNotes entries))))
    (perform_safe (.writeFileSync _) (K := fun g w => Owns service i r note g w ∧ Gathered r next budgeted entries w)
      (fun passed h => ⟨h.1.stable passed,h.2.stable passed⟩) ⟨owns,gathered⟩ ?_) ?_
  · rintro s fault ⟨owns,gathered⟩ inv
    refine ⟨g,?_,?_,?_⟩
    · cases fault <;> exact inv.withTmp _
    · cases fault <;> exact keeps_others (fun _ _ => rfl) _ _
    · cases fault with
      | false => exact ⟨⟨owns.holding,owns.entry⟩,⟨gathered.recorded,gathered.nonneg,gathered.new⟩,
          fun _ => rfl⟩
      | true =>
        refine ⟨⟨owns.holding,owns.entry⟩,⟨gathered.recorded,gathered.nonneg,gathered.new⟩,?_⟩
        intro failed
        contradiction
  · rintro written g w ⟨owns,gathered,copied⟩
    refine safe_seq (K := fun _ g w => Owns service i r note g w ∧
      Gathered r next budgeted entries w ∧ w.disk.tmp = some (.json (storedNotes entries)))
      (safe_lift fun _ ok => ⟨owns,gathered,copied ok⟩) ?_
    rintro _ g w finished
    refine safe_seq (K := fun (renamed : Except Thrown Unit) g w => renamed = .ok () →
        Owns service i r note g w ∧ Saved kind r.key next w)
      (perform_safe .renameSync (K := fun g w => Owns service i r note g w ∧ Gathered r next budgeted entries w ∧
        w.disk.tmp = some (.json (storedNotes entries)))
        (fun passed h => ⟨h.1.stable passed,h.2.1.stable passed,by rw [passed.disk]; exact h.2.2⟩)
        finished ?_) fun renamed g w saved => safe_lift fun _ ok => saved ok
    rintro s fault ⟨owns,gathered,copy⟩ inv
    cases fault with
    | true =>
      refine ⟨g,inv,fun j _ => ⟨rfl,(Passed.refl s).toGrown⟩,?_⟩
      intro failed
      contradiction
    | false =>
      have renamed : (relayer.exec false .renameSync s).1 =
          { s with disk := ⟨some (.json (storedNotes entries)),none⟩ } := by
        rw [← copy]
        rfl
      rw [renamed]
      refine ⟨g,inv.withFile gathered.recorded gathered.nonneg _,keeps_others (fun _ _ => rfl) _ _,?_⟩
      exact fun _ => ⟨⟨owns.holding,owns.entry⟩,fun _ _ => ⟨entries,rfl,gathered.new⟩⟩

theorem persistSigned_safe {r : Reservation} {note : SponsoredNote}
    (same : service.config.sponsorshipStore = kind) (owns : Owns service i r note g w) :
    SafeRequest platform kind budgeted i
      (fun _ g w => Owns service i r note g w ∧ Saved kind r.key { note with status := .signed } w)
      (persistSigned service.config.sponsorshipStore r.key { note with status := .signed }) g w := by
  rw [same]
  cases kind with
  | memory => exact safe_pure ⟨owns,by simp [Saved]⟩
  | file path =>
    refine safe_seq (K := fun (entries : Notes) g w => Owns service i r note g w ∧
        Gathered r { note with status := .signed } budgeted
          (entries.set r.key { note with status := .signed }) w)
      (perform_safe .signedEntries (K := Owns service i r note) (fun passed h => h.stable passed) owns ?_) ?_
    · rintro s fault owns inv
      exact ⟨g,inv,fun j _ => ⟨rfl,(Passed.refl s).toGrown⟩,owns,.of_set inv owns⟩
    · rintro entries g w ⟨owns,gathered⟩
      exact writeNotes_safe owns gathered

/-- What a commit leaves behind. -/
structure Committed (service : RelayerService) (kind : StoreKind) (i : Nat) (r : Reservation)
    (g : Reservations) (w : World) : Prop where
  holding : Holding service i r g w
  past : r.now ≤ w.now
  entry : ∃ note, r.Has w.store.notes note ∧ note.status = .signed ∧
    note.validUntil = r.validUntil ∧ note.maxGasCostWei = some (r.cost : Int) ∧ Saved kind r.key note w

theorem Committed.stable {r : Reservation} {w' : World} (passed : Passed w w')
    (committed : Committed service kind i r g w) : Committed service kind i r g w' := by
  obtain ⟨note,own,status,validUntil,cost,saved⟩ := committed.entry
  refine ⟨committed.holding.stable passed,committed.past.trans passed.toGrown.later,note,?_,status,
    validUntil,cost,?_⟩
  · rw [passed.store]
    exact own
  · rw [Saved,passed.disk]
    exact saved

theorem commit_safe {r : Reservation} (approved : r.approved)
    (same : service.config.sponsorshipStore = kind) (holding : Holding service i r g w) :
    SafeRequest platform kind budgeted i (fun _ => Committed service kind i r)
      (commit service.config.sponsorshipStore r.key r.token) g w := by
  refine safe_seq (K := fun (held : Option SponsoredNote) g w => Holding service i r g w ∧
      ∀ note, held = some note → (r.key,note) ∈ w.store.notes.entries)
    (perform_safe (.get r.key) (K := Holding service i r) (fun passed h => h.stable passed) holding ?_) ?_
  · intro s fault holding inv
    exact ⟨g,inv,fun j _ => ⟨rfl,(Passed.refl s).toGrown⟩,holding,
      fun note found => InsertionMap.get_eq_some.mp found⟩
  · rintro held g w ⟨holding,found⟩
    cases held with
    | none => exact safe_throw _
    | some note =>
      by_cases own : note.heldBy r.token = true
      · simp only [own,if_true]
        have token : note.token = .string r.token := SponsoredNote.heldBy_iff.mp own
        have owns : Owns service i r note g w := ⟨holding,found note rfl,token⟩
        refine safe_seq (persistSigned_safe same owns) ?_
        rintro _ g w saved
        refine perform_safe (.set r.key _) (K := fun g w => Owns service i r note g w ∧
          Saved kind r.key { note with status := .signed } w)
          (fun passed h => ⟨h.1.stable passed,by rw [Saved,passed.disk]; exact h.2⟩) saved ?_
        rintro s fault ⟨owns,saved⟩ inv
        have valid := inv.live.reservations i r owns.holding.2
        obtain ⟨validUntil,cost⟩ := valid.entry note owns.entry
        refine ⟨g,inv.set owns.holding.2 approved owns.entry,keeps_others (fun _ _ => rfl) _ _,
          ⟨owns.holding,valid.past,_,⟨InsertionMap.mem_set.mpr (.inl ⟨rfl,rfl⟩),token⟩,rfl,validUntil,
            cost,saved⟩⟩
      · simp only [own]
        exact safe_throw _

/-! ### Signing -/

theorem Committed.issuable {r : Reservation} {s : Issued} (committed : Committed service kind i r g w)
    (key : s.key = r.key) (validUntil : s.validUntil = r.validUntil) (now : s.now = r.now)
    (cost : s.maxGasCostWei = r.cost) : Issuable kind r s w := by
  obtain ⟨note,own,status,expiry,price,saved⟩ := committed.entry
  have records : note.Records s := by
    refine ⟨status,expiry.trans validUntil.symm,?_⟩
    intro c priced
    rw [price,Option.some.injEq] at priced
    rw [← priced,cost]
  refine ⟨key,validUntil,now,cost,⟨note,own,records⟩,?_⟩
  intro path same now notes loaded alive
  obtain ⟨entries,file,member⟩ := saved path same
  rw [file] at loaded
  refine ⟨_,(mem_load_storedNotes loaded).mpr ⟨note,key ▸ member,?_,rfl⟩,rfl,records.validUntil,
    records.cost⟩
  rw [records.validUntil]
  exact alive

theorem Issuable.stable {r : Reservation} {s : Issued} {w' : World} (passed : Passed w w')
    (issuable : Issuable kind r s w) : Issuable kind r s w' := by
  refine ⟨issuable.key,issuable.validUntil,issuable.now,issuable.cost,?_,?_⟩
  · rw [passed.store]
    exact issuable.memory
  · rw [passed.disk]
    exact issuable.saved

/-- The request may return this signature. -/
def Earned (service : RelayerService) (kind : StoreKind) (i : Nat) (s : Issued) (g : Reservations)
    (w : World) : Prop :=
  ∃ r, Holding service i r g w ∧ r.approved ∧ Issuable kind r s w

theorem signedTerms_validUntil {r : CheckedRequest} {tokenPerEth : Int} {validUntil : JsNumber}
    {senderImplementation : Address} {terms : FeeTerms}
    (built : service.signedTerms r tokenPerEth validUntil senderImplementation = .ok terms) :
    terms.validUntil = validUntil := by
  obtain ⟨_,_,returned⟩ := bind_ok_iff.mp built
  cases returned
  rfl

theorem signReserved_safe (same : service.config.sponsorshipStore = kind) (op : RpcUserOperation)
    {r : CheckedRequest} (tokenPerEth : Int) {reservation : Reservation}
    (holding : Holding service i reservation g w) (key : reservation.key = r.key)
    (expiry : reservation.validUntil = reservation.now + service.config.signatureTtlSec)
    (cost : reservation.cost = r.maxGasCostWei) :
    SafeRequest platform kind budgeted i (Earned service kind i)
      (service.signReserved platform op r tokenPerEth reservation.now reservation.token) g w := by
  refine safe_seq (releasing_safe r.key reservation.token id (checkReserved_safe op r holding)) ?_
  intro implementation g w holding
  refine safe_seq (K := fun terms g w => Holding service i reservation.covered g w ∧
    terms.validUntil = reservation.validUntil) (safe_lift fun terms built => ⟨holding,?_⟩) ?_
  · exact (signedTerms_validUntil built).trans expiry.symm
  rintro terms g w ⟨holding,validUntil⟩
  refine safe_seq (K := fun _ => Holding service i reservation.covered)
    (safe_lift fun _ _ => holding) fun hash g w holding => ?_
  refine safe_seq (releasing_safe r.key reservation.token id (holding.quiet (quiet_ask _))) ?_
  intro signature g w holding
  have recorded : SafeRequest platform kind budgeted i
      (fun _ => Committed service kind i reservation.covered)
      (commit service.config.sponsorshipStore r.key reservation.token) g w := by
    rw [← key]
    exact commit_safe trivial same holding
  refine safe_seq (releasing_safe r.key reservation.token _ recorded) fun _ g w committed => ?_
  refine safe_seq (K := fun _ => Committed service kind i reservation.covered)
    (safe_lift fun _ _ => committed) fun data g w committed => ?_
  refine safe_pure ⟨reservation.covered,committed.holding,trivial,?_⟩
  exact committed.issuable key.symm validUntil rfl cost.symm

theorem sign_safe (same : service.config.sponsorshipStore = kind) (op : RpcUserOperation)
    (context : SponsorContext) (up : Up service g w) :
    SafeRequest platform kind budgeted i (Earned service kind i) (service.sign platform op context)
      g w := by
  refine safe_seq (K := fun _ => Up service) (safe_lift fun _ _ => up) fun r g w up => ?_
  refine safe_seq (up.quiet (rateFor_quiet _)) fun tokenPerEth g w up => ?_
  refine safe_seq (K := fun _ => Up service) (safe_lift fun _ _ => up) fun _ g w up => ?_
  refine safe_seq (nowSeconds_safe up) fun now g w timed => ?_
  refine safe_seq (prune_safe timed) fun _ g w timed => ?_
  refine safe_seq (K := fun _ => Timed service now) (safe_lift fun _ _ => timed) fun nonce g w timed => ?_
  refine safe_seq (reserve_safe rfl timed) fun reserved g w reservation => ?_
  cases reserved with
  | error held => exact safe_throw _
  | ok token => exact signReserved_safe same op tokenPerEth (reservation token rfl) rfl rfl rfl

theorem status_safe (up : Up service g w) :
    SafeRequest platform kind budgeted i (fun _ _ _ => True) service.status g w := by
  refine safe_seq (nowSeconds_safe up) fun now g w timed => ?_
  refine safe_seq (prune_safe timed) fun _ g w timed => ?_
  refine safe_seq (Up.quiet timed.1 (quiet_ask _)) fun live g w up => ?_
  refine safe_seq (K := fun _ _ _ => True)
    (perform_safe (.outstanding now) (K := Up service) (fun passed up => passed.service.trans up) up ?_) fun _ _ _ _ =>
    safe_pure trivial
  exact fun s fault _ inv => ⟨g,inv,fun j _ => ⟨rfl,(Passed.refl s).toGrown⟩,trivial⟩

/-! ### Every run -/

/-- A request for a signature ends with one it has earned. -/
theorem sign_request_safe (same : service.config.sponsorshipStore = kind) (op : RpcUserOperation)
    (context : SponsorContext) (up : Up service g w) :
    SafeRequest platform kind budgeted i
      (fun (reply : Reply) g w => ∀ s, reply = .signed s → Earned service kind i s g w)
      (do return Reply.signed (← service.sign platform op context)) g w := by
  refine safe_seq (sign_safe same op context up) fun s g w earned => safe_pure ?_
  rintro s' returned
  cases returned
  exact earned

theorem status_request_safe (up : Up service g w) :
    SafeRequest platform kind budgeted i (fun (reply : Reply) _ _ => ∀ s, reply ≠ .signed s)
      (do return Reply.status (← service.status)) g w :=
  safe_seq (status_safe up) fun _ _ _ _ => safe_pure (by simp)

theorem relayer_sound : (logic kind budgeted).Sound relayer (permits platform kind budgeted) where
  toFramed := logic_framed
  stable returned passed s same := by
    obtain ⟨service,r,up,held,approved,issuable⟩ := returned s same
    exact ⟨service,r,passed.service.trans up,held,approved,issuable.stable passed⟩
  env inv may := inv.env may
  call := by
    rintro g w p i inv ⟨service,up,requested⟩
    refine ⟨g,inv,fun j _ => ⟨rfl,(Passed.refl w).toGrown⟩,?_⟩
    cases requested with
    | sign op context =>
      refine safe_mono (sign_request_safe (inv.live.started service up) op context up) ?_
      rintro r g w earned s rfl
      obtain ⟨r,holding,approved,issuable⟩ := earned _ rfl s rfl
      exact ⟨service,r,holding.1,holding.2,approved,issuable⟩
    | status =>
      refine safe_mono (status_request_safe up) ?_
      rintro r g w quiet s rfl
      exact absurd rfl (quiet _ rfl s)
  finish := by
    intro i r g w inv returned
    cases r with
    | error e => exact ⟨g,inv,fun j _ => ⟨rfl,(Passed.refl w).toGrown⟩⟩
    | ok reply =>
      cases reply with
      | status => exact ⟨g,inv,fun j _ => ⟨rfl,(Passed.refl w).toGrown⟩⟩
      | signed s =>
        obtain ⟨service,r,up,held,approved,issuable⟩ := returned s rfl
        refine ⟨_,inv.issue held issuable,fun j apart => ⟨Function.update_of_ne apart _ _,?_⟩⟩
        exact ⟨le_rfl,rfl,rfl,List.prefix_append _ _,[],rfl,by simp⟩
  reset inv may := ⟨_,inv.restart may⟩

end TornadoRelayer
