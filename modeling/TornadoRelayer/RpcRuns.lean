import TornadoRelayer.DepositCovers
import TornadoRelayer.Rpc

/-! Whatever is posted to the server, in any number of requests at once: what it issues is
one live sponsorship a note, and covered by the deposit. -/
namespace TornadoRelayer.Rpc

open EventLoop JavaScript RelayerService Quoting

/-! ### The server -/

/-- A response that carries a signature issues it. -/
def finish (r : Except Thrown JsonRpcResponse) (w : World) : World :=
  match r with
  | .ok ⟨_,.ok (.signed s)⟩ => { w with issued := w.issued ++ [s] }
  | _ => w

def server : Process serviceInterface JsonRpcResponse World Surroundings Restart :=
  ⟨World.exec, finish, World.pass, World.restart⟩

/-- Any JSON may be posted, and its quote answered in any way; the rest is as for `relayer`. -/
def serverPermits (platform : Platform) (cast : Cast) (kind : StoreKind) (budgeted : Prop) :
    Permits serviceInterface JsonRpcResponse World Surroundings Restart where
  call w p := ∃ service gasPriceMarginBps answers req, w.service = some service ∧
    p = handle platform cast ⟨service,gasPriceMarginBps⟩ answers req
  answer := (permits platform kind budgeted).answer
  env := (permits platform kind budgeted).env
  reset := (permits platform kind budgeted).reset

def serverLogic (kind : StoreKind) (budgeted : Prop) :
    Logic serviceInterface Reservations JsonRpcResponse World where
  inv := (logic kind budgeted).inv
  rely := (logic kind budgeted).rely
  tick := (logic kind budgeted).tick
  post i r g w := ∀ id s, r = .ok ⟨id,.ok (.signed s)⟩ → Returned kind i (.ok (.signed s)) g w

variable {platform : Platform} {cast : Cast} {kind : StoreKind} {budgeted : Prop} {i : Nat}
  {g : Reservations} {w : World} {s : QuotingService} {answers : QuoteAnswers}

/-! ### A request -/

theorem stubData_quiet (service : RelayerService) (op : RpcUserOperation) (context : SponsorContext) :
    (service.stubData platform op context).Quiet Op.Silent :=
  quiet_bind nowSeconds_quiet fun _ => quiet_lift _

/-- The request has earned any signature it ends with. -/
def EarnedBy (service : RelayerService) (kind : StoreKind) (i : Nat) (result : RpcResult)
    (g : Reservations) (w : World) : Prop :=
  ∀ issued, result = .signed issued → Earned service kind i issued g w

theorem earned_of_other {service : RelayerService} {result : RpcResult}
    (other : ∀ issued, result ≠ .signed issued) : EarnedBy service kind i result g w :=
  fun issued same => absurd same (other issued)

theorem dispatch_safe (same : s.config.sponsorshipStore = kind) (up : Up s.toRelayerService g w)
    (method : String) (params : Json) :
    SafeRequest platform kind budgeted i (EarnedBy s.toRelayerService kind i)
      (dispatch platform cast s answers method params) g w := by
  unfold dispatch
  split
  · apply safe_seq (status_safe up)
    intro status g w _
    exact safe_pure (earned_of_other (by simp))
  split
  · apply safe_seq (K := fun _ => Up s.toRelayerService) (safe_lift fun _ _ => up)
    intro quote g w _
    exact safe_pure (earned_of_other (by simp))
  split
  · apply safe_seq (K := fun _ => Up s.toRelayerService) (safe_lift fun _ _ => up)
    rintro ⟨op,context⟩ g w up
    apply safe_seq (up.quiet (stubData_quiet _ op context))
    intro stub g w _
    exact safe_pure (earned_of_other (by simp))
  split
  · apply safe_seq (K := fun _ => Up s.toRelayerService) (safe_lift fun _ _ => up)
    rintro ⟨op,context⟩ g w up
    apply safe_seq (sign_safe same op context up)
    intro issued g w earned
    apply safe_pure
    rintro issued' returned
    cases returned
    exact earned
  · exact safe_throw _

theorem serve_safe (same : s.config.sponsorshipStore = kind) (up : Up s.toRelayerService g w)
    (req : Json) :
    SafeRequest platform kind budgeted i (EarnedBy s.toRelayerService kind i)
      (serve platform cast s answers req) g w := by
  apply safe_seq (K := fun _ => Up s.toRelayerService) (safe_lift fun _ _ => up)
  intro method g w up
  exact dispatch_safe same up method _

theorem handle_safe (same : s.config.sponsorshipStore = kind) (up : Up s.toRelayerService g w)
    (req : Json) :
    Safe server (serverPermits platform cast kind budgeted) (serverLogic kind budgeted) i
      ((serverLogic kind budgeted).post i) (handle platform cast s answers req) g w := by
  have exec : server.exec = relayer.exec := rfl
  have answer : (serverPermits platform cast kind budgeted).answer =
      (permits platform kind budgeted).answer := rfl
  have inv : (serverLogic kind budgeted).inv = (logic kind budgeted).inv := rfl
  have rely : (serverLogic kind budgeted).rely = (logic kind budgeted).rely := rfl
  have tick : (serverLogic kind budgeted).tick = (logic kind budgeted).tick := rfl
  apply safe_transport exec answer inv rely tick
  apply safe_settled
  apply safe_mono (serve_safe same up req)
  intro served g w earned id issued returned
  have signed : served = .ok (.signed issued) :=
    mapError_ok (congrArg JsonRpcResponse.outcome (Except.ok.inj returned))
  obtain ⟨r,holding,approved,issuable⟩ := earned _ signed issued rfl
  intro issued' same
  cases same
  exact ⟨_,r,holding.1,holding.2,approved,issuable⟩

/-! ### Every run -/

theorem server_sound :
    (serverLogic kind budgeted).Sound server (serverPermits platform cast kind budgeted) where
  tickRefl := Passed.refl
  tickTrans := Passed.trans
  tickRely _ passed := ⟨rfl,passed.toGrown⟩
  relyTrans first second := ⟨second.1.trans first.1,first.2.trans second.2⟩
  stable returned passed id s same s' signed := by
    obtain ⟨service,r,up,held,approved,issuable⟩ := returned id s same s' signed
    exact ⟨service,r,passed.service.trans up,held,approved,issuable.stable passed⟩
  env := by
    intro g w e inv may
    have permitted : (permits platform kind budgeted).env w e := may
    exact inv.env permitted
  call := by
    rintro g w p i inv ⟨service,margin,answers,req,up,rfl⟩
    refine ⟨g,inv,fun j _ => ⟨rfl,(Passed.refl w).toGrown⟩,?_⟩
    exact handle_safe (s := ⟨service,margin⟩) (inv.live.started service up) up req
  finish := by
    intro i r g w inv returned
    have quiet : ∃ g', Invariant kind budgeted g' w ∧
        ∀ j, j ≠ i → (logic kind budgeted).rely j g w g' w :=
      ⟨g,inv,fun j _ => ⟨rfl,(Passed.refl w).toGrown⟩⟩
    match r with
    | .error e => exact quiet
    | .ok ⟨_,.error _⟩ | .ok ⟨_,.ok (.status _)⟩ | .ok ⟨_,.ok (.quote _)⟩ | .ok ⟨_,.ok (.stub _)⟩ =>
      exact quiet
    | .ok ⟨id,.ok (.signed s)⟩ =>
      obtain ⟨service,r,up,held,approved,issuable⟩ := returned id s rfl s rfl
      refine ⟨_,inv.issue held issuable,fun j apart => ⟨Function.update_of_ne apart _ _,?_⟩⟩
      exact ⟨le_rfl,rfl,rfl,List.prefix_append _ _,[],rfl,by simp⟩
  reset := by
    intro g w r inv may
    have permitted : (permits platform kind budgeted).reset w r := may
    exact ⟨_,inv.restart permitted⟩

/-- Whatever is posted to the server, in whatever order its requests go on: of two signatures
issued for one note, the later was asked for when the earlier had expired, so at most one is
ever valid; and if readings of the deposit are settled and no reserve is negative, the deposit
covers everything promised whenever a response carries a signature. -/
theorem server_keeps_promises {start : World} {c : Config serviceInterface JsonRpcResponse World}
    (begins : Start kind budgeted start)
    (reach : Reachable server (serverPermits platform cast kind budgeted) (Config.initial start) c) :
    (c.world.issued.Pairwise fun s s' =>
      s.nullifierHash = s'.nullifierHash → s.validUntil < s'.now ∧ s'.now ≤ c.world.now) ∧
    (∀ (n m : Nat) (s s' : Issued), c.world.issued[n]? = some s → c.world.issued[m]? = some s' →
      s.nullifierHash = s'.nullifierHash → c.world.now ≤ s.validUntil →
      c.world.now ≤ s'.validUntil → n = m) ∧
    (budgeted → ∀ (i : Nat) (id : Json) (s : Issued),
      c.current = some (i,.done (.ok ⟨id,.ok (.signed s)⟩)) →
      (finish (.ok ⟨id,.ok (.signed s)⟩) c.world).Funded) := by
  obtain ⟨g,holds⟩ := reach.holds server_sound begins.invariant
  have kept : Invariant kind budgeted g c.world := holds.inv
  have key {s s' : Issued} (same : s.nullifierHash = s'.nullifierHash) : s.key = s'.key := by
    rw [Issued.key,Issued.key,same]
  refine ⟨?_,?_,?_⟩
  · refine kept.live.apart.imp_of_mem ?_
    intro s s' _ later expired same
    exact ⟨expired (key same),kept.live.past s' later⟩
  · intro n m s s' first second same alive alive'
    exact kept.live.unique first second (key same) alive alive'
  · intro budget i id s returning
    have all : budgeted = True := eq_true budget
    subst all
    exact kept.funded (holds.returned returning id s rfl)

/-! ### A run -/

inductive Event where
  | boot (service : RelayerService)
  | post (gasPriceMarginBps : Int) (answers : QuoteAnswers) (req : Json)
  | advance
  | answer (i : Nat) (r : (query : Query) → Except Thrown query.Answer)

def Event.toStep (platform : Platform) (cast : Cast) (kind : StoreKind)
    (c : Config serviceInterface JsonRpcResponse World) :
    Event → Option (Step serviceInterface JsonRpcResponse Surroundings Restart)
  | .boot service =>
    if c.world.service.isNone ∧ service.config.sponsorshipStore = kind ∧ kind ≠ .memory ∧
        0 ≤ service.config.minDepositWei.getD 0 then
      some (.reset (.boot service false false))
    else none
  | .post margin answers req => c.world.service.map fun service =>
    .call (handle platform cast ⟨service,margin⟩ answers req)
  | .advance => some (.advance false)
  | .answer i r => (c.waiting i).bind fun t =>
    if TornadoRelayer.answers True t.asked c.world t.query (r t.query) then some (.resume i r) else none

def play (platform : Platform) (cast : Cast) (kind : StoreKind) : List Event →
    Config serviceInterface JsonRpcResponse World →
    Option (Config serviceInterface JsonRpcResponse World)
  | [], c => some c
  | e :: events, c => (e.toStep platform cast kind c).bind fun s =>
    (server.step s c).bind (play platform cast kind events)

theorem Event.toStep_permitted {c : Config serviceInterface JsonRpcResponse World} {e : Event}
    {step : Step serviceInterface JsonRpcResponse Surroundings Restart}
    (made : e.toStep platform cast kind c = some step) :
    (serverPermits platform cast kind True).step c step := by
  cases e with
  | boot service =>
    rw [Event.toStep] at made
    split at made
    · next may =>
      cases made
      exact ⟨Option.isNone_iff_eq_none.mp may.1,may.2.1,fun memory => absurd memory may.2.2.1,
        fun _ => may.2.2.2⟩
    · contradiction
  | post margin answers req =>
    obtain ⟨service,up,rfl⟩ := Option.map_eq_some_iff.mp made
    exact ⟨service,margin,answers,req,up,rfl⟩
  | advance =>
    cases made
    trivial
  | answer i r =>
    obtain ⟨t,waiting,given⟩ := Option.bind_eq_some_iff.mp made
    split at given
    · next answered =>
      cases given
      intro t' waiting'
      cases waiting.symm.trans waiting'
      have permitted : (permits platform kind True).answer t.query t.asked c.world (r t.query) :=
        answers_permitted answered
      exact permitted
    · contradiction

theorem play_reachable {c c' : Config serviceInterface JsonRpcResponse World} {events : List Event}
    (played : play platform cast kind events c = some c') :
    Reachable server (serverPermits platform cast kind True) c c' := by
  suffices from_ : ∀ start, Reachable server (serverPermits platform cast kind True) start c →
      Reachable server (serverPermits platform cast kind True) start c' from from_ c .start
  intro start reach
  induction events generalizing c with
  | nil =>
    cases played
    exact reach
  | cons e events ih =>
    obtain ⟨step,made,rest⟩ := Option.bind_eq_some_iff.mp played
    obtain ⟨after,stepped,rest⟩ := Option.bind_eq_some_iff.mp rest
    exact ih rest (.step reach (Event.toStep_permitted made) stepped)

def Event.ofMove : Move → Option Event
  | .advance => some .advance
  | .answer i r => some (.answer i r)
  | _ => none

/-- The rest of a sponsor request, up to its response. -/
def passPosted (i : Nat) (deposit : Int) : List Event :=
  (passChecks i deposit).filterMap Event.ofMove

def unquoted : QuoteAnswers := ⟨.error (.error ""),.error (.error ""),.error (.error "")⟩

/-- While a sponsor request reads the deposit, a text that is no request is posted. -/
def postedBetween : List Event :=
  [.boot (sampleService (.file "sponsorships.json") [SIMPLE_7702_ACCOUNT]),
   .post 11000 unquoted sponsorRequest] ++ List.replicate 4 .advance ++
   [.post 11000 unquoted (.string "ping"),.advance] ++ passPosted 0 (10 ^ 15) ++
   List.replicate 5 .advance

/-- The response that carries a signature now, if one does. -/
def responding (c : Config serviceInterface JsonRpcResponse World) : Option (Nat × Json × Issued) :=
  match c.current with
  | some (i,.done (.ok ⟨id,.ok (.signed s)⟩)) => some (i,id,s)
  | _ => none

theorem responding_eq_some {c : Config serviceInterface JsonRpcResponse World} {id : Json}
    {issued : Issued} (responded : responding c = some (i,id,issued)) :
    c.current = some (i,.done (.ok ⟨id,.ok (.signed issued)⟩)) := by
  rw [responding] at responded
  split at responded
  · next running =>
    cases responded
    exact running
  · contradiction

theorem server_keeps_promises_posted : ∃ (c : Config serviceInterface JsonRpcResponse World)
    (id : Json) (s : Issued), s.nullifierHash = 1 ∧
      (finish (.ok ⟨id,.ok (.signed s)⟩) c.world).Funded := by
  have played : ((play (samplePlatform [1]) sampleCast (.file "sponsorships.json") postedBetween
      (Config.initial (World.first 1000000000 ⟨none,none⟩ (10 ^ 15)))).bind fun c =>
        (responding c).map fun e => e.2.2.nullifierHash) = some 1 := by
    decide +kernel
  obtain ⟨c,reached,both⟩ := Option.bind_eq_some_iff.mp played
  obtain ⟨⟨i,id,s⟩,responded,note⟩ := Option.map_eq_some_iff.mp both
  have keeps := server_keeps_promises (World.first_funded_start _ _) (play_reachable reached)
  exact ⟨c,id,s,note,keeps.2.2 trivial i id s (responding_eq_some responded)⟩

end TornadoRelayer.Rpc
