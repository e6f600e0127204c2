import TornadoRelayer.SetupChain

/-! How a start comes to its worker contract: it finds the one that is named, or deploys one
and puts it on file. -/
namespace TornadoRelayer.Setup

open BigEndian EventLoop JavaScript
open RelayerService (truthy)

variable {cfg : PaymasterSetupConfig} {account : Address} {c c' : Chain} {script : Script Fate}

/-! ### Requests one at a time -/

theorem play_await {query : SetupQuery} {fate : Fate} {r : Except Thrown query.Answer}
    (met : script 0 = some fate) (answered : c.answer account fate query = (r,c')) :
    (await query).play (host account) script c = ⟨some r, c', script.after 1⟩ :=
  play_ask met answered

theorem play_perform {op : SetupOp} {fate : Fate} {r : op.Result} (met : script 0 = some fate)
    (performed : c.perform fate op = (r,c')) :
    (perform op).play (host account) script c = ⟨some (.ok r), c', script.after 1⟩ :=
  play_act met performed

theorem play_await_stopped {query : SetupQuery} (stopped : script 0 = none) :
    (await query).play (host account) script c = ⟨none, c, script⟩ := play_ask_stopped stopped

theorem play_perform_stopped {op : SetupOp} (stopped : script 0 = none) :
    (perform op).play (host account) script c = ⟨none, c, script⟩ := play_act_stopped stopped

theorem perform_ok {op : SetupOp} {r : op.Result} {rest : Script Fate}
    (ran : (perform op).play (host account) script c = ⟨some (.ok r), c', rest⟩) :
    ∃ fate, script 0 = some fate ∧ c.perform fate op = (r,c') ∧ rest = script.after 1 := by
  cases met : script 0 with
  | none => cases (play_perform_stopped met).symm.trans ran
  | some fate =>
    cases (play_perform met rfl).symm.trans ran
    exact ⟨fate,rfl,rfl,rfl⟩

/-! ### The state file -/

/-- What the start makes of the file. -/
def stateOf (cfg : PaymasterSetupConfig) (file : Option FileContent) : Except Thrown Json :=
  match cfg.statePath with
  | none => .ok (.object [])
  | some _ =>
    match file with
    | none => .ok (.object [])
    | some content => parseState content

theorem readState_fine : (readState cfg).play (host account) (.always .fine) c =
    ⟨some (stateOf cfg c.file), c, .always .fine⟩ := by
  unfold readState stateOf
  cases cfg.statePath with
  | none => rfl
  | some path =>
    cases content : c.file with
    | none =>
      have absent : c.perform .fine (.existsSync path) = (false,c) := by
        simp [Chain.perform,content]
      exact play_returned (play_perform rfl absent)
    | some text =>
      have present : c.perform .fine (.existsSync path) = (true,c) := by
        simp [Chain.perform,content]
      have read : c.perform .fine (.readFileSync path) = (.ok text,c) := by
        simp [Chain.perform,content]
      simp only
      rw [play_returned (play_perform rfl present),if_pos rfl,
        play_returned (play_perform rfl read),play_returned (play_lift _)]
      rfl

/-- The configuration or the file names the paymaster, and it answers to the relayer key. -/
structure Known (cfg : PaymasterSetupConfig) (c : Chain) (paymaster : Address) : Prop where
  named : (stateOf cfg c.file >>= candidate cfg) = .ok (some paymaster)
  worker : ∃ w, c.worker paymaster = some w ∧ w.verifyingSigner = cfg.signer

theorem checkCandidate_fine {paymaster : Address} {w : Worker} (worker : c.worker paymaster = some w)
    (signer : w.verifyingSigner = cfg.signer) :
    (checkCandidate cfg paymaster).play (host account) (.always .fine) c =
      ⟨some (.ok paymaster), c, .always .fine⟩ := by
  have code : c.answer account .fine (.getCode paymaster) = (.ok (some w.code),c) := by
    simp [Chain.answer,Chain.reading,worker]
  have signs : c.answer account .fine (.readAddress paymaster .verifyingSigner) =
      (.ok cfg.signer,c) := by
    simp [Chain.answer,Chain.reading,Chain.getter,Chain.ofWorker,worker,signer]
  rw [checkCandidate,play_returned (play_await rfl code)]
  simp only [Option.getD_some,if_neg w.deployed]
  rw [play_returned (play_await rfl signs),if_neg (by simp)]
  rfl

/-- A start finds the contract it knows and sends nothing. -/
theorem Known.found {paymaster : Address} (known : Known cfg c paymaster) :
    (ensureStandaloneContract cfg).play (host account) (.always .fine) c =
      ⟨some (.ok paymaster), c, .always .fine⟩ := by
  obtain ⟨named,w,worker,signer⟩ := known
  rw [ensureStandaloneContract]
  cases state : stateOf cfg c.file with
  | error e =>
    rw [state] at named
    contradiction
  | ok v =>
    rw [state] at named
    have named : candidate cfg v = .ok (some paymaster) := named
    rw [play_returned (readState_fine.trans (by rw [state])),named,play_returned (play_lift _)]
    exact checkCandidate_fine worker signer

/-! ### Deploying it -/

def deployment (cfg : PaymasterSetupConfig) : Transaction := .deploy cfg.signer (constructorArgs cfg)

/-- The contract is deployed and its router set. -/
def wired (cfg : PaymasterSetupConfig) (c : Chain) : Chain :=
  let deployed := c.settle (deployment cfg) true
  match cfg.daoRouter with
  | none => deployed
  | some router => deployed.settle (.call c.nextAddress (.setRouter router) 0) true

/-- And its address is on file. -/
def recorded (cfg : PaymasterSetupConfig) (c : Chain) : Chain :=
  { wired cfg c with file := some (.json (stateJson c.nextAddress c.nextHash)) }

/-- The requests of a deployment before the write of the state file. -/
def beforeWrite (cfg : PaymasterSetupConfig) : Nat := if cfg.daoRouter = none then 2 else 4

theorem beforeWrite_range : 2 ≤ beforeWrite cfg ∧ beforeWrite cfg ≤ 4 := by
  unfold beforeWrite
  split <;> omega

theorem wireRouter_fine {deployed : Chain} {paymaster : Address}
    (fine : ∀ n < beforeWrite cfg - 2, script n = some .fine) :
    (wireRouter cfg paymaster).play (host account) script deployed =
      ⟨some (.ok ()), match cfg.daoRouter with
        | none => deployed
        | some router => deployed.settle (.call paymaster (.setRouter router) 0) true,
        script.after (beforeWrite cfg - 2)⟩ := by
  unfold wireRouter
  unfold beforeWrite at fine ⊢
  cases dao : cfg.daoRouter with
  | none =>
    simp
  | some router =>
    simp only [dao,reduceCtorEq,if_false] at fine ⊢
    have sent : deployed.answer account .fine (.writeContract paymaster (.setRouter router) 0) =
        (.ok deployed.nextHash,deployed.accept (.call paymaster (.setRouter router) 0)) := by
      simp [Chain.answer,Chain.sendingValue,Chain.sending,Transaction.value,Chain.nextHash]
    rw [play_returned (play_await (fine 0 (by decide)) sent),
      play_returned (play_await (fine 1 (by decide)) Chain.accept_fine)]
    simp

theorem deployWorker_wired (fine : ∀ n < beforeWrite cfg, script n = some .fine) :
    (deployWorker cfg).play (host cfg.signer) script c =
      (writeState cfg c.nextAddress c.nextHash >>= fun _ => pure c.nextAddress).play
        (host cfg.signer) (script.after (beforeWrite cfg)) (wired cfg c) := by
  have enough : 2 ≤ beforeWrite cfg := beforeWrite_range.1
  have rest : 2 + (beforeWrite cfg - 2) = beforeWrite cfg := by omega
  have sent : c.answer cfg.signer .fine (.deployContract (constructorArgs cfg)) =
      (.ok c.nextHash,c.accept (deployment cfg)) := rfl
  have address : deployedAddress c.nextHash (c.receiptOf (deployment cfg) true) =
      .ok c.nextAddress := rfl
  rw [deployWorker,play_returned (play_await (fine 0 (by omega)) sent),
    play_returned (play_await (fine 1 (by omega)) Chain.accept_fine),address,
    play_returned (play_lift _)]
  have later : ∀ n < beforeWrite cfg - 2, (script.after 1).after 1 n = some .fine :=
    fun n small => fine (1 + (1 + n)) (by omega)
  rw [play_returned (wireRouter_fine later)]
  simp only [after_after,rest]
  rfl

/-- The contract a deployment leaves. -/
structure Deployed (cfg : PaymasterSetupConfig) (w : Worker) : Prop where
  owner : w.owner = cfg.signer
  verifyingSigner : w.verifyingSigner = cfg.signer
  router : w.router = cfg.daoRouter.getD zeroAddress

def freshWorker (cfg : PaymasterSetupConfig) (c : Chain) : Worker :=
  ⟨c.runtimeCode.1, c.runtimeCode_deployed, cfg.signer, cfg.signer, cfg.entryPoint, zeroAddress,
    Paymaster.PAYMASTER_AND_DATA_LENGTH⟩

theorem deployed_worker : (c.settle (deployment cfg) true).worker c.nextAddress =
    some (freshWorker cfg c) := Function.update_self ..

theorem wired_worker : ∃ w, (wired cfg c).worker c.nextAddress = some w ∧ Deployed cfg w := by
  unfold wired
  cases dao : cfg.daoRouter with
  | none => exact ⟨_,deployed_worker,rfl,rfl,by rw [dao]; rfl⟩
  | some router =>
    refine ⟨{ freshWorker cfg c with router },?_,rfl,rfl,by rw [dao]; rfl⟩
    change Function.update _ _ _ _ = _
    rw [Function.update_self,deployed_worker]
    rfl

theorem stateOf_recorded {path : String} (configured : cfg.statePath = some path) :
    stateOf cfg (recorded cfg c).file = .ok (stateJson c.nextAddress c.nextHash) := by
  simp only [stateOf,configured,recorded,parseState]

theorem statePaymaster_stateJson (paymaster : Address) (deployTx : Bytes32) :
    statePaymaster (stateJson paymaster deployTx) = .ok (some paymaster) := by
  have some : truthy (.string (addressText paymaster)) = true := by simp [truthy,addressText]
  have field : (stateJson paymaster deployTx).field "paymaster" =
      .some (.string (addressText paymaster)) := rfl
  rw [stateJson] at field ⊢
  simp only [statePaymaster,field,some,if_true,getAddress_addressText]
  rfl

theorem recorded_known {path : String} (unnamed : cfg.paymaster = none)
    (configured : cfg.statePath = some path) : Known cfg (recorded cfg c) c.nextAddress := by
  refine ⟨?_,?_⟩
  · rw [stateOf_recorded configured]
    change candidate cfg _ = _
    rw [candidate,unnamed]
    exact statePaymaster_stateJson ..
  · obtain ⟨w,present,made⟩ : ∃ w, (wired cfg c).worker c.nextAddress = some w ∧ Deployed cfg w :=
      wired_worker
    exact ⟨w,present,made.verifyingSigner⟩

theorem writeState_fine {path : String} {paymaster : Address} {deployTx : Bytes32}
    (configured : cfg.statePath = some path) (fine : script 0 = some .fine) :
    (writeState cfg paymaster deployTx).play (host account) script c =
      ⟨some (.ok ()), { c with file := some (.json (stateJson paymaster deployTx)) },
        script.after 1⟩ := by
  have written : c.perform .fine (.writeFileSync path (stateJson paymaster deployTx)) =
      (.ok (),{ c with file := some (.json (stateJson paymaster deployTx)) }) := rfl
  rw [writeState,configured]
  simp only
  rw [play_returned (play_perform fine written)]
  rfl

theorem deployWorker_fine {path : String} (configured : cfg.statePath = some path) :
    (deployWorker cfg).play (host cfg.signer) (.always .fine) c =
      ⟨some (.ok c.nextAddress), recorded cfg c, .always .fine⟩ := by
  have fine : ∀ n < beforeWrite cfg, Script.always Fate.fine n = some .fine := fun _ _ => rfl
  rw [deployWorker_wired fine,play_returned (writeState_fine configured rfl)]
  rfl

theorem checkCandidate_ok {candidate paymaster : Address} {c₁ : Chain} {rest : Script Fate}
    (found : (checkCandidate cfg candidate).play (host account) (.always .fine) c =
      ⟨some (.ok paymaster), c₁, rest⟩) :
    candidate = paymaster ∧ c₁ = c ∧ ∃ w, c.worker paymaster = some w ∧ w.verifyingSigner = cfg.signer := by
  have code : c.answer account .fine (.getCode candidate) =
      (.ok ((c.worker candidate).map Worker.code),c) := rfl
  cases worker : c.worker candidate with
  | none =>
    rw [checkCandidate,play_returned (play_await rfl code),worker,if_pos (by simp)] at found
    cases (play_throw _).symm.trans found
  | some w =>
    have signs : c.answer account .fine (.readAddress candidate .verifyingSigner) =
        (.ok w.verifyingSigner,c) := by
      simp [Chain.answer,Chain.reading,Chain.getter,Chain.ofWorker,worker]
    rw [checkCandidate,play_returned (play_await rfl code),worker,if_neg (by simpa using w.deployed),
      play_returned (play_await rfl signs)] at found
    split at found
    · cases (play_throw _).symm.trans found
    · next same =>
      cases found
      exact ⟨rfl,rfl,w,worker,not_not.mp same⟩

/-- The contract a start comes to is known to the next one; it was known before, or has just
been deployed. -/
theorem standalone_ok {paymaster : Address} {c₁ : Chain} {rest : Script Fate}
    (located : cfg.paymaster ≠ none ∨ cfg.statePath ≠ none)
    (found : (ensureStandaloneContract cfg).play (host cfg.signer) (.always .fine) c =
      ⟨some (.ok paymaster), c₁, rest⟩) :
    Known cfg c₁ paymaster ∧ (c₁ = c ∨ c₁ = recorded cfg c) := by
  rw [ensureStandaloneContract] at found
  cases state : stateOf cfg c.file with
  | error e =>
    rw [play_threw (readState_fine.trans (by rw [state]))] at found
    cases found
  | ok v =>
    rw [play_returned (readState_fine.trans (by rw [state]))] at found
    cases named : candidate cfg v with
    | error e =>
      rw [named,play_threw (play_lift _)] at found
      cases found
    | ok named' =>
      rw [named,play_returned (play_lift _)] at found
      cases named' with
      | some candidate =>
        obtain ⟨rfl,rfl,worker⟩ := checkCandidate_ok found
        exact ⟨⟨by rw [state]; exact named,worker⟩,.inl rfl⟩
      | none =>
        have unnamed : cfg.paymaster = none := by
          rw [candidate] at named
          cases own : cfg.paymaster with
          | none => rfl
          | some own' =>
            rw [own] at named
            cases named
        obtain ⟨path,configured⟩ := Option.ne_none_iff_exists'.mp
          (located.resolve_left fun absent => absent unnamed)
        simp only at found
        split at found
        · rw [deployWorker_fine configured] at found
          cases found
          exact ⟨recorded_known unnamed configured,.inr rfl⟩
        · cases (play_throw _).symm.trans found

end TornadoRelayer.Setup
