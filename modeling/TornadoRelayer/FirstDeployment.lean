import TornadoRelayer.FundedPaymaster

/-! The first deployment over any number of starts: how many contracts come to be deployed, and
which one the state file remembers, when starts stop and transactions fail. -/
namespace TornadoRelayer.Setup

open BigEndian EventLoop JavaScript

/-! ### Starts -/

inductive SetupStep where
  /-- The process starts, and its requests fare as the script says. -/
  | start (script : Script Fate)
  /-- A transaction that a start left pending is mined. -/
  | mined (n : Nat) (success : Bool)

def Chain.step (polls : Nat) (cfg : PaymasterSetupConfig) (c : Chain) : SetupStep → Chain
  | .start script => ((ensurePaymasterSetup polls cfg).play (host cfg.signer) script c).world
  | .mined n success => c.mine n success

def Chain.run (polls : Nat) (cfg : PaymasterSetupConfig) (c : Chain) (steps : List SetupStep) :
    Chain := steps.foldl (Chain.step polls cfg) c

/-- The contract a transaction has deployed. -/
def Sent.contract (s : Sent) : Option Address :=
  match s.receipt with
  | some ⟨true, _⟩ => if s.tx.isDeployment then some s.contractAddress else none
  | _ => none

/-- The contracts deployed so far, the latest first. -/
def Chain.contracts (c : Chain) : List Address := c.sent.filterMap Sent.contract

/-- Nothing is deployed, named or on file, and the setup may deploy. -/
structure FirstRun (cfg : PaymasterSetupConfig) (c : Chain) : Prop where
  standalone : cfg.mode = .standalone
  auto : cfg.autoSetup = true
  unnamed : cfg.paymaster = none
  path : cfg.statePath ≠ none
  file : c.file = none
  sent : c.sent = []

/-- The node accepts the deployment of a start that finds no file. -/
def Accepted (script : Script Fate) : Prop :=
  script 0 ≠ none ∧ (script 1 = some .fine ∨ ∃ e, script 1 = some (.lost e))

/-- From there on the start goes on: its deployment reverts, or all is met until the file is
written. -/
def Undisturbed (cfg : PaymasterSetupConfig) (script : Script Fate) : Prop :=
  script 1 = some .fine ∧ (script 2 = some .reverts ∨
    ((∀ n < beforeWrite cfg, script (1 + n) = some .fine) ∧
      (script (1 + beforeWrite cfg) = some .fine ∨
        ∃ e, script (1 + beforeWrite cfg) = some (.lost e))))

def SetupStep.Meets (cfg : PaymasterSetupConfig) (c : Chain) : SetupStep → Prop
  | .start script => c.file = none → Accepted script → Undisturbed cfg script
  | .mined .. => True

def Meets (polls : Nat) (cfg : PaymasterSetupConfig) : List SetupStep → Chain → Prop
  | [], _ => True
  | s :: steps, c => s.Meets cfg c ∧ Meets polls cfg steps (c.step polls cfg s)

variable {cfg : PaymasterSetupConfig} {account paymaster : Address} {c c' : Chain}
  {script rest : Script Fate} {polls : Nat}

/-! ### The invariant -/

/-- Nothing pending could deploy a contract or change one. -/
def Settled (c : Chain) : Prop := ∀ s ∈ c.sent, s.receipt = none → s.tx.Funds

/-- Nothing is deployed, or the one contract is wired and on file. -/
inductive Deployment (cfg : PaymasterSetupConfig) (c : Chain) : Prop where
  | absent : c.file = none → c.contracts = [] → Settled c → Deployment cfg c
  | present (paymaster : Address) (hash : Bytes32) (w : Worker) :
    c.file = some (.json (stateJson paymaster hash)) → c.contracts = [paymaster] →
    c.worker paymaster = some w → Deployed cfg w → Settled c → Deployment cfg c

/-- The chain may differ in what is staked and deposited only. -/
structure SameDeployment (c c' : Chain) : Prop where
  file : c'.file = c.file
  worker : c'.worker = c.worker
  contracts : c'.contracts = c.contracts
  settled : Settled c → Settled c'

theorem SameDeployment.refl (c : Chain) : SameDeployment c c := ⟨rfl,rfl,rfl,id⟩

theorem Deployment.carry (now : Deployment cfg c) (same : SameDeployment c c') :
    Deployment cfg c' := by
  cases now with
  | absent file contracts settled =>
    exact .absent (same.file.trans file) (same.contracts.trans contracts) (same.settled settled)
  | present paymaster hash w file contracts worker made settled =>
    exact .present paymaster hash w (same.file.trans file) (same.contracts.trans contracts)
      (by rw [same.worker,worker]) made (same.settled settled)

theorem contract_funds {s : Sent} (funds : s.tx.Funds) : s.contract = none := by
  have none : s.tx.isDeployment = false := by
    cases tx : s.tx with
    | deploy account args =>
      rw [tx] at funds
      exact funds.elim
    | call address call value => rfl
  unfold Sent.contract
  split <;> simp [none]

/-- Mining what a settled chain has pending. -/
theorem mine_same (settled : Settled c) (n : Nat) (success : Bool) :
    SameDeployment c (c.mine n success) := by
  unfold Chain.mine
  split
  · next hash contractAddress tx found =>
    have funds : tx.Funds := settled _ (List.mem_of_getElem? found) rfl
    have contracts : (c.sent.set n (Chain.Sent.mined ⟨hash,contractAddress,tx,none⟩ success)).filterMap
        Sent.contract = c.contracts := by
      have none (receipt : Option Receipt) : Sent.contract ⟨hash,contractAddress,tx,receipt⟩ = .none :=
        contract_funds funds
      have same := map_set_same (f := Sent.contract)
        (x := Chain.Sent.mined ⟨hash,contractAddress,tx,.none⟩ success) found
        ((none _).trans (none _).symm)
      have flat (sent : List Sent) : sent.filterMap Sent.contract =
          (sent.map Sent.contract).filterMap id := by simp [List.filterMap_map]
      rw [Chain.contracts,flat,flat,same]
    have later : ∀ s ∈ c.sent.set n (Chain.Sent.mined ⟨hash,contractAddress,tx,none⟩ success),
        s.receipt = none → s.tx.Funds := by
      intro s member pending
      rcases List.mem_or_eq_of_mem_set member with old | rfl
      · exact settled s old pending
      · exact funds
    cases success with
    | false => exact ⟨rfl,rfl,contracts,fun _ => later⟩
    | true =>
      have same := apply_same (c := c) contractAddress funds
      exact ⟨same.file,same.worker,contracts,fun _ => later⟩
  · exact .refl c

/-! ### After the contract is known -/

/-- Reads, stakes and deposits, and waiting for them. -/
def Tops : SetupQuery → Prop
  | .deployContract _ | .writeContract _ (.setRouter _) _ => False
  | _ => True

theorem accept_same {tx : Transaction} (funds : tx.Funds) : SameDeployment c (c.accept tx) := by
  refine ⟨rfl,rfl,?_,?_⟩
  · exact List.filterMap_cons_none (contract_funds funds)
  · intro settled s member pending
    rcases List.mem_cons.mp member with rfl | old
    · exact funds
    · exact settled s old pending

theorem Deployment.settled (now : Deployment cfg c) : Settled c := by
  cases now with
  | absent _ _ settled => exact settled
  | present _ _ _ _ _ _ _ settled => exact settled

theorem Deployment.tops {p : Setup α} (confined : p.Confined Tops fun _ => False)
    (now : Deployment cfg c) : Deployment cfg (p.play (host account) script c).world := by
  refine play_keeps (K := fun c' : Chain => Deployment cfg c') confined ?_ ?_ now
  · intro fate query c' tops now
    change Deployment cfg (c'.answer account fate query).2
    have moves : Moves account c' query (c'.answer account fate query).2 := c'.answer_moves fate query
    generalize (c'.answer account fate query).2 = after at moves ⊢
    cases moves with
    | still => exact now
    | deployed args => exact tops.elim
    | written address call value =>
      cases call with
      | setRouter router => exact tops.elim
      | addStake delay =>
        have funds : Transaction.Funds (.call address (.addStake delay) value) := trivial
        exact now.carry (accept_same funds)
      | deposit =>
        have funds : Transaction.Funds (.call address .deposit value) := trivial
        exact now.carry (accept_same funds)
    | mined hash n success => exact now.carry (mine_same now.settled n success)
  · exact fun _ _ _ does _ => does.elim

theorem tops_of_reads {query : SetupQuery} (reads : Reads query) : Tops query := by
  cases query with
  | deployContract | writeContract | waitForTransactionReceipt => exact reads.elim
  | _ => trivial

theorem prepare_tops : (prepare polls cfg paymaster).Confined Tops fun _ => False := by
  have reading {p : Setup Unit} (reads : p.Confined Reads fun _ => False) :
      p.Confined Tops fun _ => False := confined_mono reads fun _ => tops_of_reads
  have sends {call : SetupCall} {value : Int} (tops : Tops (.writeContract paymaster call value)) :
      (sendAndWait paymaster call value).Confined Tops fun _ => False :=
    confined_bind (confined_await tops) fun hash => confined_bind (confined_await trivial) fun _ =>
      trivial
  refine confined_bind (reading assertPaymasterCompatible_reads) fun _ => ?_
  refine confined_bind (confined_await trivial) fun info => ?_
  refine confined_bind (confined_await trivial) fun owner => ?_
  refine confined_bind ?_ fun _ => confined_bind ?_ fun _ => ?_
  · unfold keepStake
    split
    · simp only
      split
      · exact sends trivial
      · trivial
    · trivial
  · unfold keepDeposit
    split
    · simp only
      split
      · exact sends trivial
      · trivial
    · trivial
  · exact confined_bind (reading register_reads) fun _ => trivial

/-! ### One start -/

/-- Reading the file. -/
def Peeks : SetupOp → Prop
  | .writeFileSync .. => False
  | _ => True

theorem readState_peeks : (readState cfg).Confined (fun _ => False) Peeks := by
  unfold readState
  cases cfg.statePath with
  | none => trivial
  | some path =>
    refine confined_bind (confined_act trivial) fun found => ?_
    split
    · exact confined_bind (confined_act trivial) fun text => confined_bind trivial fun _ => trivial
    · trivial

theorem readState_world : ((readState cfg).play (host account) script c).world = c := by
  refine play_keeps (K := fun c' : Chain => c' = c) readState_peeks ?_ ?_ rfl
  · exact fun _ _ _ asked _ => asked.elim
  · intro fate op c' peeks now
    refine Eq.trans ?_ now
    change (c'.perform fate op).2 = c'
    cases op with
    | existsSync path => rfl
    | readFileSync path =>
      unfold Chain.perform
      cases c'.file <;> cases fate <;> rfl
    | writeFileSync path value => exact peeks.elim

theorem readFileSync_ok {fate : Fate} {path : String} {content : FileContent}
    (read : (c.perform fate (.readFileSync path)).1 = .ok content) : c.file = some content := by
  unfold Chain.perform at read
  cases file : c.file with
  | none =>
    rw [file] at read
    cases fate <;> cases read
  | some there =>
    rw [file] at read
    cases fate <;> cases read
    rfl

/-- What is read is what is there. -/
theorem readState_ok {v : Json}
    (ran : (readState cfg).play (host account) script c = ⟨some (.ok v), c', rest⟩) :
    stateOf cfg c.file = .ok v := by
  unfold readState at ran
  unfold stateOf
  cases path : cfg.statePath with
  | none =>
    rw [path] at ran
    cases ran
    rfl
  | some path' =>
    rw [path] at ran
    obtain ⟨found,c₁,script₁,asked,ran⟩ := play_bind_ok ran
    obtain ⟨fate,_,⟨⟩,_⟩ := perform_ok asked
    cases content : c.file with
    | none =>
      rw [content] at ran
      cases ran
      rfl
    | some text =>
      rw [content,if_pos (by rfl)] at ran
      obtain ⟨read,c₂,script₂,asked,ran⟩ := play_bind_ok ran
      obtain ⟨fate',_,here,_⟩ := perform_ok asked
      obtain ⟨content',_,_,lifted,ran⟩ := play_bind_ok ran
      have answered : read = .ok content' := Option.some.inj (congrArg Played.outcome lifted)
      have same : c.file = some content' := readFileSync_ok ((congrArg Prod.fst here).trans answered)
      cases content.symm.trans same
      exact Option.some.inj (congrArg Played.outcome ran)

/-- A start that names a contract only reads. -/
theorem standalone_named
    (named : ∀ v, stateOf cfg c.file = .ok v → candidate cfg v = .ok (some paymaster)) :
    ((ensureStandaloneContract cfg).play (host account) script c).world = c := by
  rw [ensureStandaloneContract]
  cases ran : (readState cfg).play (host account) script c with
  | mk outcome c₁ script₁ =>
    have same : c₁ = c := (congrArg Played.world ran).symm.trans readState_world
    cases outcome with
    | none => rw [play_stopped ran,same]
    | some r =>
      cases r with
      | error e => rw [play_threw ran,same]
      | ok v =>
        rw [play_returned ran,named v (readState_ok ran),play_returned (play_lift _),same]
        refine play_reads (confined_bind (confined_await trivial) fun code => ?_)
        split
        · trivial
        · refine confined_bind (confined_await trivial) fun signer => ?_
          split <;> trivial

theorem contracts_settle {tx : Transaction} {success : Bool} :
    (c.settle tx success).contracts =
      if success = true ∧ tx.isDeployment = true then c.nextAddress :: c.contracts
      else c.contracts := by
  rw [Chain.contracts,Chain.settle_sent]
  cases success with
  | false => exact List.filterMap_cons_none rfl
  | true =>
    cases deploys : tx.isDeployment with
    | false => exact List.filterMap_cons_none (by simp [Chain.settled,Chain.Sent.mined,Sent.contract,deploys])
    | true =>
      rw [if_pos ⟨rfl,rfl⟩]
      exact List.filterMap_cons_some (by simp [Chain.settled,Chain.Sent.mined,Sent.contract,deploys])

theorem Settled.settle {tx : Transaction} {success : Bool} (settled : Settled c) :
    Settled (c.settle tx success) := by
  intro s member pending
  rw [Chain.settle_sent] at member
  rcases List.mem_cons.mp member with rfl | old
  · cases pending
  · exact settled s old pending

theorem Deployment.recorded (contracts : c.contracts = []) (settled : Settled c) :
    Deployment cfg (recorded cfg c) := by
  obtain ⟨w,worker,made⟩ : ∃ w, (wired cfg c).worker c.nextAddress = some w ∧ Deployed cfg w :=
    wired_worker
  have both : (wired cfg c).contracts = [c.nextAddress] ∧ Settled (wired cfg c) := by
    unfold wired
    cases cfg.daoRouter with
    | none =>
      refine ⟨?_,settled.settle⟩
      simp only
      rw [contracts_settle,if_pos ⟨rfl,rfl⟩,contracts]
    | some router =>
      refine ⟨?_,settled.settle.settle⟩
      simp only
      rw [contracts_settle,if_neg (by simp [Transaction.isDeployment]),contracts_settle,
        if_pos ⟨rfl,rfl⟩,contracts]
  exact .present _ _ w rfl both.1 worker made both.2

/-- What an undisturbed deployment leaves, or one that the node has not accepted. -/
theorem deployWorker_leaves (file : c.file = none) (contracts : c.contracts = [])
    (settled : Settled c) (path : cfg.statePath ≠ none)
    (undisturbed : Accepted script → Undisturbed cfg script) (started : script 0 ≠ none) :
    Deployment cfg ((deployWorker cfg).play (host cfg.signer) (script.after 1) c).world := by
  have still : Deployment cfg c := .absent file contracts settled
  have sent : c.answer cfg.signer .fine (.deployContract (constructorArgs cfg)) =
      (.ok c.nextHash,c.accept (deployment cfg)) := rfl
  cases met : script 1 with
  | none =>
    have stopped : script.after 1 0 = none := met
    rw [deployWorker,play_stopped (play_await_stopped stopped)]
    exact still
  | some fate =>
    have met' : script.after 1 0 = some fate := met
    cases fate with
    | fails e =>
      rw [deployWorker,play_threw (play_await met' rfl)]
      exact still
    | reverts =>
      rw [deployWorker,play_threw (play_await met' rfl)]
      exact still
    | lost e =>
      have fine := (undisturbed ⟨started,.inr ⟨e,met⟩⟩).1
      rw [met] at fine
      cases fine
    | fine =>
      rcases (undisturbed ⟨started,.inl met⟩).2 with reverted | ⟨fine,written⟩
      · have reverted : (script.after 1).after 1 0 = some .reverts := reverted
        have refused : deployedAddress c.nextHash (c.receiptOf (deployment cfg) false) =
            .error (.error s!"paymaster deployment {toHex c.nextHash.bytes} failed") := rfl
        rw [deployWorker,play_returned (play_await met' sent),
          play_returned (play_await reverted Chain.accept_reverts),refused,play_threw (play_lift _)]
        refine .absent file ?_ settled.settle
        rw [contracts_settle,if_neg (by simp),contracts]
      · obtain ⟨path',configured⟩ := Option.ne_none_iff_exists'.mp path
        have done : Deployment cfg (recorded cfg c) := .recorded contracts settled
        have fine : ∀ n < beforeWrite cfg, script.after 1 n = some .fine := fine
        rw [deployWorker_wired fine,writeState,configured]
        rcases written with met | ⟨e,met⟩
        · have met : (script.after 1).after (beforeWrite cfg) 0 = some .fine := by
            simpa using met
          rw [play_returned (play_returned (play_perform met rfl))]
          exact done
        · have met : (script.after 1).after (beforeWrite cfg) 0 = some (.lost e) := by
            simpa using met
          rw [play_threw ((play_returned (play_perform met rfl)).trans (play_lift _))]
          exact done

/-- What does not change between starts. -/
structure Deploys (cfg : PaymasterSetupConfig) : Prop where
  standalone : cfg.mode = .standalone
  auto : cfg.autoSetup = true
  unnamed : cfg.paymaster = none
  path : cfg.statePath ≠ none

theorem Deploys.named (deploys : Deploys cfg) {hash : Bytes32}
    (file : c.file = some (.json (stateJson paymaster hash))) (v : Json)
    (state : stateOf cfg c.file = .ok v) : candidate cfg v = .ok (some paymaster) := by
  obtain ⟨path,configured⟩ := Option.ne_none_iff_exists'.mp deploys.path
  have read : stateOf cfg c.file = .ok (stateJson paymaster hash) := by
    simp only [stateOf,configured,file,parseState]
  cases read.symm.trans state
  rw [candidate,deploys.unnamed]
  exact statePaymaster_stateJson ..

/-- With no file there is nothing to name a contract, so the start deploys one. -/
theorem Deploys.unfiled (deploys : Deploys cfg) (file : c.file = none) :
    (ensureStandaloneContract cfg).play (host account) script c =
      match script 0 with
      | none => ⟨none, c, script⟩
      | some _ => (deployWorker cfg).play (host account) (script.after 1) c := by
  obtain ⟨path,configured⟩ := Option.ne_none_iff_exists'.mp deploys.path
  cases met : script 0 with
  | none =>
    refine play_stopped ?_
    rw [readState,configured]
    exact play_stopped (play_perform_stopped met)
  | some fate =>
    have asked : c.perform fate (.existsSync path) = (false,c) := by simp [Chain.perform,file]
    have read : (readState cfg).play (host account) script c =
        ⟨some (.ok (.object [])), c, script.after 1⟩ := by
      rw [readState,configured]
      exact play_returned (play_perform met asked)
    have unnamed : candidate cfg (.object []) = .ok none := by
      rw [candidate,deploys.unnamed]
      rfl
    rw [ensureStandaloneContract,play_returned read,unnamed,play_returned (play_lift _)]
    simp only
    rw [if_pos deploys.auto]

theorem Deployment.standalone (deploys : Deploys cfg) (now : Deployment cfg c)
    (meets : c.file = none → Accepted script → Undisturbed cfg script) :
    Deployment cfg
      ((ensureStandaloneContract cfg).play (host cfg.signer) script c).world := by
  cases now with
  | absent file contracts settled =>
    rw [deploys.unfiled file]
    cases met : script 0 with
    | none => exact .absent file contracts settled
    | some fate =>
      exact deployWorker_leaves file contracts settled deploys.path (meets file) (by simp [met])
  | present paymaster hash w file contracts worker made settled =>
    rw [standalone_named (deploys.named file)]
    exact .present paymaster hash w file contracts worker made settled

theorem Deployment.step (deploys : Deploys cfg) (now : Deployment cfg c) {s : SetupStep}
    (meets : s.Meets cfg c) : Deployment cfg (c.step polls cfg s) := by
  cases s with
  | start script =>
    rw [Chain.step,ensurePaymasterSetup,deploys.standalone]
    exact play_bind_keeps (K := fun c' : Chain => Deployment cfg c') (now.standalone deploys meets)
      fun _ _ _ now => now.tops prepare_tops
  | mined n success => exact now.carry (mine_same now.settled n success)

/-! ### Whole runs -/

theorem Deployment.run (deploys : Deploys cfg) (now : Deployment cfg c) {steps : List SetupStep}
    (meets : Meets polls cfg steps c) : Deployment cfg (c.run polls cfg steps) := by
  induction steps generalizing c with
  | nil => exact now
  | cons s steps ih => exact ih (now.step deploys meets.1) meets.2

theorem FirstRun.deploys (first : FirstRun cfg c) : Deploys cfg :=
  ⟨first.standalone,first.auto,first.unnamed,first.path⟩

theorem FirstRun.deployment (first : FirstRun cfg c) : Deployment cfg c := by
  refine .absent first.file ?_ ?_
  · rw [Chain.contracts,first.sent]
    rfl
  · intro s member
    rw [first.sent] at member
    cases member

/-- The requests of a first start up to the written file are met. -/
def Uninterrupted (script : Script Fate) : Prop := ∀ n < 6, script n = some .fine

theorem Uninterrupted.undisturbed (whole : Uninterrupted script) : Undisturbed cfg script := by
  have short : beforeWrite cfg ≤ 4 := beforeWrite_range.2
  exact ⟨whole 1 (by decide),.inr ⟨fun n small => whole (1 + n) (by omega),
    .inl (whole (1 + beforeWrite cfg) (by omega))⟩⟩

/-- The contract is on file, and it is the only one. -/
def Remembered (cfg : PaymasterSetupConfig) (c : Chain) : Prop :=
  ∃ paymaster hash w, c.file = some (.json (stateJson paymaster hash)) ∧
    c.contracts = [paymaster] ∧ c.worker paymaster = some w ∧
    w.router = cfg.daoRouter.getD zeroAddress

theorem Deployment.remembered (now : Deployment cfg c) (file : c.file ≠ none) : Remembered cfg c := by
  cases now with
  | absent none => exact absurd none file
  | present paymaster hash w there contracts worker made =>
    exact ⟨paymaster,hash,w,there,contracts,worker,made.router⟩

theorem apply_file (contractAddress : Address) (tx : Transaction) :
    (c.apply contractAddress tx).file = c.file := by
  by_cases funds : tx.Funds
  · exact (apply_same contractAddress funds).file
  · cases tx with
    | deploy account args => rfl
    | call address call value =>
      cases call with
      | setRouter router => rfl
      | addStake delay => exact absurd trivial funds
      | deposit => exact absurd trivial funds

theorem mine_file (n : Nat) (success : Bool) : (c.mine n success).file = c.file := by
  unfold Chain.mine
  split
  · cases success with
    | false => rfl
    | true => exact apply_file _ _
  · rfl

theorem answer_file {fate : Fate} {query : SetupQuery} :
    (c.answer account fate query).2.file = c.file := by
  have moves : Moves account c query (c.answer account fate query).2 := c.answer_moves fate query
  generalize (c.answer account fate query).2 = after at moves ⊢
  cases moves with
  | still => rfl
  | deployed args => rfl
  | written address call value => rfl
  | mined hash n success => exact mine_file n success

/-- After a first start that is not interrupted there is a file. -/
theorem Deployment.filed (deploys : Deploys cfg) (now : Deployment cfg c)
    (whole : Uninterrupted script) : (c.step polls cfg (.start script)).file ≠ none := by
  have found : ((ensureStandaloneContract cfg).play (host cfg.signer) script c).world.file ≠ none := by
    cases now with
    | absent file contracts settled =>
      obtain ⟨path,configured⟩ := Option.ne_none_iff_exists'.mp deploys.path
      have undisturbed : Undisturbed cfg script := whole.undisturbed
      have short : beforeWrite cfg ≤ 4 := beforeWrite_range.2
      have fine : ∀ n < beforeWrite cfg, script.after 1 n = some .fine :=
        fun n small => whole (1 + n) (by omega)
      have last : (script.after 1).after (beforeWrite cfg) 0 = some .fine := by
        simpa using whole (1 + beforeWrite cfg) (by omega)
      rw [deploys.unfiled file,whole 0 (by decide)]
      simp only
      rw [deployWorker_wired fine,play_returned (writeState_fine configured last)]
      simp
    | present paymaster hash w file =>
      rw [standalone_named (deploys.named file),file]
      simp
  rw [Chain.step,ensurePaymasterSetup,deploys.standalone]
  refine play_bind_keeps (K := fun c' : Chain => c'.file ≠ none) found fun paymaster script c' filed => ?_
  refine play_keeps (K := fun c' : Chain => c'.file ≠ none) prepare_tops ?_ ?_ filed
  · intro fate query c' _ filed
    exact answer_file.trans_ne filed
  · exact fun _ _ _ does _ => does.elim

/-- As long as every start sees its accepted deployment through to the file, at most one contract
is ever deployed, and a start that is not interrupted leaves it on file with its router. -/
theorem deploys_once (polls : Nat) (first : FirstRun cfg c) {steps : List SetupStep}
    (meets : Meets polls cfg steps c) :
    (c.run polls cfg steps).contracts.length ≤ 1 ∧
    ∀ script, Uninterrupted script →
      Remembered cfg ((c.run polls cfg steps).step polls cfg (.start script)) := by
  have now := first.deployment.run first.deploys meets
  refine ⟨?_,fun script whole => ?_⟩
  · cases now with
    | absent _ contracts => simp [contracts]
    | present _ _ _ _ contracts => simp [contracts]
  · have meets : SetupStep.Meets cfg (c.run polls cfg steps) (.start script) :=
      fun _ _ => whole.undisturbed
    exact (now.step first.deploys meets).remembered (now.filed first.deploys whole)

/-! ### Starts that are cut short -/

def firstConfig : PaymasterSetupConfig where
  chainId := 1
  entryPoint := 0x4337084D9E255Ff0702461CF8895CE9E3b5Ff108
  signer := 0x11
  mode := .standalone
  paymaster := none
  autoSetup := true
  stakeWei := 0
  unstakeDelaySec := 86400
  depositWei := 0
  router := some 0xd90e2f925DA726b50C4Ed8D0Fb90Ad053324F31b
  gasMarginBps := none
  postOpGasOverhead := none
  stateFile := some "./.paymaster-1.json"
  rewardAccount := none
  requireRegistration := some false
  waitForRegistration := some true

def firstChain : Chain where
  file := none
  chainId := 1
  worker _ := none
  info _ _ := ⟨0, false, 0⟩
  relayerRegistry _ := none
  workers _ _ := zeroAddress
  sent := []
  createAddress n := BitVec.ofNat 160 (0x100 + n)
  txHash n := BitVec.ofNat 256 n
  runtimeCode := ⟨[0x60], by decide⟩
  refusesNegative _ := some (.viem "IntegerOutOfRangeError")

theorem firstRun : FirstRun firstConfig firstChain := ⟨rfl,rfl,rfl,by decide,rfl,rfl⟩

/-- A start that does not get to its deployment, and one that is met throughout. -/
theorem deploys_once_restarted :
    (firstChain.run 0 firstConfig [.start fun _ => none,.start (.always .fine)]).contracts.length ≤ 1 ∧
    ∀ script, Uninterrupted script → Remembered firstConfig
      ((firstChain.run 0 firstConfig [.start fun _ => none,.start (.always .fine)]).step 0 firstConfig
        (.start script)) := by
  have whole : Uninterrupted (.always .fine) := fun _ _ => rfl
  refine deploys_once 0 firstRun ⟨?_,?_,trivial⟩
  · exact fun _ accepted => absurd rfl accepted.1
  · exact fun _ _ => whole.undisturbed

/-- The first start stops once its deployment is sent, and the next one deploys again; and when
the router transaction reverts, a start that is never stopped files a contract without its router. -/
theorem second_deployment : FirstRun firstConfig firstChain ∧
    (firstChain.run 0 firstConfig [.start fun n => if n < 2 then some .fine else none,.mined 0 true,
      .start (.always .fine)]).contracts = [0x101,0x100] ∧
    ¬Remembered firstConfig (firstChain.step 0 firstConfig
      (.start fun n => if n = 4 then some .reverts else some .fine)) := by
  refine ⟨firstRun,by decide +kernel,?_⟩
  rintro ⟨paymaster,hash,w,_,contracts,worker,router⟩
  have first : (firstChain.step 0 firstConfig
      (.start fun n => if n = 4 then some .reverts else some .fine)).contracts = [0x100] := by
    decide +kernel
  cases contracts.symm.trans first
  have unwired : ((firstChain.step 0 firstConfig
      (.start fun n => if n = 4 then some .reverts else some .fine)).worker 0x100).map Worker.router =
        some zeroAddress := by decide +kernel
  rw [worker,Option.map_some,router] at unwired
  exact absurd unwired (by decide)

end TornadoRelayer.Setup
