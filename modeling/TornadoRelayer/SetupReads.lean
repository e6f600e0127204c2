import Mathlib.Tactic.IntervalCases
import TornadoRelayer.StandaloneContract

/-! What the setup may do before it has checked its paymaster. The check only reads; it passes
when every read is answered and every answer fits, and nothing is staked or deposited before. -/
namespace TornadoRelayer.Setup

open BigEndian EventLoop JavaScript

variable {cfg : PaymasterSetupConfig} {account paymaster : Address} {c c' : Chain}
  {script rest : Script Fate} {polls : Nat}

/-! ### Reads -/

def Reads : SetupQuery → Prop
  | .deployContract _ | .writeContract .. | .waitForTransactionReceipt _ => False
  | _ => True

theorem answer_reads {fate : Fate} {query : SetupQuery} (reads : Reads query) :
    (c.answer account fate query).2 = c := by
  cases query with
  | deployContract | writeContract | waitForTransactionReceipt => exact reads.elim
  | _ => cases fate <;> rfl

/-- A program of reads leaves the chain as it was. -/
theorem play_reads {p : Setup α} (reads : p.Confined Reads fun _ => False) :
    (p.play (host account) script c).world = c :=
  play_keeps (K := fun c' => c' = c) reads (fun _ _ _ asked now => (answer_reads asked).trans now)
    (fun _ _ _ done _ => done.elim) rfl

theorem confined_await {asks : SetupQuery → Prop} {does : SetupOp → Prop} {query : SetupQuery}
    (asked : asks query) : (await query).Confined asks does := confined_ask asked

/-- What a read is answered when it is met. -/
structure Answers (c : Chain) (query : SetupQuery) (answer : Except Thrown query.Answer) : Prop where
  reading : ∀ account fate, c.answer account fate query = c.reading answer fate

theorem Answers.play {query : SetupQuery} {a : query.Answer} (answers : Answers c query (.ok a))
    (fine : script 0 = some .fine) :
    (await query).play (host account) script c = ⟨some (.ok a), c, script.after 1⟩ :=
  play_await fine (answers.reading account .fine)

/-- A read that returned was met. -/
theorem Answers.ok {query : SetupQuery} {answer : Except Thrown query.Answer} {a : query.Answer}
    (answers : Answers c query answer)
    (ran : (await query).play (host account) script c = ⟨some (.ok a), c', rest⟩) :
    script 0 = some .fine ∧ answer = .ok a ∧ c' = c ∧ rest = script.after 1 := by
  cases met : script 0 with
  | none => cases (play_ask_stopped met).symm.trans ran
  | some fate =>
    have answered := answers.reading account fate
    cases fate with
    | fine =>
      cases (play_await met answered).symm.trans ran
      exact ⟨rfl,rfl,rfl,rfl⟩
    | fails e => cases (play_await met answered).symm.trans ran
    | lost e => cases (play_await met answered).symm.trans ran
    | reverts => cases (play_await met answered).symm.trans ran

theorem rethrow_ok {p : Setup α} {wrap : Thrown → Thrown} {a : α}
    (ran : (tryCatch p fun e => throw (wrap e) : Setup α).play (host account) script c =
      ⟨some (.ok a), c', rest⟩) : p.play (host account) script c = ⟨some (.ok a), c', rest⟩ := by
  have wrapped := (play_rethrow p wrap).symm.trans ran
  cases inner : p.play (host account) script c with
  | mk outcome s₁ script₁ =>
    rw [inner] at wrapped
    cases outcome with
    | none => cases wrapped
    | some r =>
      cases r with
      | error e => cases wrapped
      | ok b =>
        cases wrapped
        rfl

/-- A program that returned had its first read met. -/
theorem Answers.bind_ok {query : SetupQuery} {answer : Except Thrown query.Answer}
    {f : query.Answer → Setup α} {b : α} (answers : Answers c query answer)
    (ran : (await query >>= f).play (host account) script c = ⟨some (.ok b), c', rest⟩) :
    script 0 = some .fine ∧ ∃ a, answer = .ok a ∧
      (f a).play (host account) (script.after 1) c = ⟨some (.ok b), c', rest⟩ := by
  obtain ⟨a,c₁,script₁,read,later⟩ := play_bind_ok ran
  obtain ⟨fine,answered,same,shifted⟩ := answers.ok read
  rw [same,shifted] at later
  exact ⟨fine,a,answered,later⟩

theorem Answers.play_paymaster {functionName : String} {query : SetupQuery} {a : query.Answer}
    (answers : Answers c query (.ok a)) (fine : script 0 = some .fine) :
    (readPaymaster paymaster functionName query).play (host account) script c =
      ⟨some (.ok a), c, script.after 1⟩ := by
  refine (play_rethrow _ _).trans ?_
  rw [answers.play fine]
  rfl

theorem Answers.paymaster_bind_ok {functionName : String} {query : SetupQuery}
    {answer : Except Thrown query.Answer} {f : query.Answer → Setup α} {b : α}
    (answers : Answers c query answer)
    (ran : (readPaymaster paymaster functionName query >>= f).play (host account) script c =
      ⟨some (.ok b), c', rest⟩) :
    script 0 = some .fine ∧ ∃ a, answer = .ok a ∧
      (f a).play (host account) (script.after 1) c = ⟨some (.ok b), c', rest⟩ := by
  obtain ⟨a,c₁,script₁,read,later⟩ := play_bind_ok ran
  obtain ⟨fine,answered,same,shifted⟩ := answers.ok (rethrow_ok read)
  rw [same,shifted] at later
  exact ⟨fine,a,answered,later⟩

/-! ### The check -/

theorem readPaymaster_reads {functionName : String} {query : SetupQuery} (reads : Reads query) :
    (readPaymaster paymaster functionName query).Confined Reads fun _ => False :=
  confined_rethrow (confined_await reads)

theorem checkMaster_reads {router : Address} :
    (checkMaster cfg paymaster router).Confined Reads fun _ => False := by
  unfold checkMaster
  cases expectedMaster cfg with
  | none => trivial
  | some rewardAccount =>
    refine confined_bind (confined_rethrow ?_) fun master => ?_
    · exact confined_bind (confined_await trivial) fun registry => confined_await trivial
    · split <;> trivial

theorem assertPaymasterCompatible_reads :
    (assertPaymasterCompatible cfg paymaster).Confined Reads fun _ => False := by
  refine confined_bind (confined_await trivial) fun code => ?_
  split
  · trivial
  · refine confined_bind (confined_await trivial) fun chainId => ?_
    split
    · trivial
    · refine confined_bind (readPaymaster_reads trivial) fun length => ?_
      refine confined_bind (readPaymaster_reads trivial) fun entryPoint => ?_
      refine confined_bind (readPaymaster_reads trivial) fun verifyingSigner => ?_
      refine confined_bind (readPaymaster_reads trivial) fun router => ?_
      exact confined_bind trivial fun _ => checkMaster_reads

/-- All that must be true of a paymaster before anything is spent on it. -/
structure Compatible (cfg : PaymasterSetupConfig) (c : Chain) (paymaster : Address) (w : Worker) :
    Prop where
  worker : c.worker paymaster = some w
  chainId : (c.chainId : Int) = cfg.chainId
  layout : w.layoutLength = Paymaster.PAYMASTER_AND_DATA_LENGTH
  entryPoint : w.entryPoint = cfg.entryPoint
  signer : w.verifyingSigner = cfg.signer
  router : ∀ router, cfg.daoRouter = some router → w.router = router
  master : ∀ rewardAccount, expectedMaster cfg = some rewardAccount →
    ∃ registry, c.relayerRegistry w.router = some registry ∧
      (c.workers registry paymaster = zeroAddress ∨ c.workers registry paymaster = rewardAccount)

def checkReads (cfg : PaymasterSetupConfig) : Nat := if expectedMaster cfg = none then 6 else 8

theorem checkGetters_ok {length : Nat} {entryPoint verifyingSigner router : Address} :
    checkGetters cfg paymaster length entryPoint verifyingSigner router = .ok () ↔
      length = Paymaster.PAYMASTER_AND_DATA_LENGTH ∧ entryPoint = cfg.entryPoint ∧
      verifyingSigner = cfg.signer ∧ ∀ configured, cfg.daoRouter = some configured →
        router = configured := by
  unfold checkGetters
  by_cases layout : length = Paymaster.PAYMASTER_AND_DATA_LENGTH
  · by_cases bound : entryPoint = cfg.entryPoint
    · by_cases signs : verifyingSigner = cfg.signer
      · cases cfg.daoRouter with
        | none => simp [layout,bound,signs]
        | some configured => simp [layout,bound,signs]
      · simp [layout,bound,signs]
    · simp [layout,bound]
  · simp [layout]

theorem checkMaster_play {router : Address}
    (registered : ∀ rewardAccount, expectedMaster cfg = some rewardAccount →
      ∃ registry, c.relayerRegistry router = some registry ∧
        (c.workers registry paymaster = zeroAddress ∨
          c.workers registry paymaster = rewardAccount)) :
    (checkMaster cfg paymaster router).play (host account) (.always .fine) c =
      ⟨some (.ok ()), c, .always .fine⟩ := by
  unfold checkMaster
  cases expected : expectedMaster cfg with
  | none => rfl
  | some rewardAccount =>
    obtain ⟨registry,found,named⟩ := registered rewardAccount expected
    have registryRead : Answers c (.readAddress router .relayerRegistry) (.ok registry) :=
      ⟨fun _ _ => by simp [Chain.answer,Chain.getter,found]⟩
    have workersRead : Answers c (.workers registry paymaster)
        (.ok (c.workers registry paymaster)) := ⟨fun _ _ => rfl⟩
    have read : (readMaster paymaster router).play (host account) (.always .fine) c =
        ⟨some (.ok (c.workers registry paymaster)), c, .always .fine⟩ := by
      refine (play_rethrow _ _).trans ?_
      rw [play_returned (registryRead.play rfl),workersRead.play rfl]
      rfl
    simp only
    rw [play_returned read,if_neg]
    · rfl
    · rintro ⟨some,other⟩
      exact named.elim some other

theorem Compatible.play {w : Worker} (fits : Compatible cfg c paymaster w) :
    (assertPaymasterCompatible cfg paymaster).play (host account) (.always .fine) c =
      ⟨some (.ok ()), c, .always .fine⟩ := by
  have getter (name : AddressGetter) (field : Worker → Address)
      (named : c.getter paymaster name = c.ofWorker paymaster field) :
      Answers c (.readAddress paymaster name) (.ok (field w)) :=
    ⟨fun _ _ => by simp [Chain.answer,named,Chain.ofWorker,fits.worker]⟩
  have code : Answers c (.getCode paymaster) (.ok (some w.code)) :=
    ⟨fun _ _ => by simp [Chain.answer,fits.worker]⟩
  have chainId : Answers c .getChainId (.ok c.chainId) := ⟨fun _ _ => rfl⟩
  have length : Answers c (.PAYMASTER_AND_DATA_LENGTH paymaster) (.ok w.layoutLength) :=
    ⟨fun _ _ => by simp [Chain.answer,Chain.ofWorker,fits.worker]⟩
  have passes : checkGetters cfg paymaster w.layoutLength w.entryPoint w.verifyingSigner w.router =
      .ok () := checkGetters_ok.mpr ⟨fits.layout,fits.entryPoint,fits.signer,fits.router⟩
  rw [assertPaymasterCompatible,play_returned (code.play rfl)]
  simp only [Option.getD_some,if_neg w.deployed]
  rw [play_returned (chainId.play rfl),if_neg (not_not.mpr fits.chainId),
    play_returned (length.play_paymaster rfl),
    play_returned ((getter .entryPoint Worker.entryPoint rfl).play_paymaster rfl),
    play_returned ((getter .verifyingSigner Worker.verifyingSigner rfl).play_paymaster rfl),
    play_returned ((getter .router Worker.router rfl).play_paymaster rfl),
    play_returned ((play_lift _).trans (by rw [passes]))]
  exact checkMaster_play fits.master

theorem checkMaster_ok {router : Address}
    (ran : (checkMaster cfg paymaster router).play (host account) script c =
      ⟨some (.ok ()), c', rest⟩) :
    (∀ rewardAccount, expectedMaster cfg = some rewardAccount →
      ∃ registry, c.relayerRegistry router = some registry ∧
        (c.workers registry paymaster = zeroAddress ∨
          c.workers registry paymaster = rewardAccount)) ∧
    c' = c ∧ rest = script.after (checkReads cfg - 6) ∧
      ∀ n < checkReads cfg - 6, script n = some .fine := by
  unfold checkMaster at ran
  unfold checkReads
  cases expected : expectedMaster cfg with
  | none =>
    rw [expected] at ran
    cases ran
    exact ⟨by simp,rfl,(after_zero script).symm,by simp⟩
  | some rewardAccount =>
    rw [expected] at ran
    obtain ⟨master,c₁,script₁,read,ran⟩ := play_bind_ok ran
    have registryRead : Answers c (.readAddress router .relayerRegistry)
        (c.getter router .relayerRegistry) := ⟨fun _ _ => rfl⟩
    obtain ⟨fine₀,registry,found,second⟩ := registryRead.bind_ok (rethrow_ok read)
    have workersRead : Answers c (.workers registry paymaster)
        (.ok (c.workers registry paymaster)) := ⟨fun _ _ => rfl⟩
    obtain ⟨fine₁,named,same,shifted⟩ := workersRead.ok second
    have named : c.workers registry paymaster = master := Except.ok.inj named
    rw [same,shifted] at ran
    split at ran
    · cases (play_throw _).symm.trans ran
    · next fits =>
      cases ran
      refine ⟨?_,rfl,by simp,?_⟩
      · rintro rewardAccount' ⟨⟩
        refine ⟨registry,?_,?_⟩
        · rw [Chain.getter] at found
          cases known : c.relayerRegistry router with
          | none =>
            rw [known] at found
            cases found
          | some registry' =>
            rw [known] at found
            cases found
            rfl
        · rw [named]
          by_cases none : master = zeroAddress
          · exact .inl none
          · exact .inr (by simpa [none] using fits)
      · intro n small
        have small : n < 2 := small
        interval_cases n
        · exact fine₀
        · exact fine₁

/-- The check passes only when every one of its reads is met and fits. -/
theorem compatible_ok
    (ran : (assertPaymasterCompatible cfg paymaster).play (host account) script c =
      ⟨some (.ok ()), c', rest⟩) :
    ∃ w, Compatible cfg c paymaster w ∧ c' = c ∧ rest = script.after (checkReads cfg) ∧
      ∀ n < checkReads cfg, script n = some .fine := by
  have code : Answers c (.getCode paymaster) (.ok ((c.worker paymaster).map Worker.code)) :=
    ⟨fun _ _ => rfl⟩
  have chainId : Answers c .getChainId (.ok c.chainId) := ⟨fun _ _ => rfl⟩
  have length : Answers c (.PAYMASTER_AND_DATA_LENGTH paymaster)
      (c.ofWorker paymaster Worker.layoutLength) := ⟨fun _ _ => rfl⟩
  have getter (name : AddressGetter) :
      Answers c (.readAddress paymaster name) (c.getter paymaster name) := ⟨fun _ _ => rfl⟩
  rw [assertPaymasterCompatible] at ran
  obtain ⟨fine₀,_,⟨⟩,ran⟩ := code.bind_ok ran
  cases worker : c.worker paymaster with
  | none =>
    rw [worker,if_pos (by simp)] at ran
    cases (play_throw _).symm.trans ran
  | some w =>
    have field {α : Type} (f : Worker → α) : c.ofWorker paymaster f = .ok (f w) := by
      simp [Chain.ofWorker,worker]
    rw [worker,if_neg (by simpa using w.deployed)] at ran
    obtain ⟨fine₁,_,⟨⟩,ran⟩ := chainId.bind_ok ran
    split at ran
    · cases (play_throw _).symm.trans ran
    · next sameChain =>
      obtain ⟨fine₂,_,answered,ran⟩ := length.paymaster_bind_ok ran
      cases (field _).symm.trans answered
      obtain ⟨fine₃,_,answered,ran⟩ := (getter .entryPoint).paymaster_bind_ok ran
      cases (field _).symm.trans answered
      obtain ⟨fine₄,_,answered,ran⟩ := (getter .verifyingSigner).paymaster_bind_ok ran
      cases (field _).symm.trans answered
      obtain ⟨fine₅,_,answered,ran⟩ := (getter .router).paymaster_bind_ok ran
      cases (field _).symm.trans answered
      cases passes : checkGetters cfg paymaster w.layoutLength w.entryPoint w.verifyingSigner
        w.router with
      | error e =>
        rw [passes,play_threw (play_lift _)] at ran
        cases ran
      | ok u =>
        rw [passes,play_returned (play_lift _)] at ran
        obtain ⟨layout,entryPoint,signer,router⟩ := checkGetters_ok.mp passes
        obtain ⟨master,same,shifted,fine⟩ := checkMaster_ok ran
        have six : 6 ≤ checkReads cfg := by
          unfold checkReads
          split <;> omega
        refine ⟨w,⟨worker,not_not.mp sameChain,layout,entryPoint,signer,router,master⟩,same,?_,?_⟩
        · rw [shifted]
          simp only [after_after]
          congr 1
          omega
        · intro n small
          by_cases late : 6 ≤ n
          · have met := fine (n - 6) (by omega)
            simp only [after_apply] at met
            rwa [show 1 + (1 + (1 + (1 + (1 + (1 + (n - 6)))))) = n by omega] at met
          · interval_cases n
            · exact fine₀
            · exact fine₁
            · exact fine₂
            · exact fine₃
            · exact fine₄
            · exact fine₅

/-! ### The registration -/

theorem pollRegistry_reads {registry master : Address} :
    (pollRegistry cfg paymaster registry master polls).Confined Reads fun _ => False := by
  induction polls with
  | zero => trivial
  | succ polls ih =>
    refine confined_bind (confined_await trivial) fun resolved => ?_
    split
    · split <;> trivial
    · split
      · exact confined_bind (confined_await trivial) fun _ => ih
      · trivial

theorem register_reads : (register polls cfg paymaster).Confined Reads fun _ => False := by
  unfold register
  split
  · refine confined_bind (confined_await trivial) fun router => ?_
    split
    · trivial
    · exact confined_bind (confined_await trivial) fun registry => pollRegistry_reads
  · trivial

end TornadoRelayer.Setup
