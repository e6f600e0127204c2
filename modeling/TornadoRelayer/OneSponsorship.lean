import TornadoRelayer.Scripts
import TornadoRelayer.Signing

/-! One live sponsorship per note, in every run of the processes that open one store. -/
namespace TornadoRelayer

open EventLoop JavaScript RelayerService

/-- Where a run may begin: no process is up, and the file records what was issued before. -/
structure Start (kind : StoreKind) (budgeted : Prop) (w : World) : Prop where
  stopped : w.service = none
  apart : Apart w.issued
  past : ∀ s ∈ w.issued, s.now ≤ w.now
  recorded : ∀ path, kind = .file path → ∀ now notes, w.now ≤ now →
    load path now w.disk.file = .ok notes → Recorded notes now w.issued
  inclusions : Inclusions w
  memory : w.store = .empty
  priced : budgeted → ∀ path, kind = .file path → ∀ now notes,
    load path now w.disk.file = .ok notes → NonNegative notes

variable {platform : Platform} {kind : StoreKind} {budgeted : Prop} {start : World}
  {c : Config serviceInterface Reply World}

/-- The world before the first process, with any file already there. -/
def World.first (clock : Nat) (disk : Disk) (opening : Int) : World :=
  ⟨clock, none, .empty, disk, opening, [], []⟩

theorem World.first_start (clock : Nat) (disk : Disk) (opening : Int) :
    Start kind False (World.first clock disk opening) :=
  ⟨rfl,List.Pairwise.nil,by simp [World.first],by simp [Recorded,World.first],
    ⟨List.nodup_nil,by simp [World.first]⟩,rfl,False.elim⟩

theorem Start.invariant (begins : Start kind budgeted start) :
    Invariant kind budgeted (fun _ => none) start := by
  refine ⟨⟨?_,?_,begins.recorded,begins.apart,begins.past,by simp,by simp⟩,begins.inclusions,
    fun b => ⟨?_,begins.priced b,?_,by simp⟩⟩
  · simp [begins.stopped]
  · simp [begins.stopped]
  · intro k note cost member
    rw [begins.memory] at member
    exact absurd member List.not_mem_nil
  · simp [begins.stopped]

/-- The invariant holds after every run. -/
theorem Start.holds (begins : Start kind budgeted start)
    (reach : Reachable relayer (permits platform kind budgeted) (Config.initial start) c) :
    ∃ g, Holds (permits platform kind budgeted) relayer (logic kind budgeted) g c :=
  reach.holds relayer_sound begins.invariant

/-- Of two signatures issued for one note, the later goes back to a reservation made when
the earlier had expired, so at most one of them is ever valid. -/
theorem one_live_sponsorship {path : String} {clock : Nat} {disk : Disk} {opening : Int}
    (reach : Reachable relayer (permits platform (.file path) False)
      (Config.initial (World.first clock disk opening)) c) :
    (c.world.issued.Pairwise fun s s' =>
      s.nullifierHash = s'.nullifierHash → s.validUntil < s'.now ∧ s'.now ≤ c.world.now) ∧
    ∀ (n m : Nat) (s s' : Issued), c.world.issued[n]? = some s → c.world.issued[m]? = some s' →
      s.nullifierHash = s'.nullifierHash → c.world.now ≤ s.validUntil →
      c.world.now ≤ s'.validUntil → n = m := by
  obtain ⟨g,holds⟩ := Start.holds (World.first_start clock disk opening) reach
  have live := holds.inv.live
  have key {s s' : Issued} (same : s.nullifierHash = s'.nullifierHash) : s.key = s'.key := by
    rw [Issued.key,Issued.key,same]
  constructor
  · refine live.apart.imp_of_mem ?_
    intro s s' _ later expired same
    exact ⟨expired (key same),live.past s' later⟩
  · intro n m s s' first second same alive alive'
    exact live.unique first second (key same) alive alive'

/-- A note is signed, and signed again once that signature has expired. -/
def renewal : List Move :=
  [.boot (sampleService (.file "sponsorships.json") [SIMPLE_7702_ACCOUNT])] ++
    askDeposit (sampleOp 1 SIMPLE_7702_ACCOUNT) ++ passChecks 0 (10 ^ 15) ++
    List.replicate 6 .advance ++ [.pass (.tick 301000)] ++
    askDeposit (sampleOp 1 SIMPLE_7702_ACCOUNT) ++ passChecks 1 (10 ^ 15) ++
    List.replicate 6 .advance

theorem one_live_sponsorship_renewed : ∃ c : RelayerConfiguration,
    c.world.issued.map (fun s => (s.nullifierHash,s.now)) = [(1,1000000),(1,1000301)] ∧
    c.world.issued.Pairwise fun s s' =>
      s.nullifierHash = s'.nullifierHash → s.validUntil < s'.now ∧ s'.now ≤ c.world.now := by
  have played : (play (samplePlatform [1]) (.file "sponsorships.json") False renewal
      (Config.initial (World.first 1000000000 ⟨none,none⟩ (10 ^ 15)))).map
        (fun c => c.world.issued.map fun s => (s.nullifierHash,s.now)) =
      some [(1,1000000),(1,1000301)] := by
    decide +kernel
  obtain ⟨c,reached,both⟩ := Option.map_eq_some_iff.mp played
  exact ⟨c,both,(one_live_sponsorship (play_reachable .start reached)).1⟩

end TornadoRelayer
