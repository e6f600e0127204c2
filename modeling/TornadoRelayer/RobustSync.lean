import TornadoRelayer.Keccak
import TornadoRelayer.UserOp
import Mathlib.Data.List.Sort
import Mathlib.Data.List.Perm.Basic

/-! The sync provider that fetches the events of a pool in small chunks, asks again for what
fails or comes back with gaps, and gives up after its last pass. -/
namespace TornadoRelayer.RobustSync

open BigEndian Keccak

def DEPOSIT_TOPIC : Bytes32 := keccak256 (ascii "Deposit(bytes32,uint32,uint256)")

/-- A log of a mined block. The data of a `Deposit` are its leaf index and its time. -/
structure Log where
  address : Address
  eventTopic : Bytes32
  indexed : List Bytes32
  data : Bytes
  blockNumber : Nat
  logIndex : Nat
  deposit : eventTopic = DEPOSIT_TOPIC → data.length = 64 ∧ ofBytes (data.take 32) < 2 ^ 32

structure ExternalRawEvent where
  contractAddress : Address
  eventTopic : Bytes32
  topics : List Bytes32
  data : Bytes
  blockNumber : Nat
  logIndex : Nat

/-- `getLogs` answers each request as it likes: a request is told from the others by its pass,
its chunk and its attempt. -/
structure RobustSyncProviderParams where
  getLogs : (pass chunk attempt : Nat) → String → (fromBlock toBlock : Int) → Except Thrown (List Log)
  lastBlock : Int
  chunk : Option Int
  expectedFirstLeafIndex : Option (String → Option Nat)
  nextIndexAtHead : Option (String → Except Thrown (Option Nat))

/-! ### Fetching -/

def rawEvent (l : Log) : ExternalRawEvent where
  contractAddress := l.address
  eventTopic := l.eventTopic
  topics := l.eventTopic :: l.indexed
  data := l.data
  blockNumber := l.blockNumber
  logIndex := l.logIndex

/-- One request and as many retries. -/
def fetchChunk (request : Nat → Except Thrown (List Log)) (attempt : Nat) :
    Nat → Except Thrown (List Log)
  | 0 => request attempt
  | retries + 1 =>
    match request attempt with
    | .ok logs => .ok logs
    | .error _ => fetchChunk request (attempt + 1) retries

def RobustSyncProviderParams.chunkSize (p : RobustSyncProviderParams) : Int := p.chunk.getD 1000

/-- The requests for the chunk that starts at a block. -/
def RobustSyncProviderParams.request (p : RobustSyncProviderParams) (address : String) (to_ : Int)
    (pass chunk : Nat) (start : Int) (attempt : Nat) : Except Thrown (List Log) :=
  let stop := start + p.chunkSize - 1
  p.getLogs pass chunk attempt address start (if stop > to_ then to_ else stop)

/-- The loop over the chunks, `none` when it takes more than so many turns. -/
def fetchChunks (p : RobustSyncProviderParams) (address : String) (to_ : Int) (pass : Nat) :
    (turns chunk : Nat) → (start : Int) → Option (Except Thrown (List ExternalRawEvent))
  | 0, _, _ => none
  | turns + 1, chunk, start =>
    if start ≤ to_ then
      match fetchChunk (p.request address to_ pass chunk start) 0 5 with
      | .error err => some (.error err)
      | .ok logs => (fetchChunks p address to_ pass turns (chunk + 1) (start + p.chunkSize)).map
          fun rest => rest.map (logs.map rawEvent ++ ·)
    else some (.ok [])

def earlier (a b : ExternalRawEvent) : Prop :=
  a.blockNumber < b.blockNumber ∨ (a.blockNumber = b.blockNumber ∧ a.logIndex ≤ b.logIndex)

instance earlier.decidable (a b : ExternalRawEvent) : Decidable (earlier a b) :=
  inferInstanceAs (Decidable (_ ∨ _))

def fetchRange (p : RobustSyncProviderParams) (turns : Nat) (address : String) (from_ to_ : Int)
    (pass : Nat) : Option (Except Thrown (List ExternalRawEvent)) :=
  (fetchChunks p address to_ pass turns 0 from_).map fun out => out.map (List.insertionSort earlier)

/-! ### Checking -/

def leafIndex (data : Bytes) : Nat := ofBytes (data.take 32)

def depositIndices (events : List ExternalRawEvent) : List Nat :=
  ((events.filter fun e => e.eventTopic = DEPOSIT_TOPIC).map fun e => leafIndex e.data).insertionSort
    (· ≤ ·)

def gapsBetween : List Nat → List String
  | a :: b :: idx => (if b ≠ a + 1 then [s!"{a}->{b}"] else []) ++ gapsBetween (b :: idx)
  | _ => []

def gaps (expectedFirst expectedLast : Option Nat) (idx : List Nat) : List String :=
  gapsBetween idx ++
  (match expectedFirst, idx.head? with
    | some expected, some first => if first ≠ expected then [s!"first {first} != {expected}"] else []
    | _, _ => []) ++
  match expectedLast, idx.getLast? with
    | some next, some last =>
      if (last : Int) ≠ next - 1 then [s!"last {last} != {(next : Int) - 1}"] else []
    | _, _ => []

def RobustSyncProviderParams.expectedFirst (p : RobustSyncProviderParams) (address : String) :
    Option Nat :=
  p.expectedFirstLeafIndex.bind fun expected => expected address

def RobustSyncProviderParams.expectedLast (p : RobustSyncProviderParams) (address : String) (to_ : Int) :
    Except Thrown (Option Nat) :=
  match p.nextIndexAtHead with
  | some next => if to_ = p.lastBlock then next address else .ok none
  | none => .ok none

/-- The passes that are left. -/
def passes (p : RobustSyncProviderParams) (turns : Nat) (address : String) (from_ to_ : Int)
    (expectedLast : Option Nat) :
    (left pass : Nat) → Option (Except Thrown (List ExternalRawEvent))
  | 0, _ => some (.error (.error s!"could not fetch a gap-free event range for {address}"))
  | left + 1, pass =>
    match fetchRange p turns address from_ to_ pass with
    | none => none
    | some (.error err) => some (.error err)
    | some (.ok events) =>
      if gaps (p.expectedFirst address) expectedLast (depositIndices events) = [] then some (.ok events)
      else passes p turns address from_ to_ expectedLast left (pass + 1)

/-- `none` when a pass takes more than so many turns. -/
def fetchComplete (p : RobustSyncProviderParams) (turns : Nat) (address : String) (from_ to_ : Int) :
    Option (Except Thrown (List ExternalRawEvent)) :=
  match p.expectedLast address to_ with
  | .error err => some (.error err)
  | .ok expectedLast => passes p turns address from_ to_ expectedLast 4 1

/-! ### What the provider is for -/

/-- One `Deposit` for every leaf from `e` up to `n`, and no other. -/
def Complete (e n : Nat) (events : List ExternalRawEvent) : Prop :=
  ∀ leaf, events.countP (fun event => event.eventTopic = DEPOSIT_TOPIC ∧ leafIndex event.data = leaf) =
    if e ≤ leaf ∧ leaf < n then 1 else 0

/-- Every call ends, and what it returns is complete when it ends at the last block and
both ends of the leaves are known. -/
def NeverIncomplete (p : RobustSyncProviderParams) (address : String) (from_ to_ : Int) : Prop :=
  (∃ turns, (fetchComplete p turns address from_ to_).isSome) ∧
  ∀ turns events e n, fetchComplete p turns address from_ to_ = some (.ok events) →
    to_ = p.lastBlock → p.expectedFirst address = some e → p.expectedLast address to_ = .ok (some n) →
    Complete e n events

/-! ### What the client sends -/

def Answers (request : Nat → Except Thrown (List Log)) (logs : List Log) : Prop :=
  ∃ a ≤ 5, request a = .ok logs ∧ ∀ b < a, ∃ err, request b = .error err

def Unanswered (request : Nat → Except Thrown (List Log)) : Prop :=
  ∀ a ≤ 5, ∃ err, request a = .error err

section

variable (p : RobustSyncProviderParams) (address : String) (to_ : Int) (pass : Nat)

/-- The logs that a pass receives from a chunk on. -/
inductive Received : Nat → Int → List Log → Prop
  | done {chunk : Nat} {start : Int} (past : to_ < start) : Received chunk start []
  | chunk {chunk : Nat} {start : Int} {logs rest : List Log} (inside : start ≤ to_)
      (answers : Answers (p.request address to_ pass chunk start) logs)
      (later : Received (chunk + 1) (start + p.chunkSize) rest) : Received chunk start (logs ++ rest)

/-- The pass meets a chunk whose every attempt fails. -/
inductive Fails : Nat → Int → Prop
  | here {chunk : Nat} {start : Int} (inside : start ≤ to_)
      (unanswered : Unanswered (p.request address to_ pass chunk start)) : Fails chunk start
  | later {chunk : Nat} {start : Int} {logs : List Log} (inside : start ≤ to_)
      (answers : Answers (p.request address to_ pass chunk start) logs)
      (fails : Fails (chunk + 1) (start + p.chunkSize)) : Fails chunk start

end

/-- The pass receives some of the deposits, but not all. -/
def Gapped (p : RobustSyncProviderParams) (address : String) (from_ to_ : Int) (e n pass : Nat) : Prop :=
  ∃ logs, Received p address to_ pass 0 from_ logs ∧ (∃ l ∈ logs, l.eventTopic = DEPOSIT_TOPIC) ∧
    ¬Complete e n (logs.map rawEvent)

/-- The pass loses every deposit. -/
def Emptied (p : RobustSyncProviderParams) (address : String) (from_ to_ : Int) (pass : Nat) : Prop :=
  ∃ logs, Received p address to_ pass 0 from_ logs ∧ ∀ l ∈ logs, l.eventTopic ≠ DEPOSIT_TOPIC

/-! ### The requests of one chunk -/

theorem fetchChunk_ok {request : Nat → Except Thrown (List Log)} {a retries : Nat} {logs : List Log} :
    fetchChunk request a retries = .ok logs ↔
      ∃ b, a ≤ b ∧ b ≤ a + retries ∧ request b = .ok logs ∧
        ∀ c, a ≤ c → c < b → ∃ err, request c = .error err := by
  induction retries generalizing a with
  | zero =>
    rw [fetchChunk]
    constructor
    · intro answered
      exact ⟨a,le_rfl,le_rfl,answered,fun c first last => absurd first (by omega)⟩
    · rintro ⟨b,first,last,answered,_⟩
      have same : b = a := by omega
      rwa [same] at answered
  | succ retries ih =>
    rw [fetchChunk]
    split
    · next found answered =>
      constructor
      · intro same
        exact ⟨a,le_rfl,by omega,answered.trans same,fun c first last => absurd first (by omega)⟩
      · rintro ⟨b,first,last,other,failed⟩
        rcases Nat.eq_or_lt_of_le first with rfl | later
        · exact answered.symm.trans other
        · obtain ⟨err,failed⟩ := failed a le_rfl later
          rw [answered] at failed
          cases failed
    · next err failure =>
      rw [ih]
      constructor
      · rintro ⟨b,first,last,answered,failed⟩
        refine ⟨b,by omega,by omega,answered,fun c start stop => ?_⟩
        rcases Nat.eq_or_lt_of_le start with rfl | later
        · exact ⟨err,failure⟩
        · exact failed c later stop
      · rintro ⟨b,first,last,answered,failed⟩
        have later : b ≠ a := by
          rintro rfl
          rw [failure] at answered
          cases answered
        exact ⟨b,by omega,by omega,answered,fun c start stop => failed c (by omega) stop⟩

theorem fetchChunk_error {request : Nat → Except Thrown (List Log)} {a retries : Nat} :
    (∃ err, fetchChunk request a retries = .error err) ↔
      ∀ b, a ≤ b → b ≤ a + retries → ∃ err, request b = .error err := by
  induction retries generalizing a with
  | zero =>
    rw [fetchChunk]
    constructor
    · intro failed b first last
      have same : b = a := by omega
      rwa [same]
    · intro failed
      exact failed a le_rfl le_rfl
  | succ retries ih =>
    rw [fetchChunk]
    split
    · next logs answered =>
      constructor
      · rintro ⟨err,failed⟩
        cases failed
      · intro failed
        obtain ⟨err,failed⟩ := failed a le_rfl (by omega)
        rw [answered] at failed
        cases failed
    · next err failure =>
      rw [ih]
      constructor
      · intro failed b first last
        rcases Nat.eq_or_lt_of_le first with rfl | later
        · exact ⟨err,failure⟩
        · exact failed b later (by omega)
      · intro failed b first last
        exact failed b (by omega) (by omega)

theorem fetchChunk_answers {request : Nat → Except Thrown (List Log)} {logs : List Log} :
    fetchChunk request 0 5 = .ok logs ↔ Answers request logs := by
  rw [fetchChunk_ok,Answers]
  simp

theorem fetchChunk_unanswered {request : Nat → Except Thrown (List Log)} :
    (∃ err, fetchChunk request 0 5 = .error err) ↔ Unanswered request := by
  rw [fetchChunk_error,Unanswered]
  simp

/-! ### One pass -/

section

variable {p : RobustSyncProviderParams} {address : String} {to_ : Int} {pass : Nat}

theorem fetchChunks_received {turns chunk : Nat} {start : Int} {events : List ExternalRawEvent}
    (fetched : fetchChunks p address to_ pass turns chunk start = some (.ok events)) :
    ∃ logs, Received p address to_ pass chunk start logs ∧ events = logs.map rawEvent := by
  induction turns generalizing chunk start events with
  | zero => cases fetched
  | succ turns ih =>
    rw [fetchChunks] at fetched
    split at fetched
    · next inside =>
      split at fetched
      · cases fetched
      · next logs answered =>
        obtain ⟨rest,later,mapped⟩ := Option.map_eq_some_iff.mp fetched
        cases rest with
        | error err => cases mapped
        | ok rest =>
          cases mapped
          obtain ⟨others,received,rfl⟩ := ih later
          exact ⟨logs ++ others,.chunk inside (fetchChunk_answers.mp answered) received,
            List.map_append.symm⟩
    · next past =>
      cases fetched
      exact ⟨[],.done (by omega),rfl⟩

theorem fetchChunks_fails {turns chunk : Nat} {start : Int} {err : Thrown}
    (fetched : fetchChunks p address to_ pass turns chunk start = some (.error err)) :
    Fails p address to_ pass chunk start := by
  induction turns generalizing chunk start with
  | zero => cases fetched
  | succ turns ih =>
    rw [fetchChunks] at fetched
    split at fetched
    · next inside =>
      split at fetched
      · next failed => exact .here inside (fetchChunk_unanswered.mp ⟨_,failed⟩)
      · next logs answered =>
        obtain ⟨rest,later,mapped⟩ := Option.map_eq_some_iff.mp fetched
        cases rest with
        | ok rest => cases mapped
        | error other =>
          cases mapped
          exact .later inside (fetchChunk_answers.mp answered) (ih later)
    · cases fetched

/-- With enough turns, a pass returns what it receives. -/
theorem received_fetched {chunk : Nat} {start : Int} {logs : List Log}
    (received : Received p address to_ pass chunk start logs) :
    ∃ enough, ∀ turns ≥ enough,
      fetchChunks p address to_ pass turns chunk start = some (.ok (logs.map rawEvent)) := by
  induction received with
  | done past =>
    refine ⟨1,fun turns more => ?_⟩
    obtain ⟨turns,rfl⟩ := Nat.exists_eq_add_of_le' more
    rw [fetchChunks,if_neg (by omega)]
    rfl
  | chunk inside answers later ih =>
    obtain ⟨enough,returns⟩ := ih
    refine ⟨enough + 1,fun turns more => ?_⟩
    obtain ⟨turns,rfl⟩ := Nat.exists_eq_add_of_le' (Nat.le_of_add_left_le more)
    rw [fetchChunks,if_pos inside,fetchChunk_answers.mpr answers]
    simp only [returns turns (by omega),Option.map_some,Except.map,List.map_append]

theorem fails_fetched {chunk : Nat} {start : Int} (fails : Fails p address to_ pass chunk start) :
    ∃ enough, ∀ turns ≥ enough,
      ∃ err, fetchChunks p address to_ pass turns chunk start = some (.error err) := by
  induction fails with
  | here inside unanswered =>
    obtain ⟨err,failed⟩ := fetchChunk_unanswered.mpr unanswered
    refine ⟨1,fun turns more => ⟨err,?_⟩⟩
    obtain ⟨turns,rfl⟩ := Nat.exists_eq_add_of_le' more
    rw [fetchChunks,if_pos inside,failed]
  | later inside answers fails ih =>
    obtain ⟨enough,throws⟩ := ih
    refine ⟨enough + 1,fun turns more => ?_⟩
    obtain ⟨turns,rfl⟩ := Nat.exists_eq_add_of_le' (Nat.le_of_add_left_le more)
    obtain ⟨err,failed⟩ := throws turns (by omega)
    refine ⟨err,?_⟩
    rw [fetchChunks,if_pos inside,fetchChunk_answers.mpr answers]
    simp only [failed,Option.map_some,Except.map]

/-- A pass that receives its range moves forward. -/
theorem Received.bounded {chunk : Nat} {start : Int} {logs : List Log}
    (received : Received p address to_ pass chunk start logs) : to_ < start ∨ 0 < p.chunkSize := by
  induction received with
  | done past => exact .inl past
  | chunk inside answers later ih =>
    rcases ih with past | forward
    · exact .inr (by omega)
    · exact .inr forward

/-- Chunks of some size are received up to the end, or one of them fails. -/
theorem received_or_fails (forward : 0 < p.chunkSize) (chunk : Nat) (start : Int) :
    (∃ logs, Received p address to_ pass chunk start logs) ∨ Fails p address to_ pass chunk start := by
  obtain ⟨blocks,bound⟩ : ∃ blocks, (to_ + 1 - start).toNat = blocks := ⟨_,rfl⟩
  induction blocks using Nat.strongRecOn generalizing chunk start with
  | ind blocks ih =>
    by_cases inside : start ≤ to_
    · cases result : fetchChunk (p.request address to_ pass chunk start) 0 5 with
      | error err => exact .inr (.here inside (fetchChunk_unanswered.mp ⟨err,result⟩))
      | ok logs =>
        have answers := fetchChunk_answers.mp result
        rcases ih _ (by omega) (chunk + 1) (start + p.chunkSize) rfl with ⟨rest,later⟩ | fails
        · exact .inl ⟨logs ++ rest,.chunk inside answers later⟩
        · exact .inr (.later inside answers fails)
    · exact .inl ⟨[],.done (by omega)⟩

end

/-! ### The completeness check -/

theorem gapsBetween_none {a : Nat} {idx : List Nat} :
    gapsBetween (a :: idx) = [] ↔ a :: idx = List.range' a (idx.length + 1) := by
  induction idx generalizing a with
  | nil => simp [gapsBetween]
  | cons b idx ih =>
    have longer : List.range' a ((b :: idx).length + 1) = a :: List.range' (a + 1) (idx.length + 1) :=
      List.range'_succ
    rw [gapsBetween,List.append_eq_nil_iff,ih,longer,List.cons.injEq]
    constructor
    · rintro ⟨next,rest⟩
      have next : b = a + 1 := by simpa using next
      rw [← next]
      exact ⟨rfl,rest⟩
    · rintro ⟨_,rest⟩
      have next : b = a + 1 := by
        rw [List.range'_succ] at rest
        exact (List.cons.inj rest).1
      rw [← next] at rest
      exact ⟨by simp [next],rest⟩

/-- What the check lets through: every leaf in its place, or nothing at all. -/
theorem gaps_none {e n : Nat} {idx : List Nat} :
    gaps (some e) (some n) idx = [] ↔ idx = [] ∨ (e < n ∧ idx = List.range' e (n - e)) := by
  cases idx with
  | nil => simp [gaps,gapsBetween]
  | cons a idx =>
    obtain ⟨last,ends⟩ : ∃ last, (a :: idx).getLast? = some last :=
      ⟨_,List.getLast?_eq_some_getLast (by simp)⟩
    simp only [gaps,List.append_eq_nil_iff,gapsBetween_none,List.head?_cons,ends,ite_eq_right_iff,
      imp_false,Decidable.not_not,List.cons_ne_nil,false_or]
    constructor
    · rintro ⟨⟨whole,rfl⟩,closed⟩
      rw [whole,List.getLast?_range',if_neg (by omega),Option.some.injEq] at ends
      refine ⟨by omega,?_⟩
      rw [whole]
      congr 1
      omega
    · rintro ⟨nonempty,whole⟩
      have long := congrArg List.length whole
      rw [List.length_cons,List.length_range'] at long
      have first : a = e := by
        rw [← long,List.range'_succ] at whole
        exact (List.cons.inj whole).1
      subst first
      rw [whole,List.getLast?_range',if_neg (by omega),Option.some.injEq] at ends
      rw [whole,long]
      exact ⟨⟨rfl,rfl⟩,by omega⟩

theorem depositIndices_count (events : List ExternalRawEvent) (leaf : Nat) :
    (depositIndices events).count leaf =
      events.countP fun e => e.eventTopic = DEPOSIT_TOPIC ∧ leafIndex e.data = leaf := by
  rw [depositIndices,(List.perm_insertionSort _ _).count_eq,List.count,List.countP_map,List.countP_filter]
  congr 1
  funext e
  rw [Function.comp_apply,Bool.and_comm,Bool.decide_and,beq_eq_decide]

theorem depositIndices_sorted (events : List ExternalRawEvent) :
    (depositIndices events).Pairwise (· ≤ ·) :=
  List.pairwise_insertionSort (· ≤ ·) _

theorem range'_count (e n leaf : Nat) :
    (List.range' e (n - e)).count leaf = if e ≤ leaf ∧ leaf < n then 1 else 0 := by
  rw [List.Nodup.count List.nodup_range']
  congr 1
  rw [List.mem_range'_1]
  apply propext
  omega

theorem complete_iff {e n : Nat} {events : List ExternalRawEvent} :
    Complete e n events ↔ depositIndices events = List.range' e (n - e) := by
  have counts : Complete e n events ↔ (depositIndices events).Perm (List.range' e (n - e)) := by
    rw [List.perm_iff_count,Complete]
    simp only [depositIndices_count,range'_count]
  rw [counts]
  constructor
  · intro same
    exact same.eq_of_pairwise' (depositIndices_sorted events) List.pairwise_le_range'
  · rintro whole
    rw [whole]

theorem depositIndices_perm {events events' : List ExternalRawEvent} (same : events.Perm events') :
    depositIndices events = depositIndices events' := by
  have counts : (depositIndices events).Perm (depositIndices events') := by
    rw [List.perm_iff_count]
    intro leaf
    rw [depositIndices_count,depositIndices_count,same.countP_eq]
  exact counts.eq_of_pairwise' (depositIndices_sorted events) (depositIndices_sorted events')

theorem depositIndices_nil {logs : List Log} :
    depositIndices (logs.map rawEvent) = [] ↔ ∀ l ∈ logs, l.eventTopic ≠ DEPOSIT_TOPIC := by
  rw [List.eq_nil_iff_length_eq_zero,depositIndices,List.length_insertionSort,List.length_map,
    List.length_eq_zero_iff,List.filter_eq_nil_iff]
  simp [rawEvent]

/-! ### The passes -/

section

variable {p : RobustSyncProviderParams} {address : String} {from_ to_ : Int}

theorem fetchRange_received {turns pass : Nat} {events : List ExternalRawEvent}
    (fetched : fetchRange p turns address from_ to_ pass = some (.ok events)) :
    ∃ logs, Received p address to_ pass 0 from_ logs ∧
      events = (logs.map rawEvent).insertionSort earlier := by
  obtain ⟨out,chunks,sorted⟩ := Option.map_eq_some_iff.mp fetched
  cases out with
  | error err => cases sorted
  | ok out =>
    cases sorted
    obtain ⟨logs,received,rfl⟩ := fetchChunks_received chunks
    exact ⟨logs,received,rfl⟩

theorem received_returned {pass : Nat} {logs : List Log}
    (received : Received p address to_ pass 0 from_ logs) :
    ∃ enough, ∀ turns ≥ enough, fetchRange p turns address from_ to_ pass =
      some (.ok ((logs.map rawEvent).insertionSort earlier)) := by
  obtain ⟨enough,returns⟩ := received_fetched received
  refine ⟨enough,fun turns more => ?_⟩
  rw [fetchRange,returns turns more]
  rfl

theorem fails_thrown {pass : Nat} (fails : Fails p address to_ pass 0 from_) :
    ∃ enough, ∀ turns ≥ enough, ∃ err,
      fetchRange p turns address from_ to_ pass = some (.error err) := by
  obtain ⟨enough,throws⟩ := fails_fetched fails
  refine ⟨enough,fun turns more => ?_⟩
  obtain ⟨err,failed⟩ := throws turns more
  refine ⟨err,?_⟩
  rw [fetchRange,failed]
  rfl

/-- A pass over a range that is empty, or cut in chunks of some size, ends. -/
theorem fetchRange_ends (bounded : to_ < from_ ∨ 0 < p.chunkSize) (pass : Nat) :
    ∃ enough, ∀ turns ≥ enough, (fetchRange p turns address from_ to_ pass).isSome := by
  have either : (∃ logs, Received p address to_ pass 0 from_ logs) ∨ Fails p address to_ pass 0 from_ := by
    rcases bounded with past | forward
    · exact .inl ⟨[],.done past⟩
    · exact received_or_fails forward 0 from_
  rcases either with ⟨logs,received⟩ | fails
  · obtain ⟨enough,returns⟩ := received_returned received
    exact ⟨enough,fun turns more => by rw [returns turns more]; rfl⟩
  · obtain ⟨enough,throws⟩ := fails_thrown fails
    refine ⟨enough,fun turns more => ?_⟩
    obtain ⟨err,failed⟩ := throws turns more
    rw [failed]
    rfl

theorem passes_end (bounded : to_ < from_ ∨ 0 < p.chunkSize) (expectedLast : Option Nat)
    (left pass : Nat) :
    ∃ enough, ∀ turns ≥ enough, (passes p turns address from_ to_ expectedLast left pass).isSome := by
  induction left generalizing pass with
  | zero => exact ⟨0,fun turns more => rfl⟩
  | succ left ih =>
    obtain ⟨first,fetched⟩ : ∃ enough, ∀ turns ≥ enough,
        (fetchRange p turns address from_ to_ pass).isSome := fetchRange_ends bounded pass
    obtain ⟨rest,later⟩ := ih (pass + 1)
    refine ⟨max first rest,fun turns more => ?_⟩
    obtain ⟨result,found⟩ := Option.isSome_iff_exists.mp (fetched turns (le_of_max_le_left more))
    rw [passes,found]
    cases result with
    | error err => rfl
    | ok events =>
      simp only
      split
      · rfl
      · exact later turns (le_of_max_le_right more)

theorem check_received {e n : Nat} {logs : List Log} :
    gaps (some e) (some n) (depositIndices ((logs.map rawEvent).insertionSort earlier)) = [] ↔
      (∀ l ∈ logs, l.eventTopic ≠ DEPOSIT_TOPIC) ∨ (e < n ∧ Complete e n (logs.map rawEvent)) := by
  rw [depositIndices_perm (List.perm_insertionSort _ _),gaps_none,depositIndices_nil,complete_iff]

/-- A pass whose deposits do not pass the check. -/
theorem gapped_of_check {e n pass : Nat} {logs : List Log}
    (received : Received p address to_ pass 0 from_ logs)
    (failed : gaps (some e) (some n) (depositIndices ((logs.map rawEvent).insertionSort earlier)) ≠ []) :
    Gapped p address from_ to_ e n pass := by
  rw [Ne,check_received,not_or] at failed
  obtain ⟨deposits,incomplete⟩ := failed
  push Not at deposits
  refine ⟨logs,received,deposits,fun complete => incomplete ⟨?_,complete⟩⟩
  -- A deposit is there, so its leaf is one of those expected.
  obtain ⟨l,member,deposit⟩ := deposits
  have counted := complete (leafIndex l.data)
  have one : 0 < (logs.map rawEvent).countP fun event =>
      event.eventTopic = DEPOSIT_TOPIC ∧ leafIndex event.data = leafIndex l.data :=
    List.countP_pos_iff.mpr ⟨rawEvent l,List.mem_map_of_mem member,by simp [rawEvent,deposit]⟩
  rw [counted] at one
  split at one
  · omega
  · cases one

theorem check_of_gapped {e n pass : Nat} (gapped : Gapped p address from_ to_ e n pass) :
    ∃ logs, Received p address to_ pass 0 from_ logs ∧
      gaps (some e) (some n) (depositIndices ((logs.map rawEvent).insertionSort earlier)) ≠ [] := by
  obtain ⟨logs,received,⟨l,member,deposit⟩,incomplete⟩ := gapped
  refine ⟨logs,received,?_⟩
  rw [Ne,check_received,not_or]
  exact ⟨fun none => none l member deposit,fun complete => incomplete complete.2⟩

/-- What is returned is what some pass received, after passes with gaps. -/
theorem passes_ok {turns e n left pass : Nat} {events : List ExternalRawEvent}
    (first : p.expectedFirst address = some e)
    (returned : passes p turns address from_ to_ (some n) left pass = some (.ok events)) :
    ∃ last logs, pass ≤ last ∧ last < pass + left ∧
      (∀ q, pass ≤ q → q < last → Gapped p address from_ to_ e n q) ∧
      Received p address to_ last 0 from_ logs ∧
      events = (logs.map rawEvent).insertionSort earlier ∧
      gaps (some e) (some n) (depositIndices events) = [] := by
  induction left generalizing pass with
  | zero => cases returned
  | succ left ih =>
    rw [passes] at returned
    split at returned
    · cases returned
    · cases returned
    · next found fetched =>
      obtain ⟨logs,received,rfl⟩ := fetchRange_received fetched
      rw [first] at returned
      split at returned
      · next passed =>
        cases returned
        exact ⟨pass,logs,le_rfl,by omega,fun q start stop => absurd start (by omega),received,rfl,passed⟩
      · next failed =>
        obtain ⟨last,final,start,stop,gapped,rest⟩ := ih returned
        refine ⟨last,final,by omega,by omega,fun q lower upper => ?_,rest⟩
        rcases Nat.eq_or_lt_of_le lower with rfl | later
        · exact gapped_of_check received failed
        · exact gapped q later upper

/-- After passes with gaps, the first that the check lets through is returned. -/
theorem passes_return {e n left pass last : Nat} {logs : List Log}
    (first : p.expectedFirst address = some e) (start : pass ≤ last) (stop : last < pass + left)
    (gapped : ∀ q, pass ≤ q → q < last → Gapped p address from_ to_ e n q)
    (received : Received p address to_ last 0 from_ logs)
    (passed : gaps (some e) (some n)
      (depositIndices ((logs.map rawEvent).insertionSort earlier)) = []) :
    ∃ enough, ∀ turns ≥ enough, passes p turns address from_ to_ (some n) left pass =
      some (.ok ((logs.map rawEvent).insertionSort earlier)) := by
  induction left generalizing pass with
  | zero => omega
  | succ left ih =>
    rcases Nat.eq_or_lt_of_le start with rfl | later
    · obtain ⟨enough,returns⟩ := received_returned received
      refine ⟨enough,fun turns more => ?_⟩
      rw [passes,returns turns more,first]
      simp only [passed,if_true]
    · obtain ⟨lost,others,failed⟩ := check_of_gapped (gapped pass le_rfl later)
      obtain ⟨enough,returns⟩ := received_returned others
      obtain ⟨more,rest⟩ := ih later (by omega) fun q lower upper => gapped q (by omega) upper
      refine ⟨max enough more,fun turns many => ?_⟩
      rw [passes,returns turns (le_of_max_le_left many),first]
      simp only [failed,if_false]
      exact rest turns (le_of_max_le_right many)

/-! ### The provider -/

/-- The search is over a finite range, or ends by an error. -/
def Bounded (p : RobustSyncProviderParams) (address : String) (from_ to_ : Int) : Prop :=
  to_ < from_ ∨ 0 < p.chunkSize ∨ Fails p address to_ 1 0 from_ ∨
    ∃ err, p.expectedLast address to_ = .error err

theorem fetchComplete_ends_iff :
    (∃ turns, (fetchComplete p turns address from_ to_).isSome) ↔ Bounded p address from_ to_ := by
  cases head : p.expectedLast address to_ with
  | error err =>
    refine ⟨fun _ => .inr (.inr (.inr ⟨err,head⟩)),fun _ => ⟨0,?_⟩⟩
    rw [fetchComplete,head]
    rfl
  | ok expectedLast =>
    simp only [fetchComplete,head,Bounded,reduceCtorEq,exists_false,or_false]
    constructor
    · rintro ⟨turns,ended⟩
      rw [passes] at ended
      cases out : fetchChunks p address to_ 1 turns 0 from_ with
      | none =>
        rw [fetchRange,out] at ended
        cases ended
      | some out' =>
        cases out' with
        | error err => exact .inr (.inr (fetchChunks_fails out))
        | ok events =>
          obtain ⟨logs,received,_⟩ := fetchChunks_received out
          rcases received.bounded with past | forward
          · exact .inl past
          · exact .inr (.inl forward)
    · intro bounded
      by_cases fails : Fails p address to_ 1 0 from_
      · obtain ⟨enough,throws⟩ := fails_thrown fails
        obtain ⟨err,failed⟩ := throws enough le_rfl
        refine ⟨enough,?_⟩
        rw [passes,failed]
        rfl
      · have range : to_ < from_ ∨ 0 < p.chunkSize := by tauto
        obtain ⟨enough,ended⟩ := passes_end range expectedLast 4 1
        exact ⟨enough,ended enough le_rfl⟩

end

/-- The check never asks whether anything came back at all: a pass that loses every deposit is
returned as it is. -/
theorem neverIncomplete_iff (p : RobustSyncProviderParams) (address : String) (from_ to_ : Int) :
    NeverIncomplete p address from_ to_ ↔
      Bounded p address from_ to_ ∧
      ∀ e n, to_ = p.lastBlock → p.expectedFirst address = some e →
        p.expectedLast address to_ = .ok (some n) → e < n →
        ∀ pass, 1 ≤ pass → pass ≤ 4 →
          (∀ before, 1 ≤ before → before < pass → Gapped p address from_ to_ e n before) →
          ¬Emptied p address from_ to_ pass := by
  rw [NeverIncomplete,fetchComplete_ends_iff]
  refine and_congr_right fun _ => ⟨?_,?_⟩
  · intro complete e n head first next some pass start stop gapped
    rintro ⟨logs,received,emptied⟩
    obtain ⟨enough,returns⟩ := passes_return first start (by omega : pass < 1 + 4) gapped received
      (check_received.mpr (.inl emptied))
    have returned : fetchComplete p enough address from_ to_ =
        .some (.ok ((logs.map rawEvent).insertionSort earlier)) := by
      rw [fetchComplete,next]
      exact returns enough le_rfl
    have whole := complete_iff.mp (complete _ _ e n returned head first next)
    rw [depositIndices_perm (List.perm_insertionSort _ _),depositIndices_nil.mpr emptied] at whole
    have long := congrArg List.length whole
    rw [List.length_nil,List.length_range'] at long
    omega
  · intro kept turns events e n returned head first next
    rw [fetchComplete,next] at returned
    obtain ⟨last,logs,start,stop,gapped,received,rfl,passed⟩ := passes_ok first returned
    rcases gaps_none.mp passed with none | ⟨_,whole⟩
    · rw [complete_iff,none]
      by_cases some : e < n
      · rw [depositIndices_perm (List.perm_insertionSort _ _),depositIndices_nil] at none
        exact absurd ⟨logs,received,none⟩ (kept e n head first next some last start (by omega) gapped)
      · rw [Nat.sub_eq_zero_of_le (by omega)]
        rfl
    · exact complete_iff.mpr whole

/-- A pool whose only deposit lies in the range, behind a client that drops it. -/
def dropping : RobustSyncProviderParams where
  getLogs _ _ _ _ _ _ := .ok []
  lastBlock := 1
  chunk := none
  expectedFirstLeafIndex := some fun _ => some 0
  nextIndexAtHead := some fun _ => .ok (some 1)

theorem dropped_deposit_returned : ¬NeverIncomplete dropping "0x" 1 1 := by
  intro never
  have returned : fetchComplete dropping 2 "0x" 1 1 = some (.ok []) := rfl
  have counted := never.2 2 [] 0 1 returned rfl rfl rfl 0
  cases counted

end TornadoRelayer.RobustSync
