import TornadoRelayer.RelayerProcess
import TornadoRelayer.StoppedRun

/-! The file store's methods in any order, failing writes, and processes that stop in the middle
of one and open the file again: what each of them does to the memory and to the file. -/
namespace TornadoRelayer

open BigEndian EventLoop JavaScript RelayerService

/-! ### The runs -/

/-- A call of one of the store's methods that change it. -/
inductive StoreCall where
  | reserve (nullifierHash : Bytes32) (claim : NoteClaim)
  | commit (k token : String)
  | release (k token : String)
  | prune (now : JsNumber)

def StoreCall.program (path : String) : StoreCall → Async Unit
  | .reserve nullifierHash claim => do
    let _ : Except SponsoredNote String ← perform (.reserve (toHex nullifierHash.bytes) claim)
  | .commit k token => TornadoRelayer.commit (.file path) k token
  | .release k token => perform (.release k token)
  | .prune now => perform (.prune now)

/-- What a call of `commit` is to record: the claim of the reservation its token holds. -/
def StoreCall.recording (store : MemorySponsorshipStore) : StoreCall → List (String × NoteClaim)
  | .commit k token =>
    match store.get k with
    | some held => if held.heldBy token then [(k,held.toNoteClaim)] else []
    | none => []
  | _ => []

/-- The latest time passed so far. -/
def StoreCall.latest (latest : JsNumber) : StoreCall → JsNumber
  | .prune now => max latest now
  | _ => latest

structure StoreState where
  running : Bool
  world : World
  /-- The latest time passed to `prune` or the constructor. -/
  latest : JsNumber
  /-- What the commits that returned recorded. -/
  committed : List (String × NoteClaim)
  /-- What the commits were to record that a stopping process interrupted. -/
  interrupted : List (String × NoteClaim)
  stops : Nat

structure StoreState.Fresh (s : StoreState) : Prop where
  stopped : s.running = false
  store : s.world.store = .empty
  file : s.world.disk.file = none
  committed : s.committed = []
  interrupted : s.interrupted = []
  stops : s.stops = 0

abbrev Executed (path : String) (call : StoreCall) (w w' : World)
    (out : Option (Except Thrown Unit)) : Prop :=
  Program.Executes (I := serviceInterface) World.exec (call.program path) w w' out

inductive StoreStep (path : String) : StoreState → StoreState → Prop where
  | tick (s : StoreState) (clock : Nat) : StoreStep path s { s with world := { s.world with clock } }
  | returned {s : StoreState} {call : StoreCall} {world : World} : s.running = true →
    Executed path call s.world world (some (.ok ())) →
    StoreStep path s { s with
      world
      latest := call.latest s.latest
      committed := s.committed ++ call.recording s.world.store }
  | threw {s : StoreState} {call : StoreCall} {world : World} {e : Thrown} : s.running = true →
    Executed path call s.world world (some (.error e)) →
    StoreStep path s { s with world, latest := call.latest s.latest }
  | stopped {s : StoreState} {call : StoreCall} {world : World} : s.running = true →
    Executed path call s.world world none →
    StoreStep path s { s with
      running := false
      world := { world with store := .empty }
      latest := call.latest s.latest
      interrupted := s.interrupted ++ call.recording s.world.store
      stops := s.stops + 1 }
  | opened {s : StoreState} {now : JsNumber} {writeFault renameFault : Bool} {disk : Disk}
    {store : MemorySponsorshipStore} : s.running = false →
    FileSponsorshipStore.new path now writeFault renameFault s.world.disk = (disk,.ok store) →
    StoreStep path s { s with
      running := true
      world := { s.world with store, disk }
      latest := max s.latest now }
  -- The constructor threw, or the process stopped in it.
  | refused {s : StoreState} {now : JsNumber} {writeFault renameFault : Bool} {disk : Disk}
    {r : Except Thrown MemorySponsorshipStore} : s.running = false →
    FileSponsorshipStore.new path now writeFault renameFault s.world.disk = (disk,r) →
    StoreStep path s { s with world := { s.world with disk }, latest := max s.latest now }

inductive StoreReachable (path : String) : StoreState → Prop where
  | fresh {s : StoreState} : s.Fresh → StoreReachable path s
  | step {s s' : StoreState} : StoreReachable path s → StoreStep path s s' → StoreReachable path s'

/-! ### What one call does -/

variable {path : String} {w w' : World}

/-- Writing leaves the memory, and the file as it was or replaced. -/
theorem executed_write {entries : Notes} {out : Option (Except Thrown Unit)}
    (ran : Program.Executes (I := serviceInterface) World.exec (writeNotes entries) w w' out) :
    w'.store = w.store ∧
      ((w'.disk.file = w.disk.file ∧ out ≠ some (.ok ())) ∨
        (w'.disk.file = some (.json (storedNotes entries)) ∧ ∀ e, out ≠ some (.error e))) := by
  rcases executes_act_bind ran with ⟨rfl,rfl⟩ | ⟨fault,ran⟩
  · simp
  cases fault with
  | true =>
    obtain ⟨rfl,rfl | rfl⟩ := executes_done ran <;> simp [World.exec,Disk.writeFileSync]
  | false =>
    rcases executes_act_bind ran with ⟨rfl,rfl⟩ | ⟨fault,ran⟩
    · simp [World.exec,Disk.writeFileSync]
    cases fault with
    | true =>
      obtain ⟨rfl,rfl | rfl⟩ := executes_done ran <;>
        simp [World.exec,Disk.writeFileSync,Disk.renameSync]
    | false =>
      obtain ⟨rfl,rfl | rfl⟩ := executes_done ran <;>
        simp [World.exec,Disk.writeFileSync,Disk.renameSync]

theorem executed_persist {k : String} {next : SponsoredNote} {out : Option (Except Thrown Unit)}
    (ran : Program.Executes (I := serviceInterface) World.exec (persistSigned (.file path) k next)
      w w' out) :
    w'.store = w.store ∧
      ((w'.disk.file = w.disk.file ∧ out ≠ some (.ok ())) ∨
        (w'.disk.file = some (.json (storedNotes (w.store.signedEntries.set k next))) ∧
          ∀ e, out ≠ some (.error e))) := by
  rcases executes_act_bind ran with ⟨rfl,rfl⟩ | ⟨fault,ran⟩
  · simp
  · exact executed_write ran

/-- What the file holds once a commit of this entry is written. -/
def committedNotes (store : MemorySponsorshipStore) (k : String) (held : SponsoredNote) : Notes :=
  store.signedEntries.set k { held with status := .signed }

/-- A commit leaves the file as it was or replaces it, and then changes the memory. -/
theorem executed_commit {k token : String} {out : Option (Except Thrown Unit)}
    (ran : Executed path (.commit k token) w w' out) :
    (w'.store = w.store ∧ w'.disk.file = w.disk.file ∧ out ≠ some (.ok ())) ∨
    ∃ held, w.store.get k = some held ∧ held.heldBy token = true ∧
      w'.disk.file = some (.json (storedNotes (committedNotes w.store k held))) ∧
      ((w'.store = w.store ∧ out = none) ∨
        (w'.store = w.store.set k { held with status := .signed } ∧ ∀ e, out ≠ some (.error e))) := by
  rcases executes_act_bind ran with ⟨rfl,rfl⟩ | ⟨fault,ran⟩
  · simp
  change Program.Executes (I := serviceInterface) World.exec (match w.store.get k with
    | some held => _
    | none => _) w w' out at ran
  cases found : w.store.get k with
  | none =>
    rw [found] at ran
    obtain ⟨rfl,rfl | rfl⟩ := executes_done ran <;> simp
  | some held =>
    rw [found] at ran
    cases holder : held.heldBy token with
    | false =>
      simp only [holder,Bool.false_eq_true,if_false] at ran
      obtain ⟨rfl,rfl | rfl⟩ := executes_done ran <;> simp
    | true =>
      simp only [holder,if_true] at ran
      rcases executes_bind ran with ⟨began,rfl⟩ | ⟨e,began,rfl⟩ | ⟨_,middle,began,ran⟩
      · obtain ⟨store,⟨file,_⟩ | ⟨file,_⟩⟩ := executed_persist began
        · exact .inl ⟨store,file,by simp⟩
        · exact .inr ⟨held,rfl,holder,file,.inl ⟨store,rfl⟩⟩
      · obtain ⟨store,⟨file,_⟩ | ⟨_,returned⟩⟩ := executed_persist began
        · exact .inl ⟨store,file,by simp⟩
        · exact absurd rfl (returned e)
      obtain ⟨store,⟨_,threw⟩ | ⟨file,_⟩⟩ := executed_persist began
      · exact absurd rfl threw
      rcases executes_act ran with ⟨rfl,rfl⟩ | ⟨fault,rfl,out⟩
      · exact .inr ⟨held,rfl,holder,file,.inl ⟨store,rfl⟩⟩
      · refine .inr ⟨held,rfl,holder,file,.inr ⟨?_,?_⟩⟩
        · simp [World.exec,store]
        · rcases out with rfl | rfl <;> simp

/-- On a disk that takes the writes, a commit of what its token holds returns. -/
theorem commit_returns {k token : String} {held : SponsoredNote} (found : w.store.get k = some held)
    (holder : held.heldBy token = true) :
    Executed path (.commit k token) w
      { w with
        store := w.store.set k { held with status := .signed }
        disk := ⟨some (.json (storedNotes (committedNotes w.store k held))),none⟩ }
      (some (.ok ())) := by
  refine .perform false ?_
  change Program.Executes (I := serviceInterface) World.exec (match w.store.get k with
    | some held => _
    | none => _) w _ _
  simp only [found,holder,if_true]
  exact .perform false (.perform false (.perform false (.perform false (.done _ _))))

/-- A rename that fails leaves the memory and the file. -/
theorem commit_fails {k token : String} {held : SponsoredNote} (found : w.store.get k = some held)
    (holder : held.heldBy token = true) :
    Executed path (.commit k token) w
      { w with disk := ⟨w.disk.file,some (.json (storedNotes (committedNotes w.store k held)))⟩ }
      (some (.error (.error "EIO: i/o error, rename"))) := by
  refine .perform false ?_
  change Program.Executes (I := serviceInterface) World.exec (match w.store.get k with
    | some held => _
    | none => _) w _ _
  simp only [found,holder,if_true]
  exact .perform false (.perform false (.perform true (.done _ _)))

/-- The process may stop between the rename and the change of the memory. -/
theorem commit_stops {k token : String} {held : SponsoredNote} (found : w.store.get k = some held)
    (holder : held.heldBy token = true) :
    Executed path (.commit k token) w
      { w with disk := ⟨some (.json (storedNotes (committedNotes w.store k held))),none⟩ } none := by
  refine .perform false ?_
  change Program.Executes (I := serviceInterface) World.exec (match w.store.get k with
    | some held => _
    | none => _) w _ _
  simp only [found,holder,if_true]
  exact .perform false (.perform false (.perform false (.stopped _ _)))

/-- What the calls do that touch the memory only. -/
def StoreCall.effect (w : World) : StoreCall → World
  | .reserve nullifierHash claim =>
    { w with store := (w.store.reserve w.clock (toHex nullifierHash.bytes) claim).1 }
  | .commit .. => w
  | .release k token => { w with store := w.store.release k token }
  | .prune now => { w with store := w.store.prune now }

theorem executed_effect {call : StoreCall} {out : Option (Except Thrown Unit)}
    (other : ∀ k token, call ≠ .commit k token) (ran : Executed path call w w' out) :
    (w' = w ∧ out = none) ∨ (w' = call.effect w ∧ ∀ e, out ≠ some (.error e)) := by
  cases call with
  | reserve nullifierHash claim =>
    rcases executes_act_bind ran with stopped | ⟨fault,ran⟩
    · exact .inl stopped
    · obtain ⟨rfl,rfl | rfl⟩ := executes_done ran
      · exact .inr ⟨rfl,by simp⟩
      · exact .inr ⟨rfl,by simp⟩
  | commit k token => exact absurd rfl (other k token)
  | release k token =>
    rcases executes_act ran with stopped | ⟨fault,rfl,rfl | rfl⟩
    · exact .inl stopped
    · exact .inr ⟨rfl,by simp⟩
    · exact .inr ⟨rfl,by simp⟩
  | prune now =>
    rcases executes_act ran with stopped | ⟨fault,rfl,rfl | rfl⟩
    · exact .inl stopped
    · exact .inr ⟨rfl,by simp⟩
    · exact .inr ⟨rfl,by simp⟩

/-! ### What the memory and the file hold -/

/-- The entries have this claim at this key. -/
def HoldsClaim (entries : Notes) (k : String) (claim : NoteClaim) : Prop :=
  ∃ note, (k,note) ∈ entries.entries ∧ note.toNoteClaim = claim

/-- The store has it, signed. -/
def Signed (store : MemorySponsorshipStore) (k : String) (claim : NoteClaim) : Prop :=
  ∃ note, (k,note) ∈ store.notes.entries ∧ note.status = .signed ∧ note.toNoteClaim = claim

variable {store : MemorySponsorshipStore} {k key : String} {claim : NoteClaim}

theorem signed_entries : HoldsClaim store.signedEntries k claim ↔ Signed store k claim := by
  constructor
  · rintro ⟨note,member,rfl⟩
    obtain ⟨member,status⟩ := InsertionMap.mem_filter.mp member
    exact ⟨note,member,by simpa using status,rfl⟩
  · rintro ⟨note,member,status,rfl⟩
    exact ⟨note,InsertionMap.mem_filter.mpr ⟨member,by simp [status]⟩,rfl⟩

theorem signed_empty : ¬Signed .empty k claim := by
  rintro ⟨note,member,_⟩
  simp [MemorySponsorshipStore.empty,InsertionMap.empty] at member

theorem signed_reserve {dateNow : Nat} {reserved : NoteClaim} :
    Signed (store.reserve dateNow key reserved).1 k claim ↔ Signed store k claim := by
  constructor
  · rintro ⟨note,member,status,rfl⟩
    rcases mem_reserve.mp member with old | ⟨_,_,rfl⟩
    · exact ⟨note,old,status,rfl⟩
    · cases status
  · rintro ⟨note,member,status,rfl⟩
    exact ⟨note,mem_reserve.mpr (.inl member),status,rfl⟩

theorem signed_release {token : String} :
    Signed (store.release key token) k claim ↔ Signed store k claim := by
  constructor
  · rintro ⟨note,member,status,rfl⟩
    exact ⟨note,mem_release.1 member,status,rfl⟩
  · rintro ⟨note,member,status,rfl⟩
    exact ⟨note,mem_release.2 member status,status,rfl⟩

theorem signed_prune {now : JsNumber} :
    Signed (store.prune now) k claim ↔ Signed store k claim ∧ now ≤ claim.validUntil := by
  constructor
  · rintro ⟨note,member,status,rfl⟩
    obtain ⟨member,live⟩ := InsertionMap.mem_filter.mp member
    exact ⟨⟨note,member,status,rfl⟩,by simpa using live⟩
  · rintro ⟨⟨note,member,status,rfl⟩,live⟩
    exact ⟨note,InsertionMap.mem_filter.mpr ⟨member,by simpa using live⟩,status,rfl⟩

theorem signed_set {held : SponsoredNote} :
    Signed (store.set key { held with status := .signed }) k claim ↔
      (k = key ∧ claim = held.toNoteClaim) ∨ (k ≠ key ∧ Signed store k claim) := by
  constructor
  · rintro ⟨note,member,status,rfl⟩
    rcases InsertionMap.mem_set.mp member with ⟨own,rfl⟩ | ⟨apart,old⟩
    · exact .inl ⟨own,rfl⟩
    · exact .inr ⟨apart,note,old,status,rfl⟩
  · rintro (⟨rfl,rfl⟩ | ⟨apart,note,member,status,rfl⟩)
    · exact ⟨_,InsertionMap.mem_set.mpr (.inl ⟨rfl,rfl⟩),rfl,rfl⟩
    · exact ⟨note,InsertionMap.mem_set.mpr (.inr ⟨apart,member⟩),status,rfl⟩

theorem holding_committed {held : SponsoredNote} :
    HoldsClaim (committedNotes store key held) k claim ↔
      (k = key ∧ claim = held.toNoteClaim) ∨ (k ≠ key ∧ Signed store k claim) := by
  rw [← signed_entries]
  constructor
  · rintro ⟨note,member,rfl⟩
    rcases InsertionMap.mem_set.mp member with ⟨own,rfl⟩ | ⟨apart,old⟩
    · exact .inl ⟨own,rfl⟩
    · exact .inr ⟨apart,note,old,rfl⟩
  · rintro (⟨rfl,rfl⟩ | ⟨apart,note,member,rfl⟩)
    · exact ⟨_,InsertionMap.mem_set.mpr (.inl ⟨rfl,rfl⟩),rfl⟩
    · exact ⟨note,InsertionMap.mem_set.mpr (.inr ⟨apart,member⟩),rfl⟩

/-! ### Reading the file back -/

/-- The text of a nullifier hash. -/
def IsHash (k : String) : Prop := isHex k = true ∧ k.length = 66

theorem isHash_toHex (nullifierHash : Bytes32) : IsHash (toHex nullifierHash.bytes) := by
  refine ⟨isHex_toHex _,?_⟩
  rw [toHex,String.length_ofList,List.length_cons,List.length_cons,hexDigits_length,Word.bytes_length]

/-- What the file stands for. -/
structure FileHolds (file : Option FileContent) (entries : Notes) : Prop where
  content : file = some (.json (storedNotes entries)) ∨ (file = none ∧ entries = .empty)
  keys : ∀ k note, (k,note) ∈ entries.entries → IsHash k

/-- It is read back up to what has expired. -/
theorem FileHolds.readable {file : Option FileContent} {entries : Notes}
    (holds : FileHolds file entries) (path : String) (now : JsNumber) :
    ∃ notes, load path now file = .ok notes ∧ ∀ k note, (k,note) ∈ notes.entries ↔
      ∃ v, (k,v) ∈ entries.entries ∧ now ≤ v.validUntil ∧
        note = { v with status := .signed, token := restoredToken (some v.token) } := by
  rcases holds.content with rfl | ⟨rfl,rfl⟩
  · have each : ∀ k v, (k,v) ∈ (entries.entries.map fun e => (e.1, storedNote e.2)) →
        ∃ r, restoreNote path now k v = .ok r := by
      intro k v member
      obtain ⟨⟨_,note⟩,old,same⟩ := List.mem_map.mp member
      cases same
      obtain ⟨hex,length⟩ := holds.keys _ _ old
      rw [restoreNote_stored,if_neg (by simp [hex,length])]
      split <;> exact ⟨_,rfl⟩
    obtain ⟨restored,loaded⟩ := restoreNotes_ok each .empty
    exact ⟨restored,loaded,fun k note => mem_load_storedNotes loaded⟩
  · exact ⟨.empty,rfl,by simp [InsertionMap.empty]⟩

end TornadoRelayer
