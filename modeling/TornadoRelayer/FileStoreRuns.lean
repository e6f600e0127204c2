import TornadoRelayer.FileStoreCalls

/-! The file store over whole runs: what a reopened file holds is what was committed and has not
expired. -/
namespace TornadoRelayer

open BigEndian EventLoop JavaScript RelayerService

variable {path : String} {w w' : World} {store : MemorySponsorshipStore} {k key : String}
  {claim : NoteClaim}

/-! ### The invariant -/

/-- The file and the memory agree on what is signed and live, and both hold only what
commits were to record. -/
structure Mirrored (s : StoreState) (entries : Notes) : Prop where
  file : FileHolds s.world.disk.file entries
  keys : ∀ k note, (k,note) ∈ s.world.store.notes.entries → IsHash k
  known : ∀ k claim, HoldsClaim entries k claim → (k,claim) ∈ s.committed ∨ (k,claim) ∈ s.interrupted
  kept : ∀ k claim, (k,claim) ∈ s.committed → s.latest ≤ claim.validUntil → HoldsClaim entries k claim
  memory : ∀ k claim, Signed s.world.store k claim → HoldsClaim entries k claim
  loaded : s.running = true → ∀ k claim, HoldsClaim entries k claim → s.latest ≤ claim.validUntil →
    Signed s.world.store k claim
  idle : s.running = false → s.world.store = .empty
  few : s.interrupted.length ≤ s.stops

theorem Mirrored.fresh {s : StoreState} (fresh : s.Fresh) : Mirrored s .empty := by
  have none (k : String) (claim : NoteClaim) : ¬HoldsClaim .empty k claim := by
    rintro ⟨note,member,_⟩
    simp [InsertionMap.empty] at member
  refine ⟨⟨.inr ⟨fresh.file,rfl⟩,?_⟩,?_,?_,?_,?_,?_,?_,?_⟩
  · simp [InsertionMap.empty]
  · simp [fresh.store,MemorySponsorshipStore.empty,InsertionMap.empty]
  · exact fun k claim holding => absurd holding (none k claim)
  · simp [fresh.committed]
  · intro k claim signed
    rw [fresh.store] at signed
    exact absurd signed signed_empty
  · simp [fresh.stopped]
  · exact fun _ => fresh.store
  · simp [fresh.interrupted]

theorem recording_length (store : MemorySponsorshipStore) (call : StoreCall) :
    (call.recording store).length ≤ 1 := by
  cases call with
  | commit k token =>
    simp only [StoreCall.recording]
    split
    · split <;> simp
    · simp
  | _ => simp [StoreCall.recording]

theorem recording_held {token : String} {held : SponsoredNote} (found : store.get k = some held)
    (holder : held.heldBy token = true) :
    StoreCall.recording store (.commit k token) = [(k,held.toNoteClaim)] := by
  simp [StoreCall.recording,found,holder]

theorem le_latest (latest : JsNumber) (call : StoreCall) : latest ≤ call.latest latest := by
  cases call <;> simp [StoreCall.latest]

/-- The process stopped with the file as it was. -/
theorem Mirrored.stop {s : StoreState} {entries : Notes} (now : Mirrored s entries) {world : World}
    {call : StoreCall} (file : world.disk.file = s.world.disk.file) :
    Mirrored { s with
      running := false
      world := { world with store := .empty }
      latest := call.latest s.latest
      interrupted := s.interrupted ++ call.recording s.world.store
      stops := s.stops + 1 } entries := by
  refine ⟨?_,?_,?_,?_,?_,?_,fun _ => rfl,?_⟩
  · exact file ▸ now.file
  · simp [MemorySponsorshipStore.empty,InsertionMap.empty]
  · intro k claim holding
    exact (now.known k claim holding).imp_right (List.mem_append_left _)
  · intro k claim member live
    exact now.kept k claim member ((le_latest s.latest call).trans live)
  · exact fun k claim signed => absurd signed signed_empty
  · simp
  · rw [List.length_append]
    exact Nat.add_le_add now.few (recording_length ..)

theorem Mirrored.effect {s : StoreState} {entries : Notes} (now : Mirrored s entries)
    (running : s.running = true) {call : StoreCall} (other : ∀ k token, call ≠ .commit k token) :
    Mirrored { s with world := call.effect s.world, latest := call.latest s.latest } entries := by
  cases call with
  | reserve nullifierHash claim =>
    refine ⟨now.file,?_,now.known,now.kept,?_,?_,?_,now.few⟩
    · intro k note member
      rcases mem_reserve.mp member with old | ⟨_,rfl,_⟩
      · exact now.keys k note old
      · exact isHash_toHex nullifierHash
    · exact fun k claim signed => now.memory k claim (signed_reserve.mp signed)
    · exact fun up k claim holding later => signed_reserve.mpr (now.loaded up k claim holding later)
    · simp [running]
  | commit k token => exact absurd rfl (other k token)
  | release k token =>
    refine ⟨now.file,?_,now.known,now.kept,?_,?_,?_,now.few⟩
    · exact fun k note member => now.keys k note (mem_release.1 member)
    · exact fun k claim signed => now.memory k claim (signed_release.mp signed)
    · exact fun up k claim holding later => signed_release.mpr (now.loaded up k claim holding later)
    · simp [running]
  | prune time =>
    have later := le_latest s.latest (.prune time)
    refine ⟨now.file,?_,now.known,?_,?_,?_,?_,now.few⟩
    · exact fun k note member => now.keys k note (InsertionMap.mem_filter.mp member).1
    · exact fun k claim member live => now.kept k claim member (later.trans live)
    · exact fun k claim signed => now.memory k claim (signed_prune.mp signed).1
    · intro up k claim holding live
      exact signed_prune.mpr ⟨now.loaded up k claim holding (later.trans live),
        (le_max_right _ _).trans live⟩
    · simp [running]

/-- The file that a commit writes, whether or not the commit goes on to return. -/
structure Written (s : StoreState) (k : String) (held : SponsoredNote) : Prop where
  file : FileHolds (some (.json (storedNotes (committedNotes s.world.store k held))))
    (committedNotes s.world.store k held)
  known : ∀ key claim, HoldsClaim (committedNotes s.world.store k held) key claim →
    (key = k ∧ claim = held.toNoteClaim) ∨ (key,claim) ∈ s.committed ∨ (key,claim) ∈ s.interrupted
  kept : ∀ key claim, (key,claim) ∈ s.committed → s.latest ≤ claim.validUntil →
    HoldsClaim (committedNotes s.world.store k held) key claim

theorem Mirrored.written {s : StoreState} {entries : Notes} (now : Mirrored s entries)
    (running : s.running = true) {held : SponsoredNote} (found : s.world.store.get k = some held) :
    Written s k held := by
  have own := InsertionMap.get_eq_some.mp found
  refine ⟨⟨.inl rfl,?_⟩,?_,?_⟩
  · intro key note member
    rcases InsertionMap.mem_set.mp member with ⟨rfl,_⟩ | ⟨_,old⟩
    · exact now.keys _ _ own
    · exact now.keys key note (InsertionMap.mem_filter.mp old).1
  · intro key claim holding
    rcases holding_committed.mp holding with this | ⟨_,signed⟩
    · exact .inl this
    · exact .inr (now.known key claim (now.memory key claim signed))
  · intro key claim member live
    have signed := now.loaded running key claim (now.kept key claim member live) live
    apply holding_committed.mpr
    by_cases same : key = k
    · obtain ⟨note,listed,_,rfl⟩ := signed
      rw [same] at listed
      rw [InsertionMap.unique listed own]
      exact .inl ⟨same,rfl⟩
    · exact .inr ⟨same,signed⟩

theorem Mirrored.committed_returned {s : StoreState} {entries : Notes} (now : Mirrored s entries)
    (running : s.running = true) {token : String} {held : SponsoredNote} {world : World}
    (found : s.world.store.get k = some held) (holder : held.heldBy token = true)
    (store : world.store = s.world.store.set k { held with status := .signed })
    (file : world.disk.file = some (.json (storedNotes (committedNotes s.world.store k held)))) :
    Mirrored { s with
      world
      latest := StoreCall.latest s.latest (.commit k token)
      committed := s.committed ++ StoreCall.recording s.world.store (.commit k token) }
      (committedNotes s.world.store k held) := by
  have written := now.written running found
  rw [recording_held found holder]
  refine ⟨file ▸ written.file,?_,?_,?_,?_,?_,?_,now.few⟩
  · intro key note member
    change (key,note) ∈ world.store.notes.entries at member
    rw [store] at member
    rcases InsertionMap.mem_set.mp member with ⟨rfl,_⟩ | ⟨_,old⟩
    · exact now.keys _ _ (InsertionMap.get_eq_some.mp found)
    · exact now.keys key note old
  · intro key claim holding
    rcases written.known key claim holding with ⟨rfl,rfl⟩ | member | member
    · exact .inl (by simp)
    · exact .inl (List.mem_append_left _ member)
    · exact .inr member
  · intro key claim member live
    rcases List.mem_append.mp member with old | own
    · exact written.kept key claim old live
    · cases List.mem_singleton.mp own
      exact holding_committed.mpr (.inl ⟨rfl,rfl⟩)
  · intro key claim signed
    exact holding_committed.mpr (signed_set.mp (store ▸ signed))
  · intro _ key claim holding _
    change Signed world.store key claim
    rw [store]
    exact signed_set.mpr (holding_committed.mp holding)
  · simp [running]

/-- The process stopped after the rename. -/
theorem Mirrored.committed_stopped {s : StoreState} {entries : Notes} (now : Mirrored s entries)
    (running : s.running = true) {token : String} {held : SponsoredNote} {world : World}
    (found : s.world.store.get k = some held) (holder : held.heldBy token = true)
    (file : world.disk.file = some (.json (storedNotes (committedNotes s.world.store k held)))) :
    Mirrored { s with
      running := false
      world := { world with store := .empty }
      latest := StoreCall.latest s.latest (.commit k token)
      interrupted := s.interrupted ++ StoreCall.recording s.world.store (.commit k token)
      stops := s.stops + 1 } (committedNotes s.world.store k held) := by
  have written := now.written running found
  rw [recording_held found holder]
  refine ⟨file ▸ written.file,?_,?_,written.kept,?_,?_,fun _ => rfl,?_⟩
  · simp [MemorySponsorshipStore.empty,InsertionMap.empty]
  · intro key claim holding
    rcases written.known key claim holding with ⟨rfl,rfl⟩ | member | member
    · exact .inr (by simp)
    · exact .inl member
    · exact .inr (List.mem_append_left _ member)
  · exact fun key claim signed => absurd signed signed_empty
  · simp
  · rw [List.length_append]
    exact Nat.add_le_add_right now.few 1

/-- What is read back is what the file held, less what has expired. -/
theorem FileHolds.restored {file : Option FileContent} {entries notes : Notes} {now : JsNumber}
    (holds : FileHolds file entries) (read : load path now file = .ok notes) :
    (∀ k note, (k,note) ∈ notes.entries →
      IsHash k ∧ note.status = .signed ∧ now ≤ note.validUntil) ∧
    ∀ k claim, Signed ⟨notes,0⟩ k claim ↔ HoldsClaim entries k claim ∧ now ≤ claim.validUntil := by
  obtain ⟨same,loaded,members⟩ := holds.readable path now
  obtain rfl := Except.ok.inj (read.symm.trans loaded)
  constructor
  · intro k note member
    obtain ⟨v,old,live,rfl⟩ := (members k note).mp member
    exact ⟨holds.keys k v old,rfl,live⟩
  · intro k claim
    constructor
    · rintro ⟨note,member,_,rfl⟩
      obtain ⟨v,old,live,rfl⟩ := (members k note).mp member
      exact ⟨⟨v,old,rfl⟩,live⟩
    · rintro ⟨⟨v,old,rfl⟩,live⟩
      exact ⟨_,(members k _).mpr ⟨v,old,live,rfl⟩,rfl,rfl⟩

/-- The constructor replaced the file. -/
theorem Mirrored.rewritten {s : StoreState} {entries notes : Notes} {now : JsNumber} {disk : Disk}
    (before : Mirrored s entries) (read : load path now s.world.disk.file = .ok notes)
    (file : disk.file = some (.json (storedNotes (MemorySponsorshipStore.signedEntries ⟨notes,0⟩))))
    {running : Bool} {store : MemorySponsorshipStore}
    (memory : (running = true ∧ store = ⟨notes,0⟩) ∨ (running = false ∧ store = .empty)) :
    Mirrored { s with running, world := { s.world with store, disk }, latest := max s.latest now }
      (MemorySponsorshipStore.signedEntries ⟨notes,0⟩) := by
  obtain ⟨each,restored⟩ := before.file.restored read
  have holding {k : String} {claim : NoteClaim} :
      HoldsClaim (MemorySponsorshipStore.signedEntries ⟨notes,0⟩) k claim ↔
        HoldsClaim entries k claim ∧ now ≤ claim.validUntil :=
    signed_entries.trans (restored k claim)
  refine ⟨⟨.inl file,?_⟩,?_,?_,?_,?_,?_,?_,before.few⟩
  · exact fun k note member => (each k note (InsertionMap.mem_filter.mp member).1).1
  · rcases memory with ⟨_,rfl⟩ | ⟨_,rfl⟩
    · exact fun k note member => (each k note member).1
    · simp [MemorySponsorshipStore.empty,InsertionMap.empty]
  · exact fun k claim held => before.known k claim (holding.mp held).1
  · intro k claim member live
    exact holding.mpr ⟨before.kept k claim member ((le_max_left _ _).trans live),
      (le_max_right _ _).trans live⟩
  · rcases memory with ⟨_,rfl⟩ | ⟨_,rfl⟩
    · exact fun k claim signed => signed_entries.mpr signed
    · exact fun k claim signed => absurd signed signed_empty
  · rcases memory with ⟨_,rfl⟩ | ⟨rfl,_⟩
    · exact fun _ k claim held _ => signed_entries.mp held
    · simp
  · rcases memory with ⟨rfl,_⟩ | ⟨_,rfl⟩
    · simp
    · exact fun _ => rfl

/-- The constructor threw and left the file. -/
theorem Mirrored.left {s : StoreState} {entries : Notes} (before : Mirrored s entries)
    (stopped : s.running = false) {disk : Disk} (file : disk.file = s.world.disk.file)
    (now : JsNumber) :
    Mirrored { s with world := { s.world with disk }, latest := max s.latest now } entries := by
  refine ⟨?_,before.keys,before.known,?_,before.memory,?_,before.idle,before.few⟩
  · exact file ▸ before.file
  · exact fun k claim member live => before.kept k claim member ((le_max_left _ _).trans live)
  · simp [stopped]

theorem recording_other {store : MemorySponsorshipStore} {call : StoreCall}
    (other : ∀ k token, call ≠ .commit k token) : call.recording store = [] := by
  cases call with
  | commit k token => exact absurd rfl (other k token)
  | _ => rfl

theorem StoreStep.mirrored {path : String} {s s' : StoreState} {entries : Notes}
    (step : StoreStep path s s') (before : Mirrored s entries) :
    ∃ entries', Mirrored s' entries' := by
  cases step with
  | tick clock => exact ⟨entries,{ before with }⟩
  | @returned call world running ran =>
    by_cases commits : ∃ k token, call = .commit k token
    · obtain ⟨k,token,rfl⟩ := commits
      rcases executed_commit ran with ⟨_,_,threw⟩ | ⟨held,found,holder,file,same | ⟨store,_⟩⟩
      · exact absurd rfl threw
      · simp at same
      · exact ⟨_,before.committed_returned running found holder store file⟩
    · have other k token (same : call = .commit k token) : False := commits ⟨k,token,same⟩
      rcases executed_effect other ran with ⟨_,none⟩ | ⟨rfl,_⟩
      · cases none
      · refine ⟨entries,?_⟩
        rw [recording_other other,List.append_nil]
        exact before.effect running other
  | @threw call world e running ran =>
    by_cases commits : ∃ k token, call = .commit k token
    · obtain ⟨k,token,rfl⟩ := commits
      rcases executed_commit ran with ⟨store,file,_⟩ | ⟨_,_,_,_,⟨_,none⟩ | ⟨_,returned⟩⟩
      · exact ⟨entries,file ▸ before.file,store ▸ before.keys,before.known,before.kept,
          store ▸ before.memory,store ▸ before.loaded,fun down => store ▸ before.idle down,before.few⟩
      · cases none
      · exact absurd rfl (returned e)
    · have other k token (same : call = .commit k token) : False := commits ⟨k,token,same⟩
      rcases executed_effect other ran with ⟨_,none⟩ | ⟨_,returned⟩
      · cases none
      · exact absurd rfl (returned e)
  | @stopped call world running ran =>
    by_cases commits : ∃ k token, call = .commit k token
    · obtain ⟨k,token,rfl⟩ := commits
      rcases executed_commit ran with ⟨_,file,_⟩ | ⟨held,found,holder,file,_⟩
      · exact ⟨entries,before.stop file⟩
      · exact ⟨_,before.committed_stopped running found holder file⟩
    · have other k token (same : call = .commit k token) : False := commits ⟨k,token,same⟩
      refine ⟨entries,before.stop ?_⟩
      rcases executed_effect other ran with ⟨rfl,_⟩ | ⟨rfl,_⟩
      · rfl
      · cases call <;> rfl
  | opened stopped opened =>
    rcases FileSponsorshipStore.new_cases opened with ⟨_,_,threw⟩ | ⟨notes,read,built,rfl⟩
    · cases threw
    · cases built
      exact ⟨_,before.rewritten read rfl (.inl ⟨rfl,rfl⟩)⟩
  | refused stopped opened =>
    rcases FileSponsorshipStore.new_cases opened with ⟨file,_⟩ | ⟨notes,read,_,rfl⟩
    · exact ⟨entries,before.left stopped file _⟩
    · exact ⟨_,before.rewritten read rfl (.inr ⟨stopped,before.idle stopped⟩)⟩

theorem StoreReachable.mirrored {path : String} {s : StoreState} (run : StoreReachable path s) :
    ∃ entries, Mirrored s entries := by
  induction run with
  | fresh fresh => exact ⟨.empty,.fresh fresh⟩
  | step _ step ih =>
    obtain ⟨entries,before⟩ := ih
    exact step.mirrored before

/-! ### Opening the file again -/

/-- A store opened at `now` holds what was committed and has not expired, and besides it what
a stopping process was committing. -/
structure Durable (s : StoreState) (now : JsNumber) (store : MemorySponsorshipStore) : Prop where
  live : ∀ k note, (k,note) ∈ store.notes.entries → note.status = .signed ∧ now ≤ note.validUntil
  recorded : ∀ k note, (k,note) ∈ store.notes.entries →
    (k,note.toNoteClaim) ∈ s.committed ∨ (k,note.toNoteClaim) ∈ s.interrupted
  complete : ∀ k claim, (k,claim) ∈ s.committed → now ≤ claim.validUntil → Signed store k claim
  -- The running process held the same.
  memory : s.running = true → ∀ k claim,
    Signed store k claim ↔ Signed s.world.store k claim ∧ now ≤ claim.validUntil

theorem Mirrored.durable {path : String} {s : StoreState} {entries notes : Notes} {now : JsNumber}
    (before : Mirrored s entries) (later : s.latest ≤ now)
    (read : load path now s.world.disk.file = .ok notes) : Durable s now ⟨notes,0⟩ := by
  obtain ⟨each,restored⟩ := before.file.restored read
  refine ⟨fun k note member => (each k note member).2,?_,?_,?_⟩
  · intro k note member
    have signed : Signed ⟨notes,0⟩ k note.toNoteClaim := ⟨note,member,(each k note member).2.1,rfl⟩
    exact before.known k _ ((restored k _).mp signed).1
  · exact fun k claim member live =>
      (restored k claim).mpr ⟨before.kept k claim member (later.trans live),live⟩
  · intro running k claim
    rw [restored]
    constructor
    · rintro ⟨holding,live⟩
      exact ⟨before.loaded running k claim holding (later.trans live),live⟩
    · rintro ⟨signed,live⟩
      exact ⟨before.memory k claim signed,live⟩

theorem restoredToken_idem (token : Option Json) :
    restoredToken (some (restoredToken token)) = restoredToken token := by
  cases token with
  | none => rfl
  | some token => cases token <;> rfl

/-- Read at a later time, the file that the constructor wrote gives what the one it read gives. -/
theorem FileHolds.preserved {path : String} {file : Option FileContent} {entries notes : Notes}
    {now later : JsNumber} (holds : FileHolds file entries) (order : now ≤ later)
    (read : TornadoRelayer.load path now file = .ok notes) :
    ∃ before after, TornadoRelayer.load path later file = .ok before ∧
      TornadoRelayer.load path later
        (some (.json (storedNotes (MemorySponsorshipStore.signedEntries ⟨notes,0⟩)))) = .ok after ∧
      ∀ k note, (k,note) ∈ after.entries ↔ (k,note) ∈ before.entries := by
  obtain ⟨same,loaded,members⟩ := holds.readable path now
  obtain rfl := Except.ok.inj (read.symm.trans loaded)
  have rewritten : FileHolds
      (some (.json (storedNotes (MemorySponsorshipStore.signedEntries ⟨notes,0⟩))))
      (MemorySponsorshipStore.signedEntries ⟨notes,0⟩) := by
    refine ⟨.inl rfl,fun k note member => ?_⟩
    exact ((holds.restored read).1 k note (InsertionMap.mem_filter.mp member).1).1
  obtain ⟨before,first,old⟩ := holds.readable path later
  obtain ⟨after,second,new⟩ := rewritten.readable path later
  refine ⟨before,after,first,second,?_⟩
  intro k note
  rw [new,old]
  constructor
  · rintro ⟨v,member,live,rfl⟩
    obtain ⟨u,held,_,rfl⟩ := (members k v).mp (InsertionMap.mem_filter.mp member).1
    exact ⟨u,held,live,by simp [restoredToken_idem]⟩
  · rintro ⟨u,held,live,rfl⟩
    refine ⟨{ u with status := .signed, token := restoredToken (some u.token) },?_,live,?_⟩
    · exact InsertionMap.mem_filter.mpr ⟨(members k _).mpr ⟨u,held,order.trans live,rfl⟩,by simp⟩
    · simp [restoredToken_idem]

/-- In every run of the store, the file opened again holds what was committed and has not
expired, and at most one interrupted entry for each stop; the constructor's rewrite preserves
it, and a commit that throws changes nothing. -/
theorem reopened_holds_committed {path : String} {s : StoreState} (run : StoreReachable path s)
    {now : JsNumber} (later : s.latest ≤ now) :
    s.interrupted.length ≤ s.stops ∧
    (∃ disk store,
      FileSponsorshipStore.new path now false false s.world.disk = (disk,.ok store)) ∧
    (∀ writeFault renameFault disk store,
      FileSponsorshipStore.new path now writeFault renameFault s.world.disk = (disk,.ok store) →
      Durable s now store ∧
      ∀ next, now ≤ next → ∃ before after, load path next s.world.disk.file = .ok before ∧
        load path next disk.file = .ok after ∧
        ∀ k note, (k,note) ∈ after.entries ↔ (k,note) ∈ before.entries) ∧
    (∀ writeFault renameFault disk e,
      FileSponsorshipStore.new path now writeFault renameFault s.world.disk = (disk,.error e) →
      disk.file = s.world.disk.file) ∧
    ∀ k token world e, Executed path (.commit k token) s.world world (some (.error e)) →
      world.store = s.world.store ∧ world.disk.file = s.world.disk.file := by
  obtain ⟨entries,mirrored⟩ := run.mirrored
  refine ⟨mirrored.few,?_,?_,?_,?_⟩
  · obtain ⟨notes,loaded,_⟩ := mirrored.file.readable path now
    rw [FileSponsorshipStore.new,loaded]
    exact ⟨_,_,rfl⟩
  · intro writeFault renameFault disk store opened
    rcases FileSponsorshipStore.new_cases opened with ⟨_,_,threw⟩ | ⟨notes,read,built,rfl⟩
    · cases threw
    · cases built
      exact ⟨mirrored.durable later read,fun next order => mirrored.file.preserved order read⟩
  · intro writeFault renameFault disk e opened
    rcases FileSponsorshipStore.new_cases opened with ⟨file,_⟩ | ⟨_,_,built,_⟩
    · exact file
    · cases built
  · intro k token world e ran
    rcases executed_commit ran with ⟨store,file,_⟩ | ⟨_,_,_,_,⟨_,none⟩ | ⟨_,returned⟩⟩
    · exact ⟨store,file⟩
    · cases none
    · exact absurd rfl (returned e)

/-- A note that is free can be reserved, and the others stay free. -/
theorem StoreReachable.reserve {path : String} {s : StoreState} (run : StoreReachable path s)
    (running : s.running = true) (nullifierHash : Bytes32) (claim : NoteClaim)
    (free : s.world.store.get (toHex nullifierHash.bytes) = none) :
    ∃ store token held, StoreReachable path { s with world := { s.world with store } } ∧
      store.get (toHex nullifierHash.bytes) = some held ∧ held.heldBy token = true ∧
      held.toNoteClaim = claim ∧
      ∀ k, k ≠ toHex nullifierHash.bytes → s.world.store.get k = none → store.get k = none := by
  have reserved := run.step (@StoreStep.returned _ s (.reserve nullifierHash claim) _ running
    (.perform false (.done _ _)))
  simp only [@recording_other _ (.reserve nullifierHash claim) nofun,List.append_nil] at reserved
  generalize toHex nullifierHash.bytes = key at *
  refine ⟨_,sponsorshipToken s.world.clock (s.world.store.seq + 1),_,reserved,
    InsertionMap.get_eq_some.mpr (mem_reserve.mpr (.inr ⟨free,rfl,rfl⟩)),?_,rfl,?_⟩
  · exact SponsoredNote.heldBy_iff.mpr rfl
  · intro k apart none
    refine InsertionMap.get_eq_none.mpr fun note present => ?_
    rcases mem_reserve.mp present with old | ⟨_,same,_⟩
    · exact InsertionMap.get_eq_none.mp none note old
    · exact apart same

/-- Any claim can be committed, and the process can stop while it commits another one, whose
first commit failed. -/
theorem interrupted_reachable (path : String) {first second : Bytes32} (claim claim' : NoteClaim)
    (apart : toHex second.bytes ≠ toHex first.bytes) :
    ∃ s, StoreReachable path s ∧ s.latest = 0 ∧ s.stops = 1 ∧
      s.committed = [(toHex first.bytes,claim)] ∧
      s.interrupted = [(toHex second.bytes,claim')] ∧
      ∃ entries, s.world.disk.file = some (.json (storedNotes entries)) ∧
        HoldsClaim entries (toHex second.bytes) claim' := by
  let start : StoreState := ⟨false,⟨5,none,.empty,⟨none,none⟩,0,[],[]⟩,0,[],[],0⟩
  have fresh : StoreReachable path start := .fresh ⟨rfl,rfl,rfl,rfl,rfl,rfl⟩
  have opened := fresh.step (@StoreStep.opened _ start 0 false false _ _ rfl rfl)
  obtain ⟨store,token,held,reserved,found,holder,rfl,others⟩ := opened.reserve rfl first claim rfl
  have none := others _ apart rfl
  have committed := reserved.step (.returned rfl (commit_returns found holder))
  have free : (store.set (toHex first.bytes) { held with status := .signed }).get
      (toHex second.bytes) = Option.none := by
    refine InsertionMap.get_eq_none.mpr fun note present => ?_
    rcases InsertionMap.mem_set.mp present with ⟨same,_⟩ | ⟨_,old⟩
    · exact apart same
    · exact InsertionMap.get_eq_none.mp none note old
  obtain ⟨store',token',held',reserved',found',holder',rfl,_⟩ :=
    committed.reserve rfl second claim' free
  have failed := reserved'.step (.threw rfl (commit_fails found' holder'))
  have stopped := failed.step (.stopped rfl (commit_stops found' holder'))
  refine ⟨_,stopped,rfl,rfl,?_,?_,_,rfl,holding_committed.mpr (.inl ⟨rfl,rfl⟩)⟩
  · exact (List.nil_append _).trans (recording_held found holder)
  · exact (List.nil_append _).trans (recording_held found' holder')

/-- The process stopped in its second commit. What it had committed is there when the file is
opened at 7, and the other claim had expired. -/
theorem reopened_holds_one : ∃ (s : StoreState) (k k' : String) (claim claim' : NoteClaim)
    (disk : Disk) (store : MemorySponsorshipStore) (notes : Notes),
    s.stops = 1 ∧ s.committed = [(k,claim)] ∧ s.interrupted = [(k',claim')] ∧
    FileSponsorshipStore.new "notes.json" 7 false false s.world.disk = (disk,.ok store) ∧
    s.world.disk.file = some (.json (storedNotes notes)) ∧ HoldsClaim notes k' claim' ∧
    Signed store k claim ∧ ¬Signed store k' claim' ∧ s.interrupted.length ≤ s.stops := by
  obtain ⟨s,run,latest,stops,committed,interrupted,notes,file,there⟩ :=
    @interrupted_reachable "notes.json" 3 4 ⟨9,4,2 ^ 70,some (2 ^ 300)⟩ ⟨6,4,2 ^ 70,none⟩
      (by decide +kernel)
  have later : s.latest ≤ 7 := by rw [latest]; norm_num
  obtain ⟨few,⟨disk,store,opens⟩,holds,_⟩ := reopened_holds_committed run later
  have durable := (holds _ _ _ _ opens).1
  refine ⟨s,_,_,_,_,disk,store,notes,stops,committed,interrupted,opens,file,there,?_,?_,few⟩
  · apply durable.complete
    · rw [committed]
      exact List.mem_singleton_self _
    · norm_num
  · rintro ⟨note,member,_,same⟩
    have live := (durable.live _ note member).2
    rw [show note.validUntil = 6 from congrArg NoteClaim.validUntil same] at live
    norm_num at live

end TornadoRelayer
