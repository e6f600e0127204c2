import TornadoRelayer.RelayerProcess

/-! One live sponsorship per note, as an invariant of the process: what was issued and is
still valid stands in memory and in the file, and a reservation that still has its entry
was made after everything issued for its note had expired. -/
namespace TornadoRelayer

open BigEndian EventLoop JavaScript RelayerService

def Recorded (notes : Notes) (now : JsNumber) (issued : List Issued) : Prop :=
  ∀ s ∈ issued, now ≤ s.validUntil → ∃ note, (s.key,note) ∈ notes.entries ∧ note.Records s

/-- The note a request has reserved. -/
structure Reservation where
  key : String
  token : String
  validUntil : JsNumber
  now : JsNumber
  cost : Nat
  /-- The deposit was found to cover it. -/
  approved : Prop

/-- Reservations by request. -/
abbrev Reservations := Nat → Option Reservation

/-- The entry is the one the reservation made. -/
def Reservation.Has (r : Reservation) (notes : Notes) (note : SponsoredNote) : Prop :=
  (r.key,note) ∈ notes.entries ∧ note.token = .string r.token

structure Reservation.Valid (r : Reservation) (w : World) : Prop where
  minted : ∃ t n, r.token = sponsorshipToken t n ∧ n ≤ w.store.seq
  past : r.now ≤ w.now
  entry : ∀ note, r.Has w.store.notes note →
    note.validUntil = r.validUntil ∧ note.maxGasCostWei = some (r.cost : Int)
  alone : ∀ note, r.Has w.store.notes note → ∀ s ∈ w.issued, s.key = r.key → s.validUntil < r.now

/-- Of two sponsorships of one note, the later was reserved after the earlier had expired. -/
def Apart (issued : List Issued) : Prop :=
  issued.Pairwise fun s s' => s.key = s'.key → s.validUntil < s'.now

structure Live (kind : StoreKind) (g : Reservations) (w : World) : Prop where
  started : ∀ service, w.service = some service → service.config.sponsorshipStore = kind
  memory : ∀ service, w.service = some service → Recorded w.store.notes w.now w.issued
  saved : ∀ path, kind = .file path → ∀ now notes, w.now ≤ now →
    load path now w.disk.file = .ok notes → Recorded notes now w.issued
  apart : Apart w.issued
  past : ∀ s ∈ w.issued, s.now ≤ w.now
  reservations : ∀ i r, g i = some r → r.Valid w
  distinct : ∀ i j r r', g i = some r → g j = some r' → i ≠ j → r.token ≠ r'.token

variable {kind : StoreKind} {g : Reservations} {w : World}

theorem Recorded.later {notes : Notes} {now now' : JsNumber} {issued : List Issued}
    (recorded : Recorded notes now issued) (later : now ≤ now') : Recorded notes now' issued :=
  fun s member live => recorded s member (later.trans live)

theorem World.now_mono {a b : Nat} (later : a ≤ b) :
    (((a / 1000 : Nat) : JsNumber)) ≤ ((b / 1000 : Nat) : JsNumber) := by
  exact_mod_cast Nat.div_le_div_right later

/-! ### Operations on the entries -/

/-- Entries may go, or change their status, as long as what is live stays recorded. -/
theorem Live.withNotes (live : Live kind g w) {notes : Notes}
    (recorded : ∀ service, w.service = some service → Recorded notes w.now w.issued)
    (origin : ∀ k note token, (k,note) ∈ notes.entries → note.token = .string token →
      ∃ note', (k,note') ∈ w.store.notes.entries ∧ note'.token = .string token ∧
        note'.validUntil = note.validUntil ∧ note'.maxGasCostWei = note.maxGasCostWei) :
    Live kind g { w with store := { w.store with notes } } where
  started := live.started
  memory := recorded
  saved := live.saved
  apart := live.apart
  past := live.past
  distinct := live.distinct
  reservations i r held := by
    have valid := live.reservations i r held
    refine ⟨valid.minted,valid.past,?_,?_⟩
    · rintro note ⟨member,token⟩
      obtain ⟨note',old,token',validUntil,cost⟩ := origin _ _ _ member token
      have same := valid.entry note' ⟨old,token'⟩
      exact ⟨validUntil.symm.trans same.1,cost.symm.trans same.2⟩
    · rintro note ⟨member,token⟩
      obtain ⟨note',old,token',_,_⟩ := origin _ _ _ member token
      exact valid.alone note' ⟨old,token'⟩

theorem Recorded.prune {store : MemorySponsorshipStore} {now bound : JsNumber} {issued : List Issued}
    (recorded : Recorded store.notes bound issued) (past : now ≤ bound) :
    Recorded (store.prune now).notes bound issued := by
  intro s member live
  obtain ⟨note,found,records⟩ := recorded s member live
  refine ⟨note,InsertionMap.mem_filter.mpr ⟨found,?_⟩,records⟩
  rw [decide_eq_true_iff,records.validUntil]
  exact not_lt.mpr (past.trans live)

theorem Live.prune (live : Live kind g w) {now : JsNumber} (past : now ≤ w.now) :
    Live kind g { w with store := w.store.prune now } :=
  live.withNotes (fun service up => (live.memory service up).prune past)
    fun _ note _ member token =>
      ⟨note,(InsertionMap.mem_filter.mp member).1,token,rfl,rfl⟩

/-- A release touches at most one entry, a pending one. -/
theorem release_notes (store : MemorySponsorshipStore) (k token : String) :
    store.release k token = { store with notes := (store.release k token).notes } := by
  rw [MemorySponsorshipStore.release]
  split
  · split <;> rfl
  · rfl

theorem Live.release (live : Live kind g w) (k token : String) :
    Live kind g { w with store := w.store.release k token } := by
  rw [release_notes]
  refine live.withNotes ?_ ?_
  · intro service up s member alive
    obtain ⟨note,found,records⟩ := live.memory service up s member alive
    exact ⟨note,mem_release.2 found records.status,records⟩
  · intro key note t member token'
    exact ⟨note,mem_release.1 member,token',rfl,rfl⟩

/-- What is issued and valid is not for a note that is reserved. -/
theorem Live.alive_ne (live : Live kind g w) {i : Nat} {r : Reservation} (held : g i = some r)
    {note : SponsoredNote} (own : r.Has w.store.notes note) {s : Issued} (member : s ∈ w.issued)
    (alive : w.now ≤ s.validUntil) : s.key ≠ r.key := by
  intro same
  have valid := live.reservations i r held
  have expired := valid.alone note own s member same
  exact absurd (alive.trans_lt (expired.trans_le valid.past)) (lt_irrefl _)

/-- Marking one's own reservation as signed. -/
theorem Live.set (live : Live kind g w) {i : Nat} {r : Reservation} (held : g i = some r)
    {note : SponsoredNote} (own : r.Has w.store.notes note) :
    Live kind g { w with store := w.store.set r.key { note with status := .signed } } := by
  refine live.withNotes ?_ ?_
  · intro service up s member alive
    obtain ⟨entry,found,records⟩ := live.memory service up s member alive
    have other := live.alive_ne held own member alive
    exact ⟨entry,InsertionMap.mem_set.mpr (.inr ⟨other,found⟩),records⟩
  · intro k entry token member minted
    rcases InsertionMap.mem_set.mp member with ⟨rfl,rfl⟩ | ⟨_,old⟩
    · exact ⟨note,own.1,minted,rfl,rfl⟩
    · exact ⟨entry,old,minted,rfl,rfl⟩

/-- A new reservation: nothing issued for the note is valid at the time it is made with. -/
theorem Live.reserve (live : Live kind g w) (i : Nat) {now : JsNumber} {k : String}
    {claim : NoteClaim} {cost : Nat} (past : now ≤ w.now)
    (recorded : Recorded w.store.notes now w.issued) (free : w.store.notes.get k = none)
    (priced : claim.maxGasCostWei = some (cost : Int)) (token : String)
    (minted : token = sponsorshipToken w.clock (w.store.seq + 1)) :
    Live kind (Function.update g i (some ⟨k,token,claim.validUntil,now,cost,False⟩))
      { w with store := ⟨w.store.notes.set k { claim with status := .pending, token := .string token },
          w.store.seq + 1⟩ } := by
  have absent (note : SponsoredNote) : (k,note) ∉ w.store.notes.entries := by
    intro member
    rw [InsertionMap.get_eq_some.mpr member] at free
    contradiction
  have fresh {r : Reservation} (valid : r.Valid w) : r.token ≠ token := by
    rintro same
    obtain ⟨t,n,text,old⟩ := valid.minted
    have number := sponsorshipToken_injective (text.symm.trans (same.trans minted))
    omega
  refine ⟨live.started,?_,live.saved,live.apart,live.past,?_,?_⟩
  · intro service up s member alive
    obtain ⟨note,found,records⟩ := live.memory service up s member alive
    refine ⟨note,InsertionMap.mem_set.mpr (.inr ⟨?_,found⟩),records⟩
    intro same
    exact absent note (same ▸ found)
  · intro j r held
    rcases update_eq_some.mp held with ⟨rfl,⟨⟩⟩ | ⟨_,held⟩
    · refine ⟨⟨_,_,minted,le_rfl⟩,past,?_,?_⟩
      · rintro note ⟨member,_⟩
        rcases InsertionMap.mem_set.mp member with ⟨_,rfl⟩ | ⟨other,_⟩
        · exact ⟨rfl,priced⟩
        · exact absurd rfl other
      · intro _ _ s member same
        change s.key = k at same
        by_contra alive
        obtain ⟨note,found,_⟩ := recorded s member (not_lt.mp alive)
        exact absent note (same ▸ found)
    · have valid := live.reservations j r held
      obtain ⟨t,n,text,old⟩ := valid.minted
      have keeps {note : SponsoredNote} (has : r.Has (w.store.notes.set k
          { claim with status := .pending, token := .string token }) note) :
          r.Has w.store.notes note := by
        rcases InsertionMap.mem_set.mp has.1 with ⟨_,rfl⟩ | ⟨_,old⟩
        · exact absurd (Json.string.inj has.2).symm (fresh valid)
        · exact ⟨old,has.2⟩
      exact ⟨⟨t,n,text,Nat.le_succ_of_le old⟩,valid.past,fun note has => valid.entry note (keeps has),
        fun note has => valid.alone note (keeps has)⟩
  · intro a b r r' first second apart
    rcases update_eq_some.mp first with ⟨rfl,⟨⟩⟩ | ⟨_,old⟩
    · rcases update_eq_some.mp second with ⟨rfl,_⟩ | ⟨_,old⟩
      · exact absurd rfl apart
      · exact (fresh (live.reservations b r' old)).symm
    · rcases update_eq_some.mp second with ⟨rfl,⟨⟩⟩ | ⟨_,old'⟩
      · exact fresh (live.reservations a r old)
      · exact live.distinct a b r r' old old' apart

/-- Approving a reservation changes nothing but the approval. -/
theorem Live.approve (live : Live kind g w) {i : Nat} {r : Reservation} (held : g i = some r) :
    Live kind (Function.update g i (some { r with approved := True })) w := by
  have original {j : Nat} {r' : Reservation}
      (found : Function.update g i (some { r with approved := True }) j = some r') :
      ∃ r'', g j = some r'' ∧ r'.key = r''.key ∧ r'.token = r''.token ∧
        r'.validUntil = r''.validUntil ∧ r'.now = r''.now ∧ r'.cost = r''.cost := by
    rcases update_eq_some.mp found with ⟨rfl,⟨⟩⟩ | ⟨_,found⟩
    · exact ⟨r,held,rfl,rfl,rfl,rfl,rfl⟩
    · exact ⟨r',found,rfl,rfl,rfl,rfl,rfl⟩
  refine ⟨live.started,live.memory,live.saved,live.apart,live.past,?_,?_⟩
  · intro j r' found
    obtain ⟨r'',held,key,token,validUntil,now,cost⟩ := original found
    have valid := live.reservations j r'' held
    refine ⟨token ▸ valid.minted,now ▸ valid.past,?_,?_⟩
    · rintro note ⟨member,minted⟩
      rw [validUntil,cost]
      exact valid.entry note ⟨key ▸ member,token ▸ minted⟩
    · rintro note ⟨member,minted⟩ s issued same
      rw [now]
      exact valid.alone note ⟨key ▸ member,token ▸ minted⟩ s issued (same.trans key)
  · intro a b ra rb first second apart
    obtain ⟨ra',first',_,token,_⟩ := original first
    obtain ⟨rb',second',_,token',_⟩ := original second
    rw [token,token']
    exact live.distinct a b ra' rb' first' second' apart

/-! ### The file, the clock and the chain -/

/-- A write of the copy leaves everything the invariant reads. -/
theorem Live.withTmp (live : Live kind g w) (tmp : Option FileContent) :
    Live kind g { w with disk := { w.disk with tmp } } :=
  ⟨live.started,live.memory,live.saved,live.apart,live.past,
    fun i r held => let v := live.reservations i r held; ⟨v.minted,v.past,v.entry,v.alone⟩,
    live.distinct⟩

theorem Recorded.loaded {path : String} {now : JsNumber} {entries notes : Notes}
    {issued : List Issued} (recorded : Recorded entries now issued)
    (loaded : load path now (some (.json (storedNotes entries))) = .ok notes) :
    Recorded notes now issued := by
  intro s member live
  obtain ⟨note,found,records⟩ := recorded s member live
  refine ⟨_,(mem_load_storedNotes loaded).mpr ⟨note,found,?_,rfl⟩,rfl,records.validUntil,records.cost⟩
  rw [records.validUntil]
  exact live

/-- Replacing the file by one that records everything live. -/
theorem Live.withFile (live : Live kind g w) {entries : Notes}
    (recorded : Recorded entries w.now w.issued) (tmp : Option FileContent) :
    Live kind g { w with disk := ⟨some (.json (storedNotes entries)),tmp⟩ } :=
  ⟨live.started,live.memory,
    fun _ _ _ _ later loaded => (recorded.later later).loaded loaded,live.apart,live.past,
    fun i r held => let v := live.reservations i r held; ⟨v.minted,v.past,v.entry,v.alone⟩,
    live.distinct⟩

theorem Live.withChain (live : Live kind g w) (chain : List ChainEvent) :
    Live kind g { w with chain } :=
  ⟨live.started,live.memory,live.saved,live.apart,live.past,
    fun i r held => let v := live.reservations i r held; ⟨v.minted,v.past,v.entry,v.alone⟩,
    live.distinct⟩

theorem Live.tick (live : Live kind g w) (ms : Nat) :
    Live kind g { w with clock := w.clock + ms } := by
  have later : w.now ≤ World.now { w with clock := w.clock + ms } :=
    World.now_mono (Nat.le_add_right _ _)
  exact ⟨live.started,fun service up => (live.memory service up).later later,
    fun path same now notes after => live.saved path same now notes (later.trans after),live.apart,
    fun s member => (live.past s member).trans later,
    fun i r held => let v := live.reservations i r held
      ⟨v.minted,v.past.trans later,v.entry,v.alone⟩,
    live.distinct⟩

/-! ### Issuing and restarting -/

/-- What a request has established when its signature is returned. -/
structure Issuable (kind : StoreKind) (r : Reservation) (s : Issued) (w : World) : Prop where
  key : s.key = r.key
  validUntil : s.validUntil = r.validUntil
  now : s.now = r.now
  cost : s.maxGasCostWei = r.cost
  memory : ∃ note, r.Has w.store.notes note ∧ note.Records s
  saved : ∀ path, kind = .file path → ∀ now notes, load path now w.disk.file = .ok notes →
    now ≤ s.validUntil → ∃ note, (s.key,note) ∈ notes.entries ∧ note.Records s

theorem Recorded.issue {notes : Notes} {now : JsNumber} {issued : List Issued} {s : Issued}
    (recorded : Recorded notes now issued)
    (new : now ≤ s.validUntil → ∃ note, (s.key,note) ∈ notes.entries ∧ note.Records s) :
    Recorded notes now (issued ++ [s]) := by
  intro s' member live
  rcases List.mem_append.mp member with old | last
  · exact recorded s' old live
  · rw [List.mem_singleton] at last
    subst last
    exact new live

theorem Live.issue (live : Live kind g w) {i : Nat} {r : Reservation} (held : g i = some r)
    {s : Issued} (issuable : Issuable kind r s w) :
    Live kind (Function.update g i none) { w with issued := w.issued ++ [s] } := by
  have valid := live.reservations i r held
  obtain ⟨note,own,records⟩ := issuable.memory
  have other {j : Nat} {r' : Reservation} (found : Function.update g i none j = some r') :
      j ≠ i ∧ g j = some r' := by
    rcases update_eq_some.mp found with ⟨_,⟨⟩⟩ | other
    exact other
  refine ⟨live.started,?_,?_,?_,?_,?_,?_⟩
  · intro service up
    exact (live.memory service up).issue fun _ => ⟨note,issuable.key ▸ own.1,records⟩
  · intro path same now notes later loaded
    exact (live.saved path same now notes later loaded).issue
      (issuable.saved path same now notes loaded)
  · refine List.pairwise_append.mpr ⟨live.apart,List.pairwise_singleton _ _,?_⟩
    intro s' member last found same
    rw [List.mem_singleton] at found
    subst found
    rw [issuable.now]
    exact valid.alone note own s' member (same.trans issuable.key)
  · intro s' member
    rcases List.mem_append.mp member with old | last
    · exact live.past s' old
    · rw [List.mem_singleton] at last
      subst last
      exact issuable.now ▸ valid.past
  · intro j r' found
    obtain ⟨apart,held'⟩ := other found
    have valid' := live.reservations j r' held'
    refine ⟨valid'.minted,valid'.past,valid'.entry,?_⟩
    intro note' has s' member same
    rcases List.mem_append.mp member with old | last
    · exact valid'.alone note' has s' old same
    · rw [List.mem_singleton] at last
      subst last
      have key : r'.key = r.key := same.symm.trans issuable.key
      have entry : note' = note := InsertionMap.unique (key ▸ has.1) own.1
      have token := entry ▸ has.2
      rw [own.2] at token
      exact absurd (Json.string.inj token) (live.distinct i j r r' held held' (Ne.symm apart))
  · intro a b ra rb first second apart
    exact live.distinct a b ra rb (other first).2 (other second).2 apart

/-- A process that stops leaves the file. -/
theorem Live.crash (live : Live kind g w) :
    Live kind (fun _ => none) { w with service := none, store := .empty } :=
  ⟨by simp,by simp,live.saved,live.apart,live.past,by simp,by simp⟩

theorem Recorded.signedEntries {store : MemorySponsorshipStore} {now : JsNumber}
    {issued : List Issued} (recorded : Recorded store.notes now issued) :
    Recorded store.signedEntries now issued := by
  intro s member live
  obtain ⟨note,found,records⟩ := recorded s member live
  exact ⟨note,InsertionMap.mem_filter.mpr ⟨found,decide_eq_true records.status⟩,records⟩

theorem Live.boot (live : Live kind g w) {service : RelayerService}
    (writeFault renameFault : Bool) (same : service.config.sponsorshipStore = kind)
    (expired : kind = .memory → ∀ s ∈ w.issued, s.validUntil < w.now) :
    Live kind (fun _ => none) (w.restart (.boot service writeFault renameFault)) := by
  cases kind with
  | memory =>
    rw [World.restart,same]
    refine ⟨?_,?_,by simp,live.apart,live.past,by simp,by simp⟩
    · rintro service' up
      rw [← Option.some.inj up]
      exact same
    · intro _ _ s member alive
      exact absurd (alive.trans_lt (expired rfl s member)) (lt_irrefl _)
  | file path =>
    rw [World.restart,same]
    simp only
    split
    · next disk store opened =>
      rcases FileSponsorshipStore.new_cases opened with ⟨_,e,failed⟩ | ⟨notes,loaded,restored,rfl⟩
      · contradiction
      · cases restored
        have recorded := live.saved path rfl w.now notes le_rfl loaded
        refine ⟨?_,fun _ _ => recorded,?_,live.apart,live.past,by simp,by simp⟩
        · rintro service' up
          rw [← Option.some.inj up]
          exact same
        · rintro _ _ now notes' later loaded'
          have signed : Recorded (MemorySponsorshipStore.signedEntries ⟨notes,0⟩) w.now w.issued :=
            Recorded.signedEntries recorded
          exact (signed.later later).loaded loaded'
    · next disk e opened =>
      rcases FileSponsorshipStore.new_cases opened with ⟨unchanged,_⟩ | ⟨_,_,restored,_⟩
      · refine ⟨live.started,live.memory,?_,live.apart,live.past,by simp,by simp⟩
        intro path' same' now notes later loaded
        rw [show World.disk _ = disk from rfl,unchanged] at loaded
        exact live.saved path' same' now notes later loaded
      · contradiction

end TornadoRelayer
