import TornadoRelayer.HexText
import Mathlib.Tactic.Ring

/-! The sponsorship stores of `service.ts` and `store.ts`: live sponsorships by
nullifier in memory, and the JSON file that carries the signed ones across restarts. -/
namespace TornadoRelayer

open BigEndian JavaScript

/-! ### The store in memory -/

inductive SponsorshipStatus where
  | pending
  | signed
  deriving DecidableEq, Repr

/-- What a request claims a note with. -/
structure NoteClaim where
  validUntil : JsNumber
  sender : Address
  nonce : Int
  /-- Absent in files of releases that did not record it. -/
  maxGasCostWei : Option Int

structure SponsoredNote extends NoteClaim where
  status : SponsorshipStatus
  /-- A text, unless a restored file says otherwise. -/
  token : Json

def SponsoredNote.heldBy (note : SponsoredNote) (token : String) : Bool :=
  match note.token with
  | .string holder => holder == token
  | _ => false

/-- Sponsorships by the hex text of their nullifier hash. -/
abbrev Notes := InsertionMap String SponsoredNote

structure MemorySponsorshipStore where
  notes : Notes
  seq : Nat

def sponsorshipToken (dateNow seq : Nat) : String := s!"{dateNow}-{seq}"

namespace MemorySponsorshipStore

def empty : MemorySponsorshipStore := ⟨.empty, 0⟩

def get (store : MemorySponsorshipStore) (k : String) : Option SponsoredNote := store.notes.get k

/-- The token of the reservation, or the entry that stands in its way. -/
def reserve (store : MemorySponsorshipStore) (dateNow : Nat) (k : String) (claim : NoteClaim) :
    MemorySponsorshipStore × Except SponsoredNote String :=
  match store.notes.get k with
  | some held => (store, .error held)
  | none =>
    let token := sponsorshipToken dateNow (store.seq + 1)
    (⟨store.notes.set k { claim with status := .pending, token := .string token }, store.seq + 1⟩,
      .ok token)

/-- The last step of `commit`. -/
def set (store : MemorySponsorshipStore) (k : String) (next : SponsoredNote) :
    MemorySponsorshipStore :=
  { store with notes := store.notes.set k next }

def release (store : MemorySponsorshipStore) (k token : String) : MemorySponsorshipStore :=
  match store.notes.get k with
  | some held =>
    if held.heldBy token ∧ held.status = .pending then { store with notes := store.notes.delete k }
    else store
  | none => store

def prune (store : MemorySponsorshipStore) (now : JsNumber) : MemorySponsorshipStore :=
  { store with notes := store.notes.filter fun _ v => ¬v.validUntil < now }

def outstanding (store : MemorySponsorshipStore) (now : JsNumber) : List SponsoredNote :=
  (store.notes.entries.map Prod.snd).filter fun v => v.validUntil ≥ now

def signedEntries (store : MemorySponsorshipStore) : Notes :=
  store.notes.filter fun _ v => v.status = .signed

end MemorySponsorshipStore

inductive CommittedGasCost where
  | known (wei : Int)
  /-- How many entries have no recorded cost, and when the last of them expires. -/
  | unknown (unknown : Nat) (latest : JsNumber)

def committedGasCost (notes : List SponsoredNote) : CommittedGasCost :=
  let (wei, unknown, latest) := notes.foldl (fun (wei, unknown, latest) n =>
    match n.maxGasCostWei with
    | some cost => (wei + cost, unknown, latest)
    | none => (wei, unknown + 1, max latest n.validUntil)) ((0 : Int), 0, (0 : JsNumber))
  if unknown > 0 then .unknown unknown latest else .known wei

/-! ### The store on disk -/

/-- What `JSON.parse` makes of a file. -/
inductive FileContent where
  | malformed
  | json (value : Json)

structure Disk where
  file : Option FileContent
  tmp : Option FileContent

/-- A write that fails leaves anything in the file it was writing. -/
def Disk.writeFileSync (disk : Disk) (fault : Bool) (value : Json) : Disk × Except Thrown Unit :=
  if fault then ({ disk with tmp := some .malformed }, .error (.error "EIO: i/o error, write"))
  else ({ disk with tmp := some (.json value) }, .ok ())

def Disk.renameSync (disk : Disk) (fault : Bool) : Disk × Except Thrown Unit :=
  if fault then (disk, .error (.error "EIO: i/o error, rename"))
  else (⟨disk.tmp, none⟩, .ok ())

/-- An entry as the file holds it. -/
def storedNote (v : SponsoredNote) : Json :=
  .object ([("validUntil", .number v.validUntil), ("sender", .string (toHex v.sender.bytes)),
    ("nonce", .string v.nonce.repr), ("status", .string "signed"), ("token", v.token)] ++
    match v.maxGasCostWei with
    | none => []
    | some cost => [("maxGasCostWei", .string cost.repr)])

def storedNotes (entries : Notes) : Json :=
  .object (entries.entries.map fun e => (e.1, storedNote e.2))

/-- Why a value is no bigint. -/
def noBigInt : Json → String
  | .number n =>
    s!"The number {numberText n} cannot be converted to a BigInt because it is not an integer"
  | .null => "Cannot convert null to a BigInt"
  | value => s!"Cannot convert {elementText value} to a BigInt"

def parseBigInt (value : Json) : Except Thrown Int :=
  match bigIntOfJson value with
  | some n => .ok n
  | none => .error (.error (noBigInt value))

/-- `v.token ?? 'restored'`. -/
def restoredToken : Option Json → Json
  | none | some .null => .string "restored"
  | some token => token

def readStatus : Json → Except Thrown (Option Json)
  | .null => .error (.error "Cannot read properties of null (reading 'status')")
  | v => .ok (v.field "status")

def readCost (cost : Option Json) : Except Thrown (Option Int) :=
  match cost with
  | none => .ok none
  | some cost => some <$> parseBigInt cost

/-- One entry of the file: kept, skipped, or a reason not to start. -/
def restoreNote (path : String) (now : JsNumber) (key : String) (v : Json) :
    Except Thrown (Option SponsoredNote) := do
  match ← readStatus v with
  | some (.string "signed") =>
    if ¬isHex key ∨ key.length ≠ 66 then
      .error (.error s!"{path}: malformed nullifier hash {key}")
    else match v.field "validUntil", v.field "nonce", v.field "sender" with
      | some (.number validUntil), some (.string nonce), some (.string sender) =>
        if validUntil < now then .ok none
        else do
          let sender ← getAddress sender
          let nonce ← parseBigInt (.string nonce)
          let maxGasCostWei ← readCost (v.field "maxGasCostWei")
          return some { validUntil, sender, nonce, maxGasCostWei, status := .signed,
                        token := restoredToken (v.field "token") }
      | _, _, _ => .error (.error s!"{path}: malformed entry for {key}")
  | _ => .ok none

def restoreNotes (path : String) (now : JsNumber) (notes : Notes) (fields : List (String × Json)) :
    Except Thrown Notes :=
  fields.foldlM (fun notes (key, v) => do
    match ← restoreNote path now key v with
    | some note => return notes.set key note
    | none => return notes) notes

/-- What the constructor reads, before it writes the file back. -/
def load (path : String) (now : JsNumber) : Option FileContent → Except Thrown Notes
  | none => .ok .empty
  | some .malformed => .error (.error s!"{path}: Unexpected token in JSON")
  | some (.json (.object fields)) => restoreNotes path now .empty fields
  | some (.json _) => .error (.error s!"{path}: not a sponsorship store")

/-- The constructor; without a store the process does not start. -/
def FileSponsorshipStore.new (path : String) (now : JsNumber) (writeFault renameFault : Bool)
    (disk : Disk) : Disk × Except Thrown MemorySponsorshipStore :=
  match load path now disk.file with
  | .error e => (disk, .error e)
  | .ok notes =>
    let store : MemorySponsorshipStore := ⟨notes, 0⟩
    match disk.writeFileSync writeFault (storedNotes store.signedEntries) with
    | (disk, .error e) => (disk, .error e)
    | (disk, .ok _) =>
      match disk.renameSync renameFault with
      | (disk, .error e) => (disk, .error e)
      | (disk, .ok _) => (disk, .ok store)

theorem SponsoredNote.heldBy_iff {note : SponsoredNote} {token : String} :
    note.heldBy token = true ↔ note.token = .string token := by
  rw [SponsoredNote.heldBy]
  split
  · next text stored => simp [stored]
  · next other =>
    refine ⟨fun h => by contradiction,fun own => absurd own (other token)⟩

/-- A release takes the pending entry that its token holds. -/
theorem mem_release_iff {store : MemorySponsorshipStore} {k token key : String}
    {note : SponsoredNote} :
    (key,note) ∈ (store.release k token).notes.entries ↔ (key,note) ∈ store.notes.entries ∧
      ¬(key = k ∧ note.token = .string token ∧ note.status = .pending) := by
  have alone {held : SponsoredNote} (found : store.notes.get k = some held)
      (member : (k,note) ∈ store.notes.entries) : note = held :=
    InsertionMap.unique member (InsertionMap.get_eq_some.mp found)
  rw [MemorySponsorshipStore.release]
  split
  · next held found =>
    split
    · next taken =>
      rw [SponsoredNote.heldBy_iff] at taken
      rw [InsertionMap.mem_delete]
      refine and_congr_right fun member => ?_
      constructor
      · exact fun apart same => apart same.1
      · rintro kept rfl
        exact kept ⟨rfl,alone found member ▸ taken⟩
    · next free =>
      rw [SponsoredNote.heldBy_iff] at free
      refine ⟨fun member => ⟨member,?_⟩,fun member => member.1⟩
      rintro ⟨rfl,own⟩
      exact free (alone found member ▸ own)
  · next none =>
    refine ⟨fun member => ⟨member,?_⟩,fun member => member.1⟩
    rintro ⟨rfl,_⟩
    rw [InsertionMap.get_eq_some.mpr member] at none
    cases none

/-- Releasing drops nothing that is signed. -/
theorem mem_release {store : MemorySponsorshipStore} {k token key : String} {note : SponsoredNote} :
    ((key,note) ∈ (store.release k token).notes.entries → (key,note) ∈ store.notes.entries) ∧
    ((key,note) ∈ store.notes.entries → note.status = .signed →
      (key,note) ∈ (store.release k token).notes.entries) := by
  refine ⟨fun member => (mem_release_iff.mp member).1,fun member signed => ?_⟩
  refine mem_release_iff.mpr ⟨member,?_⟩
  rintro ⟨_,_,pending⟩
  rw [signed] at pending
  contradiction

theorem mem_reserve {store : MemorySponsorshipStore} {dateNow : Nat} {key k : String}
    {reserved : NoteClaim} {note : SponsoredNote} :
    (k,note) ∈ (store.reserve dateNow key reserved).1.notes.entries ↔
      (k,note) ∈ store.notes.entries ∨ (store.get key = none ∧ k = key ∧ note =
        { reserved with status := .pending, token := .string (sponsorshipToken dateNow (store.seq + 1)) }) := by
  rw [MemorySponsorshipStore.reserve,MemorySponsorshipStore.get]
  cases found : store.notes.get key with
  | some held => simp
  | none =>
    have absent := InsertionMap.get_eq_none.mp found
    simp only [InsertionMap.mem_set,true_and]
    constructor
    · rintro (⟨rfl,rfl⟩ | ⟨_,old⟩)
      · exact .inr ⟨rfl,rfl⟩
      · exact .inl old
    · rintro (old | ⟨rfl,rfl⟩)
      · refine .inr ⟨?_,old⟩
        rintro rfl
        exact absent note old
      · exact .inl ⟨rfl,rfl⟩

/-- One store never hands out a token twice, whatever the clock shows. -/
theorem sponsorshipToken_injective {t t' n n' : Nat}
    (same : sponsorshipToken t n = sponsorshipToken t' n') : n = n' := by
  have text (t n : Nat) :
      (sponsorshipToken t n).toList = Nat.toDigits 10 t ++ '-' :: Nat.toDigits 10 n := by
    rw [← Nat.toList_repr,← Nat.toList_repr]
    simp [sponsorshipToken,toString]
  have counter (t n : Nat) : (sponsorshipToken t n).toList.dropWhile (· ≠ '-') =
      '-' :: Nat.toDigits 10 n := by
    have digits : ∀ c ∈ Nat.toDigits 10 t, decide (c ≠ '-') = true := by
      intro c member
      have digit := Nat.isDigit_of_mem_toDigits (by decide) (by decide) member
      rw [decide_eq_true_iff]
      rintro rfl
      revert digit
      decide
    rw [text,List.dropWhile_append_of_pos digits,List.dropWhile_cons_of_neg (by decide)]
  have digits := counter t n
  rw [same,counter t' n'] at digits
  have read := readDigits_toDigits n
  rw [← (List.cons.inj digits).2,readDigits_toDigits] at read
  exact (Option.some.inj read).symm

theorem committedGasCost_known {notes : List SponsoredNote} {wei : Int}
    (known : committedGasCost notes = .known wei) :
    (∀ n ∈ notes, n.maxGasCostWei ≠ none) ∧
      wei = (notes.map fun n => n.maxGasCostWei.getD 0).sum := by
  have totals (notes : List SponsoredNote) (start : Int × Nat × JsNumber) :
      let sums := notes.foldl (fun (wei, unknown, latest) n =>
        match n.maxGasCostWei with
        | some cost => (wei + cost, unknown, latest)
        | none => (wei, unknown + 1, max latest n.validUntil)) start
      sums.1 = start.1 + (notes.map fun n => n.maxGasCostWei.getD 0).sum ∧
        start.2.1 ≤ sums.2.1 ∧
        (sums.2.1 ≤ start.2.1 → ∀ n ∈ notes, n.maxGasCostWei ≠ none) := by
    induction notes generalizing start with
    | nil => simp
    | cons n notes ih =>
      obtain ⟨wei,unknown,latest⟩ := start
      simp only [List.foldl_cons,List.map_cons,List.sum_cons,List.forall_mem_cons]
      cases cost : n.maxGasCostWei with
      | none =>
        obtain ⟨sum,more,_⟩ := ih (wei,unknown + 1,max latest n.validUntil)
        refine ⟨?_,Nat.le_of_succ_le more,fun none => absurd (more.trans none) (by simp)⟩
        rw [sum]
        simp
      | some price =>
        obtain ⟨sum,more,all⟩ := ih (wei + price,unknown,latest)
        refine ⟨?_,more,fun none => ⟨by simp,all none⟩⟩
        rw [sum]
        simp only [Option.getD_some]
        ring
  obtain ⟨sum,_,all⟩ := totals notes (0,0,0)
  rw [committedGasCost] at known
  simp only at known
  split at known
  · contradiction
  · next none =>
    cases known
    exact ⟨all (Nat.le_of_not_lt none),by rw [sum,zero_add]⟩

/-! ### What is read back -/

theorem parseBigInt_repr (i : Int) : parseBigInt (.string i.repr) = .ok i := by
  rw [parseBigInt,bigIntOfJson,bigIntOfText_repr]

/-- A stored entry comes back as it was, unless it has expired or its key is no hash. -/
theorem restoreNote_stored (path : String) (now : JsNumber) (key : String) (v : SponsoredNote) :
    restoreNote path now key (storedNote v) =
      if ¬isHex key = true ∨ key.length ≠ 66 then
        .error (.error s!"{path}: malformed nullifier hash {key}")
      else if v.validUntil < now then .ok none
      else .ok (some { v with status := .signed, token := restoredToken (some v.token) }) := by
  have status : readStatus (storedNote v) = .ok (some (.string "signed")) := rfl
  have validUntil : (storedNote v).field "validUntil" = some (.number v.validUntil) := rfl
  have nonce : (storedNote v).field "nonce" = some (.string v.nonce.repr) := rfl
  have sender : (storedNote v).field "sender" = some (.string (toHex v.sender.bytes)) := rfl
  have token : (storedNote v).field "token" = some v.token := rfl
  have cost : readCost ((storedNote v).field "maxGasCostWei") = .ok v.maxGasCostWei := by
    cases recorded : v.maxGasCostWei with
    | none =>
      simp only [storedNote,Json.field,recorded]
      rfl
    | some cost =>
      simp only [storedNote,Json.field,recorded]
      exact congrArg (some <$> ·) (parseBigInt_repr cost)
  rw [restoreNote,status]
  simp only [validUntil,nonce,sender,token,cost,getAddress_toHex,parseBigInt_repr]
  rfl

theorem restoreNote_storedNote {path : String} {now : JsNumber} {key : String} {v : SponsoredNote}
    {r : Option SponsoredNote} (restored : restoreNote path now key (storedNote v) = .ok r) :
    r = if v.validUntil < now then none
      else some { v with status := .signed, token := restoredToken (some v.token) } := by
  rw [restoreNote_stored] at restored
  split at restored
  · contradiction
  · split at restored
    · next expired =>
      rw [if_pos expired]
      exact (Except.ok.inj restored).symm
    · next live =>
      rw [if_neg live]
      exact (Except.ok.inj restored).symm

/-- What a file with distinct keys restores. -/
theorem mem_restoreNotes {path : String} {now : JsNumber} {fields : List (String × Json)}
    {notes restored : Notes} (nodup : (fields.map Prod.fst).Nodup)
    (apart : ∀ k v, (k,v) ∈ fields → ∀ note, (k,note) ∉ notes.entries)
    (loaded : restoreNotes path now notes fields = .ok restored) {k : String}
    {note : SponsoredNote} : (k,note) ∈ restored.entries ↔
      (k,note) ∈ notes.entries ∨ ∃ v, (k,v) ∈ fields ∧ restoreNote path now k v = .ok (some note) := by
  induction fields generalizing notes with
  | nil =>
    cases loaded
    simp
  | cons e fields ih =>
    obtain ⟨key,v⟩ := e
    rw [List.map_cons,List.nodup_cons] at nodup
    rw [restoreNotes,List.foldlM_cons] at loaded
    obtain ⟨after,first,rest⟩ := bind_ok_iff.mp loaded
    obtain ⟨r,read,kept⟩ := bind_ok_iff.mp first
    have free (note : SponsoredNote) : (key,note) ∉ notes.entries := apart key v (by simp) note
    cases r with
    | none =>
      cases kept
      rw [ih nodup.2 (fun k' v' later => apart k' v' (List.mem_cons_of_mem _ later)) rest]
      constructor
      · rintro (old | ⟨v',later,restored⟩)
        · exact .inl old
        · exact .inr ⟨v',List.mem_cons_of_mem _ later,restored⟩
      · rintro (old | ⟨v',later,restored⟩)
        · exact .inl old
        · rcases List.mem_cons.mp later with own | later
          · cases own
            rw [read] at restored
            cases restored
          · exact .inr ⟨v',later,restored⟩
    | some found =>
      cases kept
      have later : ∀ k' v', (k',v') ∈ fields → ∀ note, (k',note) ∉ (notes.set key found).entries := by
        intro k' v' member note found
        rcases InsertionMap.mem_set.mp found with ⟨rfl,_⟩ | ⟨_,old⟩
        · exact nodup.1 (List.mem_map.mpr ⟨_,member,rfl⟩)
        · exact apart k' v' (List.mem_cons_of_mem _ member) note old
      rw [ih nodup.2 later rest,InsertionMap.mem_set]
      constructor
      · rintro ((⟨rfl,rfl⟩ | ⟨_,old⟩) | ⟨v',later,restored⟩)
        · exact .inr ⟨v,by simp,read⟩
        · exact .inl old
        · exact .inr ⟨v',List.mem_cons_of_mem _ later,restored⟩
      · rintro (old | ⟨v',later,restored⟩)
        · refine .inl (.inr ⟨?_,old⟩)
          rintro rfl
          exact free note old
        · rcases List.mem_cons.mp later with own | later
          · cases own
            rw [read] at restored
            cases restored
            exact .inl (.inl ⟨rfl,rfl⟩)
          · exact .inr ⟨v',later,restored⟩

/-- A file is restored only when each of its entries can be read. -/
theorem restoreNotes_read {path : String} {now : JsNumber} {fields : List (String × Json)}
    {notes restored : Notes} (loaded : restoreNotes path now notes fields = .ok restored)
    {k : String} {v : Json} (member : (k,v) ∈ fields) : ∃ r, restoreNote path now k v = .ok r := by
  induction fields generalizing notes with
  | nil => simp at member
  | cons e fields ih =>
    rw [restoreNotes,List.foldlM_cons] at loaded
    obtain ⟨after,first,rest⟩ := bind_ok_iff.mp loaded
    rcases List.mem_cons.mp member with rfl | later
    · obtain ⟨r,read,_⟩ := bind_ok_iff.mp first
      exact ⟨r,read⟩
    · exact ih rest later

theorem restoreNotes_ok {path : String} {now : JsNumber} {fields : List (String × Json)}
    (each : ∀ k v, (k,v) ∈ fields → ∃ r, restoreNote path now k v = .ok r) (notes : Notes) :
    ∃ restored, restoreNotes path now notes fields = .ok restored := by
  induction fields generalizing notes with
  | nil => exact ⟨notes,rfl⟩
  | cons e fields ih =>
    obtain ⟨key,v⟩ := e
    obtain ⟨r,read⟩ := each key v (by simp)
    simp only [restoreNotes,List.foldlM_cons,read]
    cases r with
    | none => exact ih (fun k v later => each k v (List.mem_cons_of_mem _ later)) notes
    | some note => exact ih (fun k v later => each k v (List.mem_cons_of_mem _ later)) _

/-- The file of a set of entries restores those that have not expired. -/
theorem mem_load_storedNotes {path : String} {now : JsNumber} {entries restored : Notes}
    (loaded : load path now (some (.json (storedNotes entries))) = .ok restored) {k : String}
    {note : SponsoredNote} : (k,note) ∈ restored.entries ↔
      ∃ v, (k,v) ∈ entries.entries ∧ now ≤ v.validUntil ∧
        note = { v with status := .signed, token := restoredToken (some v.token) } := by
  have keys : ((entries.entries.map fun e => (e.1, storedNote e.2)).map Prod.fst) =
      entries.entries.map Prod.fst := by
    rw [List.map_map]
    rfl
  have nodup := keys ▸ entries.nodup
  rw [mem_restoreNotes nodup (by simp [InsertionMap.empty]) loaded]
  constructor
  · rintro (none | ⟨_,member,read⟩)
    · simp [InsertionMap.empty] at none
    · obtain ⟨⟨_,v⟩,old,same⟩ := List.mem_map.mp member
      cases same
      have restored := restoreNote_storedNote read
      split at restored
      · contradiction
      · next live => exact ⟨v,old,not_lt.mp live,Option.some.inj restored⟩
  · rintro ⟨v,old,live,rfl⟩
    have member : (k,storedNote v) ∈ entries.entries.map fun e => (e.1,storedNote e.2) :=
      List.mem_map.mpr ⟨(k,v),old,rfl⟩
    obtain ⟨r,read⟩ := restoreNotes_read loaded member
    have restored := restoreNote_storedNote read
    rw [if_neg (not_lt.mpr live)] at restored
    exact .inr ⟨_,member,restored ▸ read⟩

/-- The constructor leaves the file as it is, or replaces it by what it restored from it. -/
theorem FileSponsorshipStore.new_cases {path : String} {now : JsNumber}
    {writeFault renameFault : Bool} {disk disk' : Disk} {r : Except Thrown MemorySponsorshipStore}
    (opened : FileSponsorshipStore.new path now writeFault renameFault disk = (disk',r)) :
    (disk'.file = disk.file ∧ ∃ e, r = .error e) ∨
    ∃ notes, load path now disk.file = .ok notes ∧ r = .ok ⟨notes,0⟩ ∧
      disk' = ⟨some (.json (storedNotes (MemorySponsorshipStore.signedEntries ⟨notes,0⟩))),none⟩ := by
  rw [FileSponsorshipStore.new] at opened
  cases loaded : load path now disk.file with
  | error e =>
    rw [loaded] at opened
    cases opened
    exact .inl ⟨rfl,e,rfl⟩
  | ok notes =>
    rw [loaded] at opened
    cases writeFault with
    | true =>
      cases opened
      exact .inl ⟨rfl,_,rfl⟩
    | false =>
      cases renameFault with
      | true =>
        cases opened
        exact .inl ⟨rfl,_,rfl⟩
      | false =>
        cases opened
        exact .inr ⟨notes,rfl,rfl,rfl⟩

end TornadoRelayer
