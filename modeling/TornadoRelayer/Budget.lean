import TornadoRelayer.LiveSponsorships

/-! The deposit budget: once a request has been approved, the deposit covers every approved
reservation and every issued operation that may still land. The argument for a reading
goes through the operations that landed since the moment it reports. -/
namespace TornadoRelayer

open BigEndian EventLoop JavaScript RelayerService

/-- The issued operation an event includes. -/
def ChainEvent.operation : ChainEvent → Option Nat
  | .topUp _ => none
  | .included n _ => some n

def ChainEvent.charge : ChainEvent → Nat
  | .topUp _ => 0
  | .included _ charge => charge

structure Inclusions (w : World) : Prop where
  once : (w.chain.filterMap ChainEvent.operation).Nodup
  issued : ∀ n charge, .included n charge ∈ w.chain → ∃ s, w.issued[n]? = some s ∧
    s.now ≤ s.validUntil ∧ charge ≤ s.maxGasCostWei

/-- An operation for this note has landed and could still land. -/
def Settled (w : World) (k : String) : Prop :=
  ∃ n charge s, .included n charge ∈ w.chain ∧ w.issued[n]? = some s ∧ s.key = k ∧
    w.now ≤ s.validUntil

def Approved (g : Reservations) (k : String) (note : SponsoredNote) : Prop :=
  ∃ i r, g i = some r ∧ r.approved ∧ r.key = k ∧ note.token = .string r.token

/-- The entry may still cost the paymaster something. -/
structure Owing (g : Reservations) (w : World) (k : String) (note : SponsoredNote) : Prop where
  alive : w.now ≤ note.validUntil
  signed : note.status = .signed → ¬Settled w k
  pending : note.status = .pending → Approved g k note

def SponsoredNote.cost (note : SponsoredNote) : Nat := (note.maxGasCostWei.getD 0).toNat

open Classical in
noncomputable def owed (g : Reservations) (w : World) (k : String) (note : SponsoredNote) : Nat :=
  if Owing g w k note then note.cost else 0

structure Covered (g : Reservations) (w : World) : Prop where
  priced : ∀ k note, (k,note) ∈ w.store.notes.entries → w.now ≤ note.validUntil →
    note.maxGasCostWei ≠ none
  total : (w.store.notes.total (owed g w) : Int) ≤ w.deposit

def NonNegative (notes : Notes) : Prop :=
  ∀ k note cost, (k,note) ∈ notes.entries → note.maxGasCostWei = some cost → 0 ≤ cost

structure Budgeted (kind : StoreKind) (g : Reservations) (w : World) : Prop where
  memory : NonNegative w.store.notes
  saved : ∀ path, kind = .file path → ∀ now notes, load path now w.disk.file = .ok notes →
    NonNegative notes
  reserve : ∀ service, w.service = some service → 0 ≤ service.config.minDepositWei.getD 0
  covered : ∀ service, w.service = some service → (∃ i r, g i = some r ∧ r.approved) → Covered g w

variable {kind : StoreKind} {g g' : Reservations} {w w' : World}

/-! ### The deposit -/

theorem depositAfter_append (opening : Int) (recent moment : List ChainEvent) :
    depositAfter opening moment ≤
      depositAfter opening (recent ++ moment) + (recent.map ChainEvent.charge).sum := by
  induction recent with
  | nil => simp
  | cons e recent ih =>
    cases e with
    | topUp amount =>
      simp only [List.cons_append,depositAfter,List.map_cons,List.sum_cons,ChainEvent.charge]
      omega
    | included n charge =>
      simp only [List.cons_append,depositAfter,List.map_cons,List.sum_cons,ChainEvent.charge]
      rw [Nat.cast_add]
      omega

/-! ### What steps leave covered -/

theorem owed_le (owing : Owing g w k note → Owing g' w' k note') (cost : note'.cost = note.cost) :
    owed g w k note ≤ owed g' w' k note' := by
  rw [owed,owed]
  split
  · next owes => rw [if_pos (owing owes),cost]
  · exact Nat.zero_le _

/-- Entries may go, and what is left owe less. -/
theorem Covered.mono (covered : Covered g w) (deposit : w.deposit ≤ w'.deposit)
    (priced : ∀ k note, (k,note) ∈ w'.store.notes.entries → w'.now ≤ note.validUntil →
      note.maxGasCostWei ≠ none)
    (owing : ∀ k note, (k,note) ∈ w'.store.notes.entries → Owing g' w' k note →
      ∃ note', (k,note') ∈ w.store.notes.entries ∧ Owing g w k note' ∧ note'.cost = note.cost) :
    Covered g' w' := by
  refine ⟨priced,le_trans ?_ (covered.total.trans deposit)⟩
  have less : w'.store.notes.total (owed g' w') ≤ w.store.notes.total (owed g w) := by
    apply InsertionMap.total_le
    intro k note member some
    rw [owed] at some
    split at some
    · next owes =>
      obtain ⟨note',found,owes',cost⟩ := owing k note member owes
      refine ⟨note',found,?_⟩
      rw [owed,owed,if_pos owes,if_pos owes',cost]
    · exact absurd rfl some
  exact_mod_cast less

/-- Entries may only go. -/
theorem Covered.withNotes (covered : Covered g w) {notes : Notes}
    (old : ∀ k note, (k,note) ∈ notes.entries → (k,note) ∈ w.store.notes.entries) :
    Covered g { w with store := { w.store with notes } } :=
  covered.mono le_rfl (fun k note member => covered.priced k note (old k note member))
    fun k note member owes =>
      ⟨note,old k note member,⟨owes.alive,owes.signed,owes.pending⟩,rfl⟩

theorem Covered.withDisk (covered : Covered g w) (disk : Disk) : Covered g { w with disk } :=
  covered.mono le_rfl covered.priced
    fun _ note member owes => ⟨note,member,⟨owes.alive,owes.signed,owes.pending⟩,rfl⟩

/-- A signed entry owes what its approved reservation owed. -/
theorem Covered.set (covered : Covered g w) {i : Nat} {r : Reservation} (held : g i = some r)
    (approved : r.approved) {note : SponsoredNote} (own : r.Has w.store.notes note) :
    Covered g { w with store := w.store.set r.key { note with status := .signed } } := by
  refine covered.mono le_rfl ?_ ?_
  · intro k entry member alive
    rcases InsertionMap.mem_set.mp member with ⟨rfl,rfl⟩ | ⟨_,old⟩
    · exact covered.priced r.key note own.1 alive
    · exact covered.priced k entry old alive
  · intro k entry member owes
    rcases InsertionMap.mem_set.mp member with ⟨rfl,rfl⟩ | ⟨_,old⟩
    · exact ⟨note,own.1,⟨owes.alive,fun _ => owes.signed rfl,fun _ => ⟨i,r,held,approved,rfl,own.2⟩⟩,rfl⟩
    · exact ⟨entry,old,⟨owes.alive,owes.signed,owes.pending⟩,rfl⟩

/-- A reservation owes nothing before it is approved. -/
theorem Covered.reserve (live : Live kind g w) (covered : Covered g w) (i : Nat) {k : String}
    {claim : NoteClaim} {r : Reservation} (unapproved : ¬r.approved)
    (priced : claim.maxGasCostWei ≠ none) (token : String)
    (minted : token = sponsorshipToken w.clock (w.store.seq + 1)) :
    Covered (Function.update g i (some r))
      { w with store := ⟨w.store.notes.set k { claim with status := .pending, token := .string token },
          w.store.seq + 1⟩ } := by
  have other {k' : String} {note : SponsoredNote}
      (approved : Approved (Function.update g i (some r)) k' note) : Approved g k' note := by
    obtain ⟨j,r',held,yes,key,token⟩ := approved
    rcases update_eq_some.mp held with ⟨_,⟨⟩⟩ | ⟨_,held⟩
    · exact absurd yes unapproved
    · exact ⟨j,r',held,yes,key,token⟩
  refine covered.mono le_rfl ?_ ?_
  · intro k' entry member alive
    rcases InsertionMap.mem_set.mp member with ⟨_,rfl⟩ | ⟨_,old⟩
    · exact priced
    · exact covered.priced k' entry old alive
  · intro k' entry member owes
    rcases InsertionMap.mem_set.mp member with ⟨_,rfl⟩ | ⟨_,old⟩
    · obtain ⟨j,r',held,_,_,same⟩ := other (owes.pending rfl)
      obtain ⟨t,n,text,old⟩ := (live.reservations j r' held).minted
      have number := sponsorshipToken_injective
        (text.symm.trans ((Json.string.inj same).symm.trans minted))
      omega
    · exact ⟨entry,old,⟨owes.alive,owes.signed,fun status => other (owes.pending status)⟩,rfl⟩

theorem Settled.issue {k : String} (settled : Settled w k) (s : Issued) :
    Settled { w with issued := w.issued ++ [s] } k := by
  obtain ⟨n,charge,s',landed,found,key,alive⟩ := settled
  refine ⟨n,charge,s',landed,?_,key,alive⟩
  rw [← found]
  exact List.getElem?_append_left (List.getElem?_eq_some_iff.mp found).1

/-- Returning a signature owes nothing new: its entry was approved. -/
theorem Covered.issue (covered : Covered g w) (i : Nat) (s : Issued) :
    Covered (Function.update g i none) { w with issued := w.issued ++ [s] } := by
  refine covered.mono le_rfl covered.priced ?_
  intro k note member owes
  refine ⟨note,member,⟨owes.alive,?_,?_⟩,rfl⟩
  · exact fun signed settled => owes.signed signed (settled.issue s)
  · intro pending
    obtain ⟨j,r,held,rest⟩ := owes.pending pending
    rcases update_eq_some.mp held with ⟨_,⟨⟩⟩ | ⟨_,held⟩
    exact ⟨j,r,held,rest⟩

theorem Covered.tick (live : Live kind g w) (covered : Covered g w) {service : RelayerService}
    (up : w.service = some service) (ms : Nat) : Covered g { w with clock := w.clock + ms } := by
  have later : w.now ≤ World.now { w with clock := w.clock + ms } :=
    World.now_mono (Nat.le_add_right _ _)
  refine covered.mono le_rfl
    (fun k note member alive => covered.priced k note member (later.trans alive)) ?_
  intro k note member owes
  refine ⟨note,member,⟨later.trans owes.alive,?_,owes.pending⟩,rfl⟩
  -- An operation that has landed for the note stands in the entry, which is still valid.
  rintro signed ⟨n,charge,s,landed,found,rfl,alive⟩
  obtain ⟨entry,standing,records⟩ := live.memory service up s (List.mem_of_getElem? found) alive
  refine owes.signed signed ⟨n,charge,s,landed,found,rfl,?_⟩
  rw [← records.validUntil,InsertionMap.unique standing member]
  exact owes.alive

theorem Covered.topUp (covered : Covered g w) (amount : Nat) :
    Covered g { w with chain := .topUp amount :: w.chain } := by
  refine covered.mono ?_ covered.priced ?_
  · change w.deposit ≤ w.deposit + amount
    omega
  · intro k note member owes
    refine ⟨note,member,⟨owes.alive,?_,owes.pending⟩,rfl⟩
    rintro signed ⟨n,charge,s,landed,rest⟩
    exact owes.signed signed ⟨n,charge,s,List.mem_cons_of_mem _ landed,rest⟩

/-- Of two valid sponsorships of one note there is only one. -/
theorem Live.unique (live : Live kind g w) {n m : Nat} {s s' : Issued}
    (first : w.issued[n]? = some s) (second : w.issued[m]? = some s') (same : s.key = s'.key)
    (alive : w.now ≤ s.validUntil) (alive' : w.now ≤ s'.validUntil) : n = m := by
  obtain ⟨hn,rfl⟩ := List.getElem?_eq_some_iff.mp first
  obtain ⟨hm,rfl⟩ := List.getElem?_eq_some_iff.mp second
  have ordered := List.pairwise_iff_getElem.mp live.apart
  have past (k : Nat) (hk : k < w.issued.length) := live.past _ (List.getElem_mem hk)
  rcases Nat.lt_trichotomy n m with less | equal | more
  · exact absurd (alive.trans_lt ((ordered n m hn hm less same).trans_le (past m hm))) (lt_irrefl _)
  · exact equal
  · exact absurd (alive'.trans_lt ((ordered m n hm hn more same.symm).trans_le (past n hn)))
      (lt_irrefl _)

/-- What an operation costs was owed until it landed. -/
theorem Covered.inclusion (live : Live kind g w) (covered : Covered g w) {service : RelayerService}
    (up : w.service = some service) {n charge : Nat} (may : w.MayInclude n charge) :
    Covered g { w with chain := .included n charge :: w.chain } := by
  obtain ⟨new,s,found,alive,cheap⟩ := may
  obtain ⟨note,standing,records⟩ := live.memory service up s (List.mem_of_getElem? found) alive
  have valid : w.now ≤ note.validUntil := by
    rw [records.validUntil]
    exact alive
  obtain ⟨cost,priced⟩ := Option.ne_none_iff_exists'.mp (covered.priced _ _ standing valid)
  have unsettled : ¬Settled w s.key := by
    rintro ⟨m,c,s',landed,found',same,alive'⟩
    have number := live.unique found' found same alive' alive
    exact new c (number ▸ landed)
  have before : owed g w s.key note = s.maxGasCostWei := by
    rw [owed,if_pos ⟨valid,fun _ => unsettled,fun pending => by rw [records.status] at pending; contradiction⟩,
      SponsoredNote.cost,priced,records.cost cost priced]
    rfl
  have settled : Settled { w with chain := .included n charge :: w.chain } s.key :=
    ⟨n,charge,s,List.mem_cons_self,found,rfl,alive⟩
  have after : owed g { w with chain := .included n charge :: w.chain } s.key note = 0 :=
    if_neg fun owes => owes.signed records.status settled
  have fewer : w.store.notes.total (owed g { w with chain := .included n charge :: w.chain }) +
      owed g w s.key note ≤ w.store.notes.total (owed g w) := by
    refine InsertionMap.total_erase standing after fun k entry _ => owed_le ?_ rfl
    intro owes
    refine ⟨owes.alive,?_,owes.pending⟩
    rintro signed ⟨m,c,s',landed,rest⟩
    exact owes.signed signed ⟨m,c,s',List.mem_cons_of_mem _ landed,rest⟩
  have total := covered.total
  refine ⟨covered.priced,?_⟩
  change _ ≤ w.deposit - (charge : Int)
  rw [before] at fewer
  change ((w.store.notes.total (owed g { w with chain := .included n charge :: w.chain }) : Nat) : Int) ≤ _
  omega

/-! ### What a reading establishes -/

/-- One of these events includes an operation for this note. -/
def Landed (w : World) (events : List ChainEvent) (k : String) : Prop :=
  ∃ n charge s, .included n charge ∈ events ∧ w.issued[n]? = some s ∧ s.key = k

open Classical in
/-- What an entry counts for at a given time, unless these events have already charged it. -/
noncomputable def uncharged (w : World) (now : JsNumber) (events : List ChainEvent) (k : String)
    (note : SponsoredNote) : Nat :=
  if now ≤ note.validUntil ∧ ¬Landed w events k then note.cost else 0

/-- The entry of an operation that has landed is still there at its own price. -/
def Standing (w : World) (now : JsNumber) (n : Nat) : Prop :=
  ∃ s note, w.issued[n]? = some s ∧ (s.key,note) ∈ w.store.notes.entries ∧ note.Records s ∧
    now ≤ s.validUntil ∧ note.maxGasCostWei ≠ none

/-- Two operations that stand in the store are for two notes. -/
theorem standing_apart (live : Live kind g w) (inclusions : Inclusions w) {n m : Nat}
    {c d : Nat} {s s' : Issued} {note : SponsoredNote} (first : w.issued[n]? = some s)
    (second : w.issued[m]? = some s') (landed : .included n c ∈ w.chain)
    (landed' : .included m d ∈ w.chain) (same : s.key = s'.key) (records : note.Records s)
    (records' : note.Records s') : n = m := by
  have equal : s.validUntil = s'.validUntil := records.validUntil.symm.trans records'.validUntil
  obtain ⟨_,found,reserved,_⟩ := inclusions.issued n c landed
  obtain ⟨_,found',reserved',_⟩ := inclusions.issued m d landed'
  cases found.symm.trans first
  cases found'.symm.trans second
  obtain ⟨hn,rfl⟩ := List.getElem?_eq_some_iff.mp first
  obtain ⟨hm,rfl⟩ := List.getElem?_eq_some_iff.mp second
  have ordered := List.pairwise_iff_getElem.mp live.apart
  rcases Nat.lt_trichotomy n m with less | number | more
  · have late := (ordered n m hn hm less same).trans_le reserved'
    exact absurd late (by rw [equal]; exact lt_irrefl _)
  · exact number
  · have late := (ordered m n hm hn more same.symm).trans_le reserved
    exact absurd late (by rw [equal]; exact lt_irrefl _)

/-- Each operation that has landed takes its entry out of what is uncharged. -/
theorem uncharged_le (live : Live kind g w) (inclusions : Inclusions w) {now : JsNumber}
    {recent moment : List ChainEvent} (split : w.chain = recent ++ moment)
    (standing : ∀ n charge, .included n charge ∈ recent → Standing w now n) :
    w.store.notes.total (uncharged w now recent) + (recent.map ChainEvent.charge).sum ≤
      w.store.notes.total (uncharged w now []) := by
  have once := inclusions.once
  rw [split,List.filterMap_append] at once
  replace once := once.sublist (List.sublist_append_left _ _)
  have onChain : recent ⊆ w.chain := by simp [split]
  clear split moment
  induction recent with
  | nil => simp
  | cons e recent ih =>
    have rest := ih (fun n charge member => standing n charge (List.mem_cons_of_mem _ member))
      (once.sublist ((List.sublist_cons_self e recent).filterMap _))
      (fun x member => onChain (List.mem_cons_of_mem _ member))
    cases e with
    | topUp amount =>
      have landed : Landed w (.topUp amount :: recent) = Landed w recent := by
        funext k
        simp [Landed]
      have same : uncharged w now (.topUp amount :: recent) = uncharged w now recent := by
        funext k note
        rw [uncharged,uncharged,landed]
      rw [same]
      simpa [ChainEvent.charge] using rest
    | included n charge =>
      obtain ⟨s,note,found,member,records,alive,priced⟩ := standing n charge List.mem_cons_self
      obtain ⟨_,found',_,cheap⟩ := inclusions.issued n charge (onChain List.mem_cons_self)
      cases found'.symm.trans found
      obtain ⟨cost,price⟩ := Option.ne_none_iff_exists'.mp priced
      have first : ¬Landed w recent s.key := by
        rintro ⟨m,c,s',landed,at',same⟩
        obtain ⟨_,note',at'',member',records',_⟩ := standing m c (List.mem_cons_of_mem _ landed)
        cases at'.symm.trans at''
        rw [same] at member'
        rw [InsertionMap.unique member' member] at records'
        have number := standing_apart live inclusions at' found
          (onChain (List.mem_cons_of_mem _ landed)) (onChain List.mem_cons_self) same records' records
        subst number
        simp only [List.filterMap_cons,ChainEvent.operation,List.nodup_cons] at once
        exact once.1 (List.mem_filterMap.mpr ⟨_,landed,rfl⟩)
      have before : uncharged w now recent s.key note = s.maxGasCostWei := by
        rw [uncharged,if_pos ⟨by rw [records.validUntil]; exact alive,first⟩,SponsoredNote.cost,
          price,records.cost cost price]
        rfl
      have after : uncharged w now (.included n charge :: recent) s.key note = 0 :=
        if_neg fun free => free.2 ⟨n,charge,s,List.mem_cons_self,found,rfl⟩
      have fewer := InsertionMap.total_erase (f := uncharged w now recent) member after (by
        intro k entry _
        rw [uncharged,uncharged]
        split
        · next free =>
          rw [if_pos ⟨free.1,fun ⟨m,c,s',landed,rest⟩ =>
            free.2 ⟨m,c,s',List.mem_cons_of_mem _ landed,rest⟩⟩]
        · exact Nat.zero_le _)
      rw [before] at fewer
      simp only [List.map_cons,List.sum_cons,ChainEvent.charge]
      omega

/-- What is outstanding is what no event has charged. -/
theorem outstanding_total {now : JsNumber} {wei : Int} (nonneg : NonNegative w.store.notes)
    (known : committedGasCost (w.store.outstanding now) = .known wei) :
    (w.store.notes.total (uncharged w now []) : Int) = wei := by
  obtain ⟨_,sum⟩ := committedGasCost_known known
  rw [sum,MemorySponsorshipStore.outstanding,InsertionMap.total]
  have terms : ∀ e ∈ w.store.notes.entries, 0 ≤ e.2.maxGasCostWei.getD 0 := by
    intro e member
    cases cost : e.2.maxGasCostWei with
    | none => simp
    | some c => exact nonneg e.1 e.2 c member cost
  generalize w.store.notes.entries = entries at terms ⊢
  induction entries with
  | nil => rfl
  | cons e entries ih =>
    rw [List.forall_mem_cons] at terms
    have none : ¬Landed w [] e.1 := by rintro ⟨_,_,_,landed,_⟩; simp at landed
    rw [List.map_cons,List.sum_cons,Nat.cast_add,ih terms.2,List.map_cons,List.filter_cons]
    by_cases alive : now ≤ e.2.validUntil
    · simp only [uncharged,alive,none,not_false_eq_true,and_self,if_true,ge_iff_le,decide_true,
        List.map_cons,List.sum_cons,SponsoredNote.cost,Int.toNat_of_nonneg terms.1]
    · simp only [uncharged,alive,false_and,if_false,ge_iff_le,decide_false,Nat.cast_zero,zero_add,
        Bool.false_eq_true]

/-- A request whose count of the outstanding sponsorships fits the deposit it has read. -/
theorem Covered.approve (live : Live kind g w) (inclusions : Inclusions w)
    (nonneg : NonNegative w.store.notes) {i : Nat} {r : Reservation} (held : g i = some r)
    {recent moment : List ChainEvent} (split : w.chain = recent ++ moment)
    (kept : ∀ n charge, .included n charge ∈ recent → ∃ s note, w.issued[n]? = some s ∧
      (s.key,note) ∈ w.store.notes.entries ∧ note.Records s ∧ r.now ≤ s.validUntil)
    {wei : Int} (known : committedGasCost (w.store.outstanding r.now) = .known wei)
    (enough : wei ≤ depositAfter w.opening moment) :
    Covered (Function.update g i (some { r with approved := True })) w := by
  have past := (live.reservations i r held).past
  have priced : ∀ k note, (k,note) ∈ w.store.notes.entries → r.now ≤ note.validUntil →
      note.maxGasCostWei ≠ none := by
    intro k note member alive
    refine (committedGasCost_known known).1 note (List.mem_filter.mpr ⟨?_,decide_eq_true alive⟩)
    exact List.mem_map.mpr ⟨_,member,rfl⟩
  have standing : ∀ n charge, .included n charge ∈ recent → Standing w r.now n := by
    intro n charge landed
    obtain ⟨s,note,found,member,records,alive⟩ := kept n charge landed
    exact ⟨s,note,found,member,records,alive,priced _ _ member (by rw [records.validUntil]; exact alive)⟩
  refine ⟨fun k note member alive => priced k note member (past.trans alive),?_⟩
  have fewer : w.store.notes.total (owed (Function.update g i (some { r with approved := True })) w) ≤
      w.store.notes.total (uncharged w r.now recent) := by
    refine InsertionMap.total_le fun k note member _ => ⟨note,member,?_⟩
    rw [owed]
    split
    · next owes =>
      have free : ¬Landed w recent k := by
        rintro ⟨n,charge,s,landed,found,rfl⟩
        obtain ⟨_,entry,found',member',records,_⟩ := standing n charge landed
        cases found'.symm.trans found
        have same := InsertionMap.unique member' member
        subst same
        refine owes.signed records.status ⟨n,charge,s,?_,found,rfl,?_⟩
        · rw [split]
          exact List.mem_append_left _ landed
        · rw [← records.validUntil]
          exact owes.alive
      rw [uncharged,if_pos ⟨past.trans owes.alive,free⟩]
    · exact Nat.zero_le _
  have counted := uncharged_le live inclusions split standing
  have whole := outstanding_total nonneg known
  have opening := depositAfter_append w.opening recent moment
  rw [← split] at opening
  change _ ≤ depositAfter w.opening w.chain
  omega

/-! ### What has been promised -/

def World.isIncluded (w : World) (n : Nat) : Bool :=
  w.chain.any fun e => e.operation == some n

/-- The issued operations that have neither landed nor expired, each with its number. -/
def World.promises (w : World) : List (Issued × Nat) :=
  w.issued.zipIdx.filter fun e => w.now ≤ e.1.validUntil && !w.isIncluded e.2

/-- What they can still cost. -/
def World.promised (w : World) : Nat := (w.promises.map fun e => e.1.maxGasCostWei).sum

theorem promised_le (live : Live kind g w) {service : RelayerService}
    (up : w.service = some service) (covered : Covered g w) : (w.promised : Int) ≤ w.deposit := by
  have alive {e : Issued × Nat} (member : e ∈ w.promises) :
      w.issued[e.2]? = some e.1 ∧ w.now ≤ e.1.validUntil ∧ w.isIncluded e.2 = false := by
    obtain ⟨numbered,kept⟩ := List.mem_filter.mp member
    rw [Bool.and_eq_true,decide_eq_true_iff,Bool.not_eq_true'] at kept
    exact ⟨List.mem_zipIdx_iff_getElem?.mp numbered,kept⟩
  have keys : ((w.promises.map fun e => (e.1.key,e)).map Prod.fst).Nodup := by
    rw [List.map_map,List.nodup_iff_pairwise_ne,List.pairwise_map]
    have ordered : w.issued.zipIdx.Pairwise fun a b => a.1.key = b.1.key → a.1.validUntil < b.1.now := by
      have apart := live.apart
      rw [Apart,← List.zipIdx_map_fst 0 w.issued,List.pairwise_map] at apart
      exact apart
    refine (ordered.filter _).imp_of_mem ?_
    intro a b first second early same
    have late := (early same).trans_le (live.past _ (List.mem_of_getElem? (alive second).1))
    exact absurd ((alive first).2.1.trans_lt late) (lt_irrefl _)
  have fewer : ((w.promises.map fun e => (e.1.key,e)).map fun e => e.2.1.maxGasCostWei).sum ≤
      (w.store.notes.entries.map fun e => owed g w e.1 e.2).sum := by
    refine InsertionMap.sum_le_of_keys keys ?_
    intro k e' member _
    obtain ⟨e,promised,same⟩ := List.mem_map.mp member
    obtain ⟨rfl,rfl⟩ := Prod.mk.inj same
    obtain ⟨found,valid,waiting⟩ := alive promised
    obtain ⟨note,standing,records⟩ := live.memory service up e.1 (List.mem_of_getElem? found) valid
    have valid' : w.now ≤ note.validUntil := by
      rw [records.validUntil]
      exact valid
    obtain ⟨cost,priced⟩ := Option.ne_none_iff_exists'.mp (covered.priced _ _ standing valid')
    refine ⟨note,standing,?_⟩
    have unsettled : ¬Settled w e.1.key := by
      rintro ⟨n,charge,s,landed,found',same,alive'⟩
      have number := live.unique found' found same alive' valid
      subst number
      have included : w.isIncluded e.2 = true := List.any_eq_true.mpr ⟨_,landed,by simp [ChainEvent.operation]⟩
      rw [included] at waiting
      contradiction
    rw [owed,if_pos ⟨valid',fun _ => unsettled,fun pending => by rw [records.status] at pending; contradiction⟩,
      SponsoredNote.cost,priced,records.cost cost priced]
    exact le_rfl
  rw [List.map_map] at fewer
  exact le_trans (by exact_mod_cast fewer) covered.total

end TornadoRelayer
