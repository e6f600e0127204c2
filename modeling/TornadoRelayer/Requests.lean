import TornadoRelayer.Budget

/-! Every request keeps the invariants, whatever the others do while it waits: it relies on
its own reservation being left alone, on the clock and the chain only growing, and on the
service staying the same until it stops. -/
namespace TornadoRelayer

open BigEndian EventLoop JavaScript RelayerService

/-! ### What a request relies on -/

/-- Time passes, signatures are returned, and only valid operations land. -/
structure Grown (s s' : World) : Prop where
  clock : s.clock ≤ s'.clock
  service : s'.service = s.service
  opening : s'.opening = s.opening
  issued : s.issued <+: s'.issued
  chain : ∃ new, s'.chain = new ++ s.chain ∧ ∀ n charge, .included n charge ∈ new →
    ∃ o, s'.issued[n]? = some o ∧ s.now ≤ o.validUntil

/-- What the surroundings do meanwhile. -/
structure Passed (s s' : World) : Prop extends Grown s s' where
  store : s'.store = s.store
  disk : s'.disk = s.disk
  same : s'.issued = s.issued

theorem Grown.later {s s' : World} (grown : Grown s s') : s.now ≤ s'.now :=
  World.now_mono grown.clock

/-- A step on the store or the disk. -/
theorem Grown.within (s : World) (store : MemorySponsorshipStore) (disk : Disk) :
    Grown s { s with store, disk } :=
  ⟨le_rfl,rfl,rfl,List.prefix_refl _,[],rfl,by simp⟩

theorem Grown.trans {s s' s'' : World} (first : Grown s s') (second : Grown s' s'') : Grown s s'' := by
  obtain ⟨new,split,valid⟩ := first.chain
  obtain ⟨new',split',valid'⟩ := second.chain
  refine ⟨first.clock.trans second.clock,second.service.trans first.service,
    second.opening.trans first.opening,first.issued.trans second.issued,new' ++ new,?_,?_⟩
  · rw [split',split,List.append_assoc]
  · intro n charge landed
    rcases List.mem_append.mp landed with late | early
    · obtain ⟨o,found,alive⟩ := valid' n charge late
      exact ⟨o,found,first.later.trans alive⟩
    · obtain ⟨o,found,alive⟩ := valid n charge early
      obtain ⟨more,rest⟩ := second.issued
      refine ⟨o,?_,alive⟩
      rw [← rest,List.getElem?_append_left (List.getElem?_eq_some_iff.mp found).1]
      exact found

theorem Passed.refl (s : World) : Passed s s := ⟨Grown.within s s.store s.disk,rfl,rfl,rfl⟩

theorem Passed.trans {s s' s'' : World} (first : Passed s s') (second : Passed s' s'') :
    Passed s s'' :=
  ⟨first.toGrown.trans second.toGrown,second.store.trans first.store,second.disk.trans first.disk,
    second.same.trans first.same⟩

/-! ### The invariant -/

structure Invariant (kind : StoreKind) (budgeted : Prop) (g : Reservations) (w : World) : Prop where
  live : Live kind g w
  inclusions : Inclusions w
  budget : budgeted → Budgeted kind g w

/-- What `sign` has established when it returns a signature. -/
def Returned (kind : StoreKind) (i : Nat) (r : Except Thrown Reply) (g : Reservations) (w : World) :
    Prop :=
  ∀ s, r = .ok (.signed s) → ∃ service r, w.service = some service ∧ g i = some r ∧ r.approved ∧
    Issuable kind r s w

def logic (kind : StoreKind) (budgeted : Prop) :
    Logic serviceInterface Reservations Reply World where
  inv := Invariant kind budgeted
  rely i g s g' s' := g' i = g i ∧ Grown s s'
  tick := Passed
  post := Returned kind

variable {platform : Platform} {kind : StoreKind} {budgeted : Prop} {g : Reservations} {w : World}

theorem Invariant.env (inv : Invariant kind budgeted g w) {e : Surroundings}
    (may : (permits platform kind budgeted).env w e) :
    Invariant kind budgeted g (w.pass e) ∧ Passed w (w.pass e) := by
  cases e with
  | tick ms =>
    refine ⟨⟨inv.live.tick ms,⟨inv.inclusions.once,inv.inclusions.issued⟩,fun b => ?_⟩,
      ⟨⟨Nat.le_add_right _ _,rfl,rfl,List.prefix_refl _,[],rfl,by simp⟩,rfl,rfl,rfl⟩⟩
    have budget := inv.budget b
    exact ⟨budget.memory,budget.saved,budget.reserve,fun service up some =>
      (budget.covered service up some).tick inv.live up ms⟩
  | topUp amount =>
    refine ⟨⟨inv.live.withChain _,⟨?_,?_⟩,fun b => ?_⟩,
      ⟨⟨le_rfl,rfl,rfl,List.prefix_refl _,[.topUp amount],rfl,by simp⟩,rfl,rfl,rfl⟩⟩
    · exact inv.inclusions.once
    · intro n charge landed
      simp only [World.pass,List.mem_cons,reduceCtorEq,false_or] at landed
      exact inv.inclusions.issued n charge landed
    · have budget := inv.budget b
      exact ⟨budget.memory,budget.saved,budget.reserve,fun service up some =>
        (budget.covered service up some).topUp amount⟩
  | inclusion n charge =>
    have may : w.MayInclude n charge := may
    obtain ⟨new,o,found,alive,cheap⟩ := may
    refine ⟨⟨inv.live.withChain _,⟨?_,?_⟩,fun b => ?_⟩,
      ⟨⟨le_rfl,rfl,rfl,List.prefix_refl _,[.included n charge],rfl,?_⟩,rfl,rfl,rfl⟩⟩
    · simp only [World.pass,List.filterMap_cons,ChainEvent.operation,List.nodup_cons]
      refine ⟨?_,inv.inclusions.once⟩
      intro before
      obtain ⟨e,landed,same⟩ := List.mem_filterMap.mp before
      cases e with
      | topUp => contradiction
      | included m c =>
        cases same
        exact new c landed
    · intro m c landed
      rcases List.mem_cons.mp landed with now | before
      · cases now
        exact ⟨o,found,(inv.live.past o (List.mem_of_getElem? found)).trans alive,cheap⟩
      · exact inv.inclusions.issued m c before
    · have budget := inv.budget b
      exact ⟨budget.memory,budget.saved,budget.reserve,fun service up some =>
        (budget.covered service up some).inclusion inv.live up ⟨new,o,found,alive,cheap⟩⟩
    · intro m c landed
      rw [List.mem_singleton] at landed
      cases landed
      exact ⟨o,found,alive⟩

/-! ### Operations -/

/-- A step on the entries that leaves the rest. -/
theorem Invariant.withNotes (inv : Invariant kind budgeted g w) {notes : Notes}
    (live : Live kind g { w with store := { w.store with notes } })
    (old : ∀ k note, (k,note) ∈ notes.entries → (k,note) ∈ w.store.notes.entries) :
    Invariant kind budgeted g { w with store := { w.store with notes } } := by
  refine ⟨live,⟨inv.inclusions.once,inv.inclusions.issued⟩,fun b => ?_⟩
  have budget := inv.budget b
  exact ⟨fun k note cost member => budget.memory k note cost (old k note member),budget.saved,
    budget.reserve,fun service up some => (budget.covered service up some).withNotes old⟩

theorem Invariant.prune (inv : Invariant kind budgeted g w) {now : JsNumber} (past : now ≤ w.now) :
    Invariant kind budgeted g { w with store := w.store.prune now } :=
  inv.withNotes (inv.live.prune past) fun _ _ member => (InsertionMap.mem_filter.mp member).1

theorem Invariant.release (inv : Invariant kind budgeted g w) (k token : String) :
    Invariant kind budgeted g { w with store := w.store.release k token } := by
  have live := inv.live.release k token
  rw [release_notes] at live ⊢
  exact inv.withNotes live fun _ _ => mem_release.1

theorem Invariant.reserve (inv : Invariant kind budgeted g w) (i : Nat) {now : JsNumber} {k : String}
    {claim : NoteClaim} {cost : Nat} (past : now ≤ w.now)
    (recorded : Recorded w.store.notes now w.issued) (free : w.store.notes.get k = none)
    (priced : claim.maxGasCostWei = some (cost : Int)) (token : String)
    (minted : token = sponsorshipToken w.clock (w.store.seq + 1)) :
    Invariant kind budgeted (Function.update g i (some ⟨k,token,claim.validUntil,now,cost,False⟩))
      { w with store := ⟨w.store.notes.set k { claim with status := .pending, token := .string token },
          w.store.seq + 1⟩ } := by
  refine ⟨inv.live.reserve i past recorded free priced token minted,
    ⟨inv.inclusions.once,inv.inclusions.issued⟩,fun b => ?_⟩
  have budget := inv.budget b
  refine ⟨?_,budget.saved,budget.reserve,?_⟩
  · intro key note price member priced'
    rcases InsertionMap.mem_set.mp member with ⟨_,rfl⟩ | ⟨_,old⟩
    · cases priced.symm.trans priced'
      exact Int.natCast_nonneg _
    · exact budget.memory key note price old priced'
  · rintro service up ⟨j,r,held,approved⟩
    rcases update_eq_some.mp held with ⟨_,⟨⟩⟩ | ⟨_,held⟩
    · exact approved.elim
    · exact (budget.covered service up ⟨j,r,held,approved⟩).reserve inv.live i not_false
        (by rw [priced]; simp) token minted

theorem Invariant.set (inv : Invariant kind budgeted g w) {i : Nat} {r : Reservation}
    (held : g i = some r) (approved : r.approved) {note : SponsoredNote}
    (own : r.Has w.store.notes note) :
    Invariant kind budgeted g
      { w with store := w.store.set r.key { note with status := .signed } } := by
  refine ⟨inv.live.set held own,⟨inv.inclusions.once,inv.inclusions.issued⟩,fun b => ?_⟩
  have budget := inv.budget b
  refine ⟨?_,budget.saved,budget.reserve,fun service up some =>
    (budget.covered service up some).set held approved own⟩
  intro k entry cost member priced
  rcases InsertionMap.mem_set.mp member with ⟨_,rfl⟩ | ⟨_,old⟩
  · exact budget.memory r.key note cost own.1 priced
  · exact budget.memory k entry cost old priced

theorem Invariant.withTmp (inv : Invariant kind budgeted g w) (tmp : Option FileContent) :
    Invariant kind budgeted g { w with disk := { w.disk with tmp } } := by
  refine ⟨inv.live.withTmp tmp,⟨inv.inclusions.once,inv.inclusions.issued⟩,fun b => ?_⟩
  have budget := inv.budget b
  exact ⟨budget.memory,budget.saved,budget.reserve,fun service up some =>
    (budget.covered service up some).withDisk _⟩

theorem NonNegative.loaded {path : String} {now : JsNumber} {entries notes : Notes}
    (nonneg : NonNegative entries)
    (loaded : load path now (some (.json (storedNotes entries))) = .ok notes) :
    NonNegative notes := by
  intro k note cost member priced
  obtain ⟨v,found,_,rfl⟩ := (mem_load_storedNotes loaded).mp member
  exact nonneg k v cost found priced

theorem Invariant.withFile (inv : Invariant kind budgeted g w) {entries : Notes}
    (recorded : Recorded entries w.now w.issued) (nonneg : budgeted → NonNegative entries)
    (tmp : Option FileContent) :
    Invariant kind budgeted g { w with disk := ⟨some (.json (storedNotes entries)),tmp⟩ } := by
  refine ⟨inv.live.withFile recorded tmp,⟨inv.inclusions.once,inv.inclusions.issued⟩,fun b => ?_⟩
  have budget := inv.budget b
  exact ⟨budget.memory,fun _ _ _ _ loaded => (nonneg b).loaded loaded,budget.reserve,
    fun service up some => (budget.covered service up some).withDisk _⟩

/-- The reading a request holds: what has landed since is still in the store. -/
def Read (budgeted : Prop) (r : Reservation) (deposit : Int) (w : World) : Prop :=
  ∃ recent moment, w.chain = recent ++ moment ∧ deposit = depositAfter w.opening moment ∧
    (budgeted → ∀ n charge, .included n charge ∈ recent → ∃ s note, w.issued[n]? = some s ∧
      (s.key,note) ∈ w.store.notes.entries ∧ note.Records s ∧ r.now ≤ s.validUntil)

theorem Invariant.approve (inv : Invariant kind budgeted g w) {i : Nat} {r : Reservation}
    (held : g i = some r) {deposit : Int} (read : Read budgeted r deposit w) {wei : Int}
    (known : committedGasCost (w.store.outstanding r.now) = .known wei)
    (enough : budgeted → wei ≤ deposit) :
    Invariant kind budgeted (Function.update g i (some { r with approved := True })) w := by
  refine ⟨inv.live.approve held,inv.inclusions,fun b => ?_⟩
  have budget := inv.budget b
  obtain ⟨recent,moment,split,rfl,kept⟩ := read
  exact ⟨budget.memory,budget.saved,budget.reserve,fun _ _ _ =>
    Covered.approve inv.live inv.inclusions budget.memory held split (kept b) known (enough b)⟩

theorem Invariant.issue (inv : Invariant kind budgeted g w) {i : Nat} {r : Reservation}
    (held : g i = some r) {s : Issued} (issuable : Issuable kind r s w) :
    Invariant kind budgeted (Function.update g i none) { w with issued := w.issued ++ [s] } := by
  refine ⟨inv.live.issue held issuable,⟨inv.inclusions.once,?_⟩,fun b => ?_⟩
  · intro n charge landed
    obtain ⟨o,found,rest⟩ := inv.inclusions.issued n charge landed
    refine ⟨o,?_,rest⟩
    rw [← found]
    exact List.getElem?_append_left (List.getElem?_eq_some_iff.mp found).1
  · have budget := inv.budget b
    refine ⟨budget.memory,budget.saved,budget.reserve,?_⟩
    rintro service up ⟨j,r',held',approved⟩
    rcases update_eq_some.mp held' with ⟨_,⟨⟩⟩ | ⟨_,held'⟩
    exact (budget.covered service up ⟨j,r',held',approved⟩).issue i s

theorem Invariant.restart (inv : Invariant kind budgeted g w) {r : Restart}
    (may : (permits platform kind budgeted).reset w r) :
    Invariant kind budgeted (fun _ => none) (w.restart r) := by
  cases r with
  | crash =>
    refine ⟨inv.live.crash,⟨inv.inclusions.once,inv.inclusions.issued⟩,fun b => ?_⟩
    have budget := inv.budget b
    exact ⟨fun _ _ _ member => absurd member List.not_mem_nil,budget.saved,by simp [World.restart],
      by simp⟩
  | boot service writeFault renameFault =>
    obtain ⟨_,same,expired,reserve⟩ := may
    have live := inv.live.boot writeFault renameFault same expired
    have funded (b : budgeted) : ∀ service', some service = some service' →
        0 ≤ service'.config.minDepositWei.getD 0 := by
      rintro service' up
      rw [← Option.some.inj up]
      exact reserve b
    cases kind with
    | memory =>
      rw [World.restart,same] at live ⊢
      exact ⟨live,⟨inv.inclusions.once,inv.inclusions.issued⟩,fun b =>
        ⟨fun _ _ _ member => absurd member List.not_mem_nil,by simp,funded b,by simp⟩⟩
    | file path =>
      rw [World.restart,same] at live ⊢
      simp only at live ⊢
      split at live
      · next disk store opened =>
        rcases FileSponsorshipStore.new_cases opened with ⟨_,_,failed⟩ | ⟨notes,loaded,restored,rfl⟩
        · contradiction
        · cases restored
          refine ⟨live,⟨inv.inclusions.once,inv.inclusions.issued⟩,fun b => ?_⟩
          have nonneg := (inv.budget b).saved path rfl w.now notes loaded
          have signed : NonNegative (MemorySponsorshipStore.signedEntries ⟨notes,0⟩) :=
            fun k note cost member => nonneg k note cost (InsertionMap.mem_filter.mp member).1
          exact ⟨nonneg,fun _ _ _ _ loaded' => signed.loaded loaded',funded b,by simp⟩
      · next disk e opened =>
        rcases FileSponsorshipStore.new_cases opened with ⟨unchanged,_⟩ | ⟨_,_,restored,_⟩
        · refine ⟨live,⟨inv.inclusions.once,inv.inclusions.issued⟩,fun b => ?_⟩
          have budget := inv.budget b
          refine ⟨budget.memory,?_,budget.reserve,by simp⟩
          intro path' same' now notes loaded
          rw [show World.disk _ = disk from rfl,unchanged] at loaded
          exact budget.saved path' same' now notes loaded
        · contradiction

end TornadoRelayer
