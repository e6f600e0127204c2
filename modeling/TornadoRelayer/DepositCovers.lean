import TornadoRelayer.OneSponsorship

/-! The deposit covers every promise at the moment a signature is issued, in every run whose
deposit readings are settled; and a run where a stale reading lets it fall short. -/
namespace TornadoRelayer

open EventLoop JavaScript RelayerService

/-- What must hold when a signature is issued: the deposit covers everything promised, and
no live entry is of unknown cost. -/
structure World.Funded (w : World) : Prop where
  promises : (w.promised : Int) ≤ w.deposit
  priced : ∀ k note, (k,note) ∈ w.store.notes.entries → w.now ≤ note.validUntil →
    note.maxGasCostWei ≠ none

variable {platform : Platform} {kind : StoreKind} {start : World} {c : RelayerConfiguration}

/-- A request that returns a signature has been approved, and what it is approved for is
still covered. -/
theorem Invariant.funded {g : Reservations} {w : World} (inv : Invariant kind True g w) {i : Nat}
    {s : Issued} (returned : Returned kind i (.ok (.signed s)) g w) :
    (w.finish (.ok (.signed s))).Funded := by
  obtain ⟨service,r,up,held,approved,issuable⟩ := returned s rfl
  have covered := (inv.budget trivial).covered service up ⟨i,r,held,approved⟩
  have after : Covered (Function.update g i none) (w.finish (.ok (.signed s))) := covered.issue i s
  have live : Live kind (Function.update g i none) (w.finish (.ok (.signed s))) :=
    inv.live.issue held issuable
  exact ⟨promised_le live up after,after.priced⟩

/-- Whenever a signature is issued, the deposit covers everything promised with it: in every
run of processes without a negative reserve, where the store still holds, at each answered
reading of the deposit, every operation that has landed since the moment it reports. -/
theorem funded_when_issued (begins : Start kind True start)
    (reach : Reachable relayer (permits platform kind True) (Config.initial start) c) {i : Nat}
    {s : Issued} (returning : c.current = some (i,.done (.ok (.signed s)))) :
    (c.world.finish (.ok (.signed s))).Funded := by
  obtain ⟨g,holds⟩ := begins.holds reach
  exact holds.inv.funded (holds.returned returning)

/-- With no file there is no entry to be of negative cost. -/
theorem World.first_funded_start (clock : Nat) (opening : Int) :
    Start kind True (World.first clock ⟨none,none⟩ opening) := by
  refine { World.first_start clock ⟨none,none⟩ opening with priced := ?_ }
  rintro _ _ _ _ notes loaded
  cases loaded
  rintro _ _ _ ⟨⟩

/-- The request that returns a signature now, if one does. -/
def returning (c : RelayerConfiguration) : Option (Nat × Issued) :=
  match c.current with
  | some (i,.done (.ok (.signed s))) => some (i,s)
  | _ => none

theorem returning_eq_some {i : Nat} {s : Issued} (returned : returning c = some (i,s)) :
    c.current = some (i,.done (.ok (.signed s))) := by
  rw [returning] at returned
  split at returned
  · next running =>
    cases returned
    exact running
  · contradiction

/-- Two notes are signed for. The first operation lands between the second reading of the deposit
and the second signature. -/
def landsAfterReading : List Move :=
  [.boot (sampleService (.file "sponsorships.json") [SIMPLE_7702_ACCOUNT])] ++
    askDeposit (sampleOp 1 SIMPLE_7702_ACCOUNT) ++ passChecks 0 (2 * 10 ^ 15) ++
    List.replicate 6 .advance ++ askDeposit (sampleOp 2 SIMPLE_7702_ACCOUNT) ++
    (passChecks 1 (2 * 10 ^ 15)).take 1 ++ [.pass (.inclusion 0 (10 ^ 15))] ++
    (passChecks 1 (2 * 10 ^ 15)).drop 1 ++ List.replicate 5 .advance

theorem funded_when_issued_landed : ∃ (c : RelayerConfiguration) (s : Issued),
    c.world.issued.length = 1 ∧ s.nullifierHash = 2 ∧ c.world.deposit = 10 ^ 15 ∧
    (c.world.finish (.ok (.signed s))).Funded := by
  have played : ((play (samplePlatform [1,2]) (.file "sponsorships.json") True landsAfterReading
      (Config.initial (World.first 1000000000 ⟨none,none⟩ (2 * 10 ^ 15)))).bind fun c =>
        (returning c).map fun e => (c.world.issued.length,e.2.nullifierHash,c.world.deposit)) =
      some (1,2,10 ^ 15) := by decide +kernel
  obtain ⟨c,reached,both⟩ := Option.bind_eq_some_iff.mp played
  obtain ⟨⟨i,s⟩,returned,shape⟩ := Option.map_eq_some_iff.mp both
  obtain ⟨one,rest⟩ := Prod.mk.inj shape
  obtain ⟨two,left⟩ := Prod.mk.inj rest
  exact ⟨c,s,one,two,left,funded_when_issued (World.first_funded_start _ _)
    (play_reachable .start reached) (returning_eq_some returned)⟩

/-- The second request reads the deposit before the first operation lands, and counts what
is outstanding when that operation has expired and been pruned. -/
def staleReading : List Move :=
  [.boot (sampleService (.file "sponsorships.json") [SIMPLE_7702_ACCOUNT])] ++
    askDeposit (sampleOp 1 SIMPLE_7702_ACCOUNT) ++ passChecks 0 (10 ^ 15) ++
    List.replicate 6 .advance ++ [.pass (.tick 100000)] ++
    askDeposit (sampleOp 2 SIMPLE_7702_ACCOUNT) ++
    [.pass (.inclusion 0 (10 ^ 15)),.pass (.tick 201000),.status] ++ List.replicate 3 .advance ++
    passChecks 1 (10 ^ 15) ++ List.replicate 5 .advance

/-- Without settled readings a signature is issued that the deposit cannot pay for: the
deposit is empty and a million gas at one gwei is promised. -/
theorem stale_reading_unfunded :
    ¬∀ (platform : Platform) (kind : StoreKind) (start : World) (c : RelayerConfiguration) (i : Nat)
      (s : Issued), Start kind False start →
      Reachable relayer (permits platform kind False) (Config.initial start) c →
      c.current = some (i,.done (.ok (.signed s))) → (c.world.finish (.ok (.signed s))).Funded := by
  intro claim
  have played : ((play (samplePlatform [1,2]) (.file "sponsorships.json") False staleReading
      (Config.initial (World.first 1000000000 ⟨none,none⟩ (10 ^ 15)))).bind fun c =>
        (returning c).map fun e => (c.world.deposit,(c.world.finish (.ok (.signed e.2))).promised)) =
      some (0,10 ^ 15) := by
    decide +kernel
  obtain ⟨c,reached,both⟩ := Option.bind_eq_some_iff.mp played
  obtain ⟨⟨i,s⟩,returned,shape⟩ := Option.map_eq_some_iff.mp both
  obtain ⟨empty,promised⟩ := Prod.mk.inj shape
  have funded := claim _ _ _ c i s (World.first_start _ _ _) (play_reachable .start reached)
    (returning_eq_some returned)
  have short : ((c.world.finish (.ok (.signed s))).promised : Int) ≤ c.world.deposit :=
    funded.promises
  rw [promised,empty] at short
  omega

end TornadoRelayer
