import TornadoRelayer.SetupReads

/-! The transactions a setup sends. It only ever adds to them, and it stakes and deposits for
checked paymasters only. -/
namespace TornadoRelayer.Setup

open BigEndian EventLoop JavaScript

variable {cfg : PaymasterSetupConfig} {account paymaster : Address} {c c' : Chain}
  {script rest : Script Fate} {polls : Nat}

/-! ### What is sent -/

/-- The transactions sent so far, the latest first. -/
def Chain.txs (c : Chain) : List Transaction := c.sent.map Sent.tx

def Chain.funded (c : Chain) : List Transaction := c.txs.filter fun tx => tx.Funds

theorem map_set_same {f : α → β} {xs : List α} {n : Nat} {x y : α} (found : xs[n]? = some y)
    (same : f x = f y) : (xs.set n x).map f = xs.map f := by
  obtain ⟨inside,here⟩ := List.getElem?_eq_some_iff.mp found
  apply List.ext_getElem?
  intro i
  rw [List.getElem?_map,List.getElem?_map,List.getElem?_set]
  split
  · next own => simp [← own,inside,here,same]
  · rfl

theorem mine_txs (n : Nat) (success : Bool) : (c.mine n success).txs = c.txs := by
  unfold Chain.mine
  split
  · next hash contractAddress tx found =>
    have same := map_set_same (f := Sent.tx)
      (x := Chain.Sent.mined ⟨hash,contractAddress,tx,none⟩ success) found rfl
    cases success <;> exact same
  · rfl

theorem perform_txs (fate : Fate) (op : SetupOp) : (c.perform fate op).2.txs = c.txs := by
  cases op with
  | existsSync path => rfl
  | readFileSync path =>
    unfold Chain.perform
    cases c.file <;> cases fate <;> rfl
  | writeFileSync path value => cases fate <;> rfl

/-- Transactions are only added to. -/
theorem play_grows (p : Setup α) : c.txs <:+ (p.play (host account) script c).world.txs := by
  have confined : ∀ {p : Setup α}, p.Confined (fun _ => True) fun _ => True := by
    intro p
    induction p with
    | done r => trivial
    | await query next ih => exact ⟨trivial,ih⟩
    | perform op next ih => exact ⟨trivial,ih⟩
  refine play_keeps (K := fun c' : Chain => c.txs <:+ c'.txs) confined ?_ ?_ (List.suffix_refl _)
  · intro fate query c' _ grown
    change _ <:+ (c'.answer account fate query).2.txs
    have moves : Moves account c' query (c'.answer account fate query).2 := c'.answer_moves fate query
    generalize (c'.answer account fate query).2 = after at moves ⊢
    cases moves with
    | still => exact grown
    | deployed args => exact grown.trans (List.suffix_cons ..)
    | written address call value => exact grown.trans (List.suffix_cons ..)
    | mined hash n success => exact (mine_txs n success).symm ▸ grown
  · intro fate op c' _ grown
    have same : (c'.perform fate op).2.txs = c'.txs := perform_txs fate op
    exact same ▸ grown

theorem play_bind_grows {p : Setup α} {f : α → Setup β} :
    (p.play (host account) script c).world.txs <:+
      ((p >>= f).play (host account) script c).world.txs :=
  play_bind_keeps (K := fun c' : Chain => (p.play (host account) script c).world.txs <:+ c'.txs)
    (List.suffix_refl _) fun a _ _ grown => grown.trans (play_grows (f a))

/-- A query that neither stakes nor deposits. -/
def Unfunding : SetupQuery → Prop
  | .writeContract _ (.addStake _) _ | .writeContract _ .deposit _ => False
  | _ => True

/-- Nothing else is a stake or a deposit. -/
theorem play_unfunding {p : Setup α} (confined : p.Confined Unfunding fun _ => True) :
    (p.play (host account) script c).world.funded = c.funded := by
  have other {c' : Chain} {tx : Transaction} (unfunding : ¬tx.Funds) :
      (c'.accept tx).funded = c'.funded :=
    List.filter_cons_of_neg (by simpa using unfunding)
  refine play_keeps (K := fun c' : Chain => c'.funded = c.funded) confined ?_ ?_ rfl
  · intro fate query c' asked now
    refine Eq.trans ?_ now
    change (c'.answer account fate query).2.funded = c'.funded
    have moves : Moves account c' query (c'.answer account fate query).2 := c'.answer_moves fate query
    generalize (c'.answer account fate query).2 = after at moves ⊢
    cases moves with
    | still => rfl
    | deployed args => exact other id
    | written address call value =>
      cases call with
      | setRouter router => exact other id
      | addStake => exact asked.elim
      | deposit => exact asked.elim
    | mined hash n success => exact congrArg (List.filter fun tx => tx.Funds) (mine_txs n success)
  · intro fate op c' _ now
    have same : (c'.perform fate op).2.txs = c'.txs := perform_txs fate op
    have same : (c'.perform fate op).2.funded = c'.funded := congrArg (List.filter _) same
    exact same.trans now

theorem ensureStandaloneContract_unfunding :
    (ensureStandaloneContract cfg).Confined Unfunding fun _ => True := by
  refine confined_bind ?_ fun state => confined_bind trivial fun named => ?_
  · unfold readState
    cases cfg.statePath with
    | none => trivial
    | some path =>
      refine confined_bind (confined_act trivial) fun found => ?_
      split
      · exact confined_bind (confined_act trivial) fun text => confined_bind trivial fun _ => trivial
      · trivial
  · cases named with
    | some candidate =>
      refine confined_bind (confined_await trivial) fun code => ?_
      split
      · trivial
      · refine confined_bind (confined_await trivial) fun signer => ?_
        split <;> trivial
    | none =>
      simp only
      split
      · refine confined_bind (confined_await trivial) fun hash => ?_
        refine confined_bind (confined_await trivial) fun receipt => ?_
        refine confined_bind trivial fun deployed => confined_bind ?_ fun _ => ?_
        · unfold wireRouter
          cases cfg.daoRouter with
          | none => trivial
          | some router =>
            refine confined_bind (confined_await trivial) fun tx => ?_
            exact confined_bind (confined_await trivial) fun _ => trivial
        · refine confined_bind ?_ fun _ => trivial
          unfold writeState
          cases cfg.statePath with
          | none => trivial
          | some path => exact confined_bind (confined_act trivial) fun _ => trivial
      · trivial

/-! ### Nothing is spent before the check -/

/-- The start came to a contract that passes the check; every read of the check, the reading of
the deposit and the reading of the owner were met. -/
def Vetted (cfg : PaymasterSetupConfig) (c : Chain) (script : Script Fate) : Prop :=
  ∃ paymaster c₁ rest w, (ensureStandaloneContract cfg).play (host cfg.signer) script c =
      ⟨some (.ok paymaster), c₁, rest⟩ ∧ Compatible cfg c₁ paymaster w ∧
    ∀ n < checkReads cfg + 2, rest n = some .fine

theorem unfunded_reads {p : Setup α} (reads : p.Confined Reads fun _ => False) :
    (p.play (host account) script c).world.funded = c.funded := by
  rw [play_reads reads]

theorem funded_vetted
    (moved : ((ensurePaymasterSetup polls cfg).play (host cfg.signer) script c).world.funded ≠
      c.funded) : Vetted cfg c script := by
  unfold ensurePaymasterSetup at moved
  cases mode : cfg.mode with
  | eip7702 =>
    rw [mode] at moved
    exact absurd rfl moved
  | standalone =>
    rw [mode] at moved
    obtain ⟨paymaster,c₁,rest,found,moved⟩ :=
      play_bind_moved (play_unfunding ensureStandaloneContract_unfunding) moved
    obtain ⟨u,c₂,rest₂,checked,moved⟩ :=
      play_bind_moved (unfunded_reads assertPaymasterCompatible_reads) moved
    obtain ⟨w,fits,same,shifted,fine⟩ := compatible_ok checked
    subst same shifted
    obtain ⟨info,c₃,rest₃,read,moved⟩ :=
      play_bind_moved (by exact unfunded_reads (confined_await trivial)) moved
    have infoRead : Answers c₂ (.getDepositInfo cfg.entryPoint paymaster)
        (.ok (c₂.info cfg.entryPoint paymaster)) := ⟨fun _ _ => rfl⟩
    obtain ⟨infoFine,_,same,shifted⟩ := infoRead.ok read
    subst same shifted
    obtain ⟨owner,c₄,rest₄,read,moved⟩ :=
      play_bind_moved (by exact unfunded_reads (confined_await trivial)) moved
    have ownerRead : Answers c₃ (.readAddress paymaster .owner) (c₃.getter paymaster .owner) :=
      ⟨fun _ _ => rfl⟩
    obtain ⟨ownerFine,_⟩ := ownerRead.ok read
    refine ⟨paymaster,_,rest,w,found,fits,?_⟩
    intro n small
    by_cases early : n < checkReads cfg
    · exact fine n early
    · rcases (show n = checkReads cfg ∨ n = checkReads cfg + 1 by omega) with rfl | rfl
      · exact infoFine
      · exact ownerFine

end TornadoRelayer.Setup
