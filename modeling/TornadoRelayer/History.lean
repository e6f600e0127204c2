import TornadoRelayer.Transaction

/-! Transient storage is what the history says: replaying its entries gives every
slot. Slots are hashes, so a counter is read off its own entries as long as the
strings hashed so far do not collide. -/
namespace TornadoRelayer.Paymaster

open BigEndian Keccak

abbrev Key := Address × Bytes32

def Key.string (key : Key) : Bytes :=
  abiEncode [SPONSORSHIP_SLOT_SEED.toNat, key.1.toNat, key.2.toNat]

def Key.slot (key : Key) : Bytes32 := sponsorshipSlot key.1 key.2

def withdrawalKey (w : Withdrawal) : Key := (w.recipient,withdrawalHash w)

def Context.key (ctx : Context) : Key := (ctx.sender,ctx.terms.withdrawalHash)

abbrev Storage := Bytes32 → Word 32

def Storage.set (t : Storage) (slot : Bytes32) (value : Word 32) : Storage :=
  fun k => if k = slot then value else t k

@[simp] theorem Storage.set_self (t : Storage) (slot : Bytes32) (value : Word 32) :
    t.set slot value slot = value := if_pos rfl

theorem Storage.set_other (t : Storage) {slot k : Bytes32} (value : Word 32) (ne : k ≠ slot) :
    t.set slot value k = t k := if_neg ne

/-- What an entry did to transient storage. -/
def Entry.apply (t : Storage) : Entry → Storage
  | .validated ctx => t.set ctx.key.slot (t ctx.key.slot + 1)
  | .dryRun sender withdrawal =>
    let key : Key := (sender,withdrawal)
    t.set key.slot (t key.slot + 1)
  | .begun _ w => t.set (withdrawalKey w).slot (t (withdrawalKey w).slot - 1)
  | .recorded asset sender amount =>
    let slot := receivedSlot asset.seed sender
    t.set slot (t slot + BitVec.ofNat 256 amount)
  | .took sender _ _ =>
    (t.set (receivedSlot RECEIVED_ETH_SLOT_SEED sender) 0).set
      (receivedSlot RECEIVED_TOKEN_SLOT_SEED sender) 0
  | _ => t

def replay : List Entry → Storage
  | [] => fun _ => 0
  | e :: h => e.apply (replay h)

/-- A relay consumed an open sponsorship; a settlement took what the slots held. -/
def Consistent : List Entry → Prop
  | [] => True
  | .begun _ w :: h => replay h (withdrawalKey w).slot ≠ 0 ∧ Consistent h
  | .took sender eth token :: h =>
    eth = replay h (receivedSlot RECEIVED_ETH_SLOT_SEED sender) ∧
    token = (replay h).set (receivedSlot RECEIVED_ETH_SLOT_SEED sender) 0
      (receivedSlot RECEIVED_TOKEN_SLOT_SEED sender) ∧ Consistent h
  | _ :: h => Consistent h

/-! ### The hashed strings -/

def receivedString (seed : Bytes32) (sender : Address) : Bytes :=
  abiEncode [seed.toNat, sender.toNat]

def seedStrings : List Bytes :=
  [ascii "tornado-4337-relayer.received.eth", ascii "tornado-4337-relayer.received.token"]

def Entry.strings : Entry → List Bytes
  | .validated ctx => [ctx.key.string]
  | .dryRun sender withdrawal => [Key.string (sender,withdrawal)]
  | .begun _ w => [(withdrawalKey w).string]
  | .recorded asset sender _ => [receivedString asset.seed sender]
  | .took sender _ _ =>
    [receivedString RECEIVED_ETH_SLOT_SEED sender, receivedString RECEIVED_TOKEN_SLOT_SEED sender]
  | _ => []

/-- The strings hashed into the slots that the history touched. -/
def slotStrings (h : List Entry) : List Bytes := seedStrings ++ h.flatMap Entry.strings

theorem keyString_injective {a b : Key} (same : a.string = b.string) : a = b := by
  have fits (k : Key) : ∀ v ∈ [SPONSORSHIP_SLOT_SEED.toNat, k.1.toNat, k.2.toNat], v < 256 ^ 32 := by
    simp only [List.forall_mem_cons]
    exact ⟨Word.fits _ (by decide),Word.fits k.1 (by decide),Word.fits k.2 (by decide),by simp⟩
  have words := abiEncode_injective (fits a) (fits b) rfl same
  simp only [List.cons.injEq,BitVec.toNat_inj,and_true] at words
  exact Prod.ext words.2.1 words.2.2

theorem receivedString_injective {s t : Bytes32} {a b : Address}
    (same : receivedString s a = receivedString t b) : s = t ∧ a = b := by
  have fits (s : Bytes32) (a : Address) : ∀ v ∈ [s.toNat, a.toNat], v < 256 ^ 32 := by
    simp only [List.forall_mem_cons]
    exact ⟨Word.fits s (by decide),Word.fits a (by decide),by simp⟩
  have words := abiEncode_injective (fits s a) (fits t b) rfl same
  simp only [List.cons.injEq,BitVec.toNat_inj,and_true] at words
  exact words

theorem keyString_ne_receivedString (key : Key) (seed : Bytes32) (sender : Address) :
    key.string ≠ receivedString seed sender := by
  intro same
  have lengths := congrArg List.length same
  rw [Key.string,receivedString,abiEncode_length,abiEncode_length] at lengths
  simp at lengths

/-! ### The sponsorship counter -/

def validatedKeys (h : List Entry) : List Key :=
  h.filterMap fun
    | .validated ctx => some (Context.key ctx)
    | _ => none

def dryKeys (h : List Entry) : List Key :=
  h.filterMap fun
    | .dryRun sender withdrawal => some (sender,withdrawal)
    | _ => none

def begunKeys (h : List Entry) : List Key :=
  h.filterMap fun
    | .begun _ w => some (withdrawalKey w)
    | _ => none

def calledKeys (h : List Entry) : List Key :=
  h.filterMap fun
    | .called _ w => some (withdrawalKey w)
    | _ => none

def grantCount (h : List Entry) : Nat := (validatedKeys h).length + (dryKeys h).length

/-- Distinct keys have distinct slots. -/
def Separate (a b : Key) : Prop := a.slot = b.slot → a = b

theorem separate {strings : List Bytes} (free : CollisionFree strings) {a b : Key}
    (ha : a.string ∈ strings) (hb : b.string ∈ strings) : Separate a b :=
  fun same => keyString_injective (free _ ha _ hb same)

theorem slot_ne_received {strings : List Bytes} (free : CollisionFree strings) {key : Key}
    {seed : Bytes32} {sender : Address} (ha : key.string ∈ strings)
    (hb : receivedString seed sender ∈ strings) : key.slot ≠ receivedSlot seed sender :=
  fun same => keyString_ne_receivedString key seed sender (free _ ha _ hb same)

theorem grant_count {key g : Key} (apart : Separate key g) (t : Storage)
    (room : (t key.slot).toNat + 1 < 2 ^ 256) :
    (t.set g.slot (t g.slot + 1) key.slot).toNat =
      (t key.slot).toNat + if g == key then 1 else 0 := by
  by_cases same : g = key
  · subst same
    rw [Storage.set_self,BitVec.toNat_add]
    simp only [beq_self_eq_true,if_true]
    exact Nat.mod_eq_of_lt room
  · rw [Storage.set_other _ _ (fun hit => same (apart hit).symm)]
    simp [same]

theorem consume_count {key g : Key} (apart : Separate key g) (t : Storage)
    (granted : t g.slot ≠ 0) :
    (t.set g.slot (t g.slot - 1) key.slot).toNat + (if g == key then 1 else 0) =
      (t key.slot).toNat := by
  by_cases same : g = key
  · subst same
    have positive : 1 ≤ (t g.slot).toNat := by
      rw [Nat.one_le_iff_ne_zero]
      exact fun zero => granted (BitVec.eq_of_toNat_eq zero)
    have one : (1 : Word 32) ≤ t g.slot := BitVec.le_def.mpr positive
    rw [Storage.set_self,BitVec.toNat_sub_of_le one]
    simp only [beq_self_eq_true,if_true]
    exact Nat.sub_add_cancel positive
  · rw [Storage.set_other _ _ (fun hit => same (apart hit).symm)]
    simp [same]

theorem strings_cons {e : Entry} {h : List Entry} {string : Bytes} :
    string ∈ slotStrings (e :: h) ↔ string ∈ e.strings ∨ string ∈ slotStrings h := by
  simp only [slotStrings,List.flatMap_cons,List.mem_append]
  tauto

/-- The counter of a key: what was granted less what was begun, without wrapping. -/
theorem allowance_replay {h : List Entry} {key : Key}
    (free : CollisionFree (key.string :: slotStrings h)) (consistent : Consistent h)
    (few : grantCount h < 2 ^ 256) :
    (replay h key.slot).toNat + (begunKeys h).count key =
      (validatedKeys h).count key + (dryKeys h).count key := by
  induction h with
  | nil => rfl
  | cons e h ih =>
    have earlier : CollisionFree (key.string :: slotStrings h) := by
      apply free.subset
      intro string member
      rcases List.mem_cons.mp member with rfl | old
      · exact List.mem_cons_self
      · exact List.mem_cons_of_mem _ (strings_cons.mpr (.inr old))
    have own : key.string ∈ key.string :: slotStrings (e :: h) := List.mem_cons_self
    have touched {string : Bytes} (member : string ∈ e.strings) :
        string ∈ key.string :: slotStrings (e :: h) :=
      List.mem_cons_of_mem _ (strings_cons.mpr (.inl member))
    have counted : (validatedKeys h).count key + (dryKeys h).count key ≤ grantCount h :=
      Nat.add_le_add List.count_le_length List.count_le_length
    cases e with
    | validated ctx =>
      have more : grantCount (.validated ctx :: h) = grantCount h + 1 := Nat.add_right_comm ..
      have before := ih earlier consistent (by omega)
      have granted := grant_count (separate free own (touched (List.mem_singleton_self _)))
        (replay h) (g := ctx.key) (by omega)
      have keys : (validatedKeys (.validated ctx :: h)).count key =
          (validatedKeys h).count key + if ctx.key == key then 1 else 0 := List.count_cons
      rw [keys]
      change ((replay h).set ctx.key.slot _ _).toNat + (begunKeys h).count key =
        _ + (dryKeys h).count key
      omega
    | dryRun sender withdrawal =>
      have more : grantCount (.dryRun sender withdrawal :: h) = grantCount h + 1 := rfl
      have before := ih earlier consistent (by omega)
      have granted := grant_count (separate free own (touched (List.mem_singleton_self _)))
        (replay h) (g := (sender,withdrawal)) (by omega)
      have keys : (dryKeys (.dryRun sender withdrawal :: h)).count key =
          (dryKeys h).count key + if (sender,withdrawal) == key then 1 else 0 := List.count_cons
      rw [keys]
      change ((replay h).set (Key.slot (sender,withdrawal)) _ _).toNat + (begunKeys h).count key =
        (validatedKeys h).count key + _
      omega
    | begun msgSender w =>
      have before := ih earlier consistent.2 few
      have consumed := consume_count (separate free own (touched (List.mem_singleton_self _)))
        (replay h) consistent.1
      have keys : (begunKeys (.begun msgSender w :: h)).count key =
          (begunKeys h).count key + if withdrawalKey w == key then 1 else 0 := List.count_cons
      rw [keys]
      change ((replay h).set (withdrawalKey w).slot _ _).toNat + _ =
        (validatedKeys h).count key + (dryKeys h).count key
      omega
    | recorded asset sender amount =>
      have apart := slot_ne_received free own (touched (List.mem_singleton_self _))
      change ((replay h).set _ _ _).toNat + _ = _
      rw [Storage.set_other _ _ apart]
      exact ih earlier consistent few
    | took sender eth token =>
      have apartEth := slot_ne_received free own (touched List.mem_cons_self)
      have apartToken := slot_ne_received free own
        (touched (List.mem_cons_of_mem _ (List.mem_singleton_self _)))
      change (((replay h).set _ _).set _ _ _).toNat + _ = _
      rw [Storage.set_other _ _ apartToken,Storage.set_other _ _ apartEth]
      exact ih earlier consistent.2.2 few
    | called target w => exact ih earlier consistent few
    | entered asset amount measured => exact ih earlier consistent few
    | left asset amount => exact ih earlier consistent few

end TornadoRelayer.Paymaster
