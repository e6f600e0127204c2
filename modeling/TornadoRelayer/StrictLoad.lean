import TornadoRelayer.Store

/-! What a restart makes of a sponsorship file, whatever is written in it: which entries stop the
process, which are restored, and which are skipped. -/
namespace TornadoRelayer.StrictLoad

open BigEndian JavaScript

/-! ### The file -/

/-- The types an entry is checked for. -/
structure Typed (v : Json) (validUntil : JsNumber) (nonce sender : String) : Prop where
  validUntil : v.field "validUntil" = some (.number validUntil)
  nonce : v.field "nonce" = some (.string nonce)
  sender : v.field "sender" = some (.string sender)

def Signed (v : Json) : Prop := v.field "status" = some (.string "signed")

def Expired (now : JsNumber) (v : Json) : Prop :=
  ∃ validUntil, v.field "validUntil" = some (.number validUntil) ∧ validUntil < now

/-- A number that is read as it is written. -/
def Exact (x : JsNumber) : Prop := toDouble x = x ∧ |x| < 2 ^ 1024

/-- A value writes a non-negative integer. -/
def Writes : Json → Int → Prop
  | .string text, n => trim text.toList ≠ [] ∧ bigIntOfText text = some n ∧ 0 ≤ n
  | .number x, n => x = n ∧ 0 ≤ n
  | _, _ => False

/-- The entry is in memory with the integers that the file writes. -/
structure Restored (notes : Notes) (key : String) (v : Json) (note : SponsoredNote) : Prop where
  present : (key,note) ∈ notes.entries
  signed : note.status = .signed
  validUntil : v.field "validUntil" = some (.number note.validUntil) ∧ |note.validUntil| < 2 ^ 1024
  nonce : ∃ written, v.field "nonce" = some written ∧ Writes written note.nonce
  cost : (v.field "maxGasCostWei" = none ∧ note.maxGasCostWei = none) ∨
    ∃ written wei, v.field "maxGasCostWei" = some written ∧ note.maxGasCostWei = some wei ∧
      Writes written wei

def Accounted (now : JsNumber) (notes : Notes) (key : String) (v : Json) : Prop :=
  v.field "status" = some (.string "pending") ∨ Expired now v.parsed ∨
    ∃ note, Restored notes key v note

/-- A signed entry with integers that are read as they are written. -/
structure Readable (v : Json) : Prop where
  signed : Signed v
  validUntil : ∀ x, v.field "validUntil" = some (.number x) → Exact x
  nonce : ∃ written n, v.field "nonce" = some written ∧ Writes written n
  cost : ∀ written, v.field "maxGasCostWei" = some written →
    (∃ wei, Writes written wei) ∧ ∀ x, written = .number x → Exact x

/-- An entry that is skipped or restored as it should be. -/
def Sound (now : JsNumber) (v : Json) : Prop :=
  v.field "status" = some (.string "pending") ∨ Expired now v.parsed ∨ Readable v

/-! ### One entry -/

/-- An entry that is restored, with what its texts are read as. -/
structure Kept (now : JsNumber) (v : Json) (note : SponsoredNote) : Prop where
  status : Signed v
  signed : note.status = .signed
  live : now ≤ note.validUntil
  validUntil : v.field "validUntil" = some (.number note.validUntil)
  nonce : ∃ text, v.field "nonce" = some (.string text) ∧ bigIntOfText text = some note.nonce
  cost : (v.field "maxGasCostWei" = none ∧ note.maxGasCostWei = none) ∨
    ∃ written wei, v.field "maxGasCostWei" = some written ∧ note.maxGasCostWei = some wei ∧
      bigIntOfJson written = some wei

theorem Typed.unique {v : Json} {u u' : JsNumber} {n n' s s' : String} (typed : Typed v u n s)
    (other : Typed v u' n' s') : u' = u ∧ n' = n ∧ s' = s := by
  have validUntil := typed.validUntil.symm.trans other.validUntil
  have nonce := typed.nonce.symm.trans other.nonce
  have sender := typed.sender.symm.trans other.sender
  cases validUntil
  cases nonce
  cases sender
  exact ⟨rfl,rfl,rfl⟩

theorem Writes.value {written : Json} {n : Int} (writes : Writes written n)
    (exact : ∀ x, written = .number x → Exact x) : bigIntOfJson written.parsed = some n := by
  cases written with
  | string text => exact writes.2.1
  | number x =>
    obtain ⟨rfl,_⟩ := writes
    obtain ⟨same,finite⟩ := exact _ rfl
    rw [Json.parsed,same,bigIntOfJson,if_pos ⟨by simp,finite⟩]
    simp
  | _ => cases writes

/-- An integer that has been read as it is written is exact. -/
theorem Writes.exact {x : JsNumber} {n : Int} (writes : Writes (.number x) n)
    (read : bigIntOfJson (.number (toDouble x)) = some n) : Exact x := by
  obtain ⟨rfl,_⟩ := writes
  rw [bigIntOfJson] at read
  split at read
  · next whole =>
    have same : toDouble n = n := by
      have integer := (Rat.den_eq_one_iff _).mp whole.1
      rwa [Option.some.inj read,eq_comm] at integer
    rw [same] at whole
    exact ⟨same,whole.2⟩
  · cases read

theorem Writes.nonneg {written : Json} {n : Int} (writes : Writes written n) : 0 ≤ n := by
  cases written with
  | string text => exact writes.2.2
  | number x => exact writes.2
  | _ => cases writes

theorem signed_parsed {v : Json} : Signed v.parsed ↔ Signed v := by
  rw [Signed,Signed,parsed_field,Option.map_eq_some_iff]
  simp only [parsed_eq_string,exists_eq_right]

/-- A readable entry that is kept has the integers that the file writes. -/
theorem Kept.restored {now : JsNumber} {notes : Notes} {key : String} {v : Json} {note : SponsoredNote}
    (kept : Kept now v.parsed note) (present : (key,note) ∈ notes.entries) (readable : Readable v) :
    Restored notes key v note := by
  refine ⟨present,kept.signed,?_,?_,?_⟩
  · obtain ⟨written,field,parsed⟩ := Option.map_eq_some_iff.mp (parsed_field .. ▸ kept.validUntil)
    obtain ⟨x,rfl,read⟩ := parsed_eq_number.mp parsed
    obtain ⟨same,finite⟩ := readable.validUntil x field
    rw [← read,same]
    exact ⟨field,finite⟩
  · obtain ⟨written,n,field,writes⟩ := readable.nonce
    obtain ⟨text,own,read⟩ := kept.nonce
    obtain ⟨_,field',parsed⟩ := Option.map_eq_some_iff.mp (parsed_field .. ▸ own)
    obtain rfl := parsed_eq_string.mp parsed
    cases field.symm.trans field'
    have same : note.nonce = n := Option.some.inj (read.symm.trans writes.2.1)
    exact ⟨_,field,same ▸ writes⟩
  · rcases kept.cost with ⟨none,unrecorded⟩ | ⟨parsed,wei,own,recorded,read⟩
    · rw [parsed_field,Option.map_eq_none_iff] at none
      exact .inl ⟨none,unrecorded⟩
    · obtain ⟨written,field,rfl⟩ := Option.map_eq_some_iff.mp (parsed_field .. ▸ own)
      obtain ⟨⟨wei',writes⟩,exact_⟩ := readable.cost written field
      have same : wei = wei' := Option.some.inj (read.symm.trans (writes.value exact_))
      exact .inr ⟨written,wei,field,recorded,same ▸ writes⟩

/-- An entry that has been restored with the integers that the file writes is readable. -/
theorem Kept.readable {now : JsNumber} {notes : Notes} {key : String} {v : Json} {note : SponsoredNote}
    (kept : Kept now v.parsed note) (restored : Restored notes key v note) : Readable v := by
  refine ⟨signed_parsed.mp kept.status,fun x field => ?_,?_,fun written field => ?_⟩
  · obtain ⟨own,finite⟩ := restored.validUntil
    cases field.symm.trans own
    have parsed := kept.validUntil
    rw [parsed_field,own,Option.map_some,Json.parsed,Option.some.injEq,Json.number.injEq] at parsed
    exact ⟨parsed,finite⟩
  · obtain ⟨written,field,writes⟩ := restored.nonce
    exact ⟨written,_,field,writes⟩
  · rcases restored.cost with ⟨none,_⟩ | ⟨own,wei,field',recorded,writes⟩
    · rw [none] at field
      cases field
    · cases field.symm.trans field'
      refine ⟨⟨wei,writes⟩,?_⟩
      rintro x rfl
      rcases kept.cost with ⟨_,none⟩ | ⟨_,_,parsed,recorded',read⟩
      · rw [recorded] at none
        cases none
      · cases recorded.symm.trans recorded'
        rw [parsed_field,field] at parsed
        cases parsed
        exact writes.exact read

end TornadoRelayer.StrictLoad
