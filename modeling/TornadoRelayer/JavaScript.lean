import TornadoRelayer.NumberText
import Mathlib.Data.List.Nodup
import Mathlib.Data.List.Induction
import Mathlib.Data.List.TakeWhile
import Mathlib.Algebra.Order.BigOperators.Group.List
import Mathlib.Algebra.Order.Ring.Nat

/-! What the service uses of the JavaScript runtime: maps that remember insertion order,
the decimal text of a bigint and its reading, and JSON values. -/
namespace JavaScript

/-! ### Maps -/

/-- A `Map`: every key once, in insertion order. -/
structure InsertionMap (κ α : Type) where
  entries : List (κ × α)
  nodup : (entries.map Prod.fst).Nodup

namespace InsertionMap

variable {κ α : Type} [DecidableEq κ]

def empty : InsertionMap κ α := ⟨[],List.nodup_nil⟩

def get (m : InsertionMap κ α) (k : κ) : Option α := m.entries.lookup k

def filter (m : InsertionMap κ α) (keep : κ → α → Bool) : InsertionMap κ α where
  entries := m.entries.filter fun e => keep e.1 e.2
  nodup := m.nodup.sublist (List.filter_sublist.map _)

def delete (m : InsertionMap κ α) (k : κ) : InsertionMap κ α := m.filter fun key _ => key ≠ k

/-- A key that is present keeps its place. -/
def set (m : InsertionMap κ α) (k : κ) (v : α) : InsertionMap κ α :=
  if present : k ∈ m.entries.map Prod.fst then
    { entries := m.entries.map fun e => if e.1 = k then (k,v) else e
      nodup := by
        have keys : (m.entries.map fun e => if e.1 = k then (k,v) else e).map Prod.fst =
            m.entries.map Prod.fst := by
          rw [List.map_map]
          apply List.map_congr_left
          intro e _
          by_cases own : e.1 = k <;> simp [own]
        rw [keys]
        exact m.nodup }
  else
    { entries := m.entries ++ [(k,v)]
      nodup := by
        rw [List.map_append,List.nodup_append]
        refine ⟨m.nodup,by simp,?_⟩
        rintro a found b last rfl
        simp only [List.map_cons,List.map_nil,List.mem_singleton] at last
        exact present (last ▸ found) }

omit [DecidableEq κ] in
theorem unique {m : InsertionMap κ α} {k : κ} {v v' : α} (first : (k,v) ∈ m.entries)
    (second : (k,v') ∈ m.entries) : v = v' := by
  have same := List.inj_on_of_nodup_map m.nodup first second rfl
  exact (Prod.mk.inj same).2

theorem get_eq_some {m : InsertionMap κ α} {k : κ} {v : α} :
    m.get k = some v ↔ (k,v) ∈ m.entries := by
  constructor
  · intro found
    obtain ⟨before,after,split,_⟩ := List.lookup_eq_some_iff.mp found
    rw [split]
    simp
  · intro member
    obtain ⟨v',found⟩ : ∃ v', m.get k = some v' := by
      cases found : m.get k with
      | some v' => exact ⟨v',rfl⟩
      | none =>
        have absent := List.lookup_eq_none_iff.mp found _ member
        simp at absent
    obtain ⟨before,after,split,_⟩ := List.lookup_eq_some_iff.mp found
    have other : (k,v') ∈ m.entries := by
      rw [split]
      simp
    rw [found,unique member other]

theorem get_eq_none {m : InsertionMap κ α} {k : κ} :
    m.get k = none ↔ ∀ v, (k,v) ∉ m.entries := by
  simp [Option.eq_none_iff_forall_ne_some,get_eq_some]

omit [DecidableEq κ] in
theorem mem_filter {m : InsertionMap κ α} {keep : κ → α → Bool} {k : κ} {v : α} :
    (k,v) ∈ (m.filter keep).entries ↔ (k,v) ∈ m.entries ∧ keep k v = true := List.mem_filter

theorem mem_delete {m : InsertionMap κ α} {k key : κ} {v : α} :
    (key,v) ∈ (m.delete k).entries ↔ (key,v) ∈ m.entries ∧ key ≠ k := by
  rw [delete,mem_filter,decide_eq_true_iff]

theorem mem_set {m : InsertionMap κ α} {k key : κ} {v w : α} :
    (key,w) ∈ (m.set k v).entries ↔ (key = k ∧ w = v) ∨ (key ≠ k ∧ (key,w) ∈ m.entries) := by
  rw [set]
  split
  · next present =>
    simp only [List.mem_map]
    constructor
    · rintro ⟨⟨k',w'⟩,member,moved⟩
      by_cases own : k' = k
      · rw [if_pos own] at moved
        cases moved
        exact .inl ⟨rfl,rfl⟩
      · rw [if_neg own] at moved
        cases moved
        exact .inr ⟨own,member⟩
    · rintro (⟨rfl,rfl⟩ | ⟨other,member⟩)
      · obtain ⟨⟨k',w'⟩,member,rfl⟩ := List.mem_map.mp present
        exact ⟨_,member,if_pos rfl⟩
      · exact ⟨_,member,if_neg other⟩
  · next absent =>
    rw [List.mem_append,List.mem_singleton,Prod.mk.injEq]
    constructor
    · rintro (member | added)
      · right
        refine ⟨?_,member⟩
        rintro rfl
        exact absent (List.mem_map.mpr ⟨_,member,rfl⟩)
      · exact .inl added
    · rintro (added | ⟨_,member⟩)
      · exact .inr added
      · exact .inl member

def total (m : InsertionMap κ α) (f : κ → α → ℕ) : ℕ := (m.entries.map fun e => f e.1 e.2).sum

omit [DecidableEq κ] in
theorem sum_le_of_keys {β : Type} {f : κ × α → ℕ} {f' : κ × β → ℕ} {l : List (κ × α)}
    {l' : List (κ × β)} (nodup : (l.map Prod.fst).Nodup)
    (covered : ∀ k v, (k,v) ∈ l → f (k,v) ≠ 0 → ∃ v', (k,v') ∈ l' ∧ f (k,v) ≤ f' (k,v')) :
    (l.map f).sum ≤ (l'.map f').sum := by
  induction l generalizing l' with
  | nil => exact Nat.zero_le _
  | cons e l ih =>
    obtain ⟨k,v⟩ := e
    rw [List.map_cons,List.nodup_cons] at nodup
    rw [List.map_cons,List.sum_cons]
    by_cases nothing : f (k,v) = 0
    · rw [nothing,Nat.zero_add]
      exact ih nodup.2 fun k' v' member => covered k' v' (List.mem_cons_of_mem _ member)
    · obtain ⟨v',member,less⟩ := covered k v List.mem_cons_self nothing
      obtain ⟨before,after,rfl⟩ := List.append_of_mem member
      have rest : (l.map f).sum ≤ ((before ++ after).map f').sum := by
        apply ih nodup.2
        intro k₂ v₂ found some
        obtain ⟨v₃,other,less⟩ := covered k₂ v₂ (List.mem_cons_of_mem _ found) some
        refine ⟨v₃,?_,less⟩
        have apart : k₂ ≠ k := by
          rintro rfl
          exact nodup.1 (List.mem_map.mpr ⟨_,found,rfl⟩)
        simpa [apart] using other
      simp only [List.map_append,List.map_cons,List.sum_append,List.sum_cons] at rest ⊢
      omega

omit [DecidableEq κ] in
/-- A sum over the entries is at most one over other entries with the same keys and
larger terms; terms that are zero need no counterpart. -/
theorem total_le {β : Type} {m : InsertionMap κ α} {m' : InsertionMap κ β} {f : κ → α → ℕ}
    {f' : κ → β → ℕ} (covered : ∀ k v, (k,v) ∈ m.entries → f k v ≠ 0 →
      ∃ v', (k,v') ∈ m'.entries ∧ f k v ≤ f' k v') : m.total f ≤ m'.total f' :=
  sum_le_of_keys m.nodup covered

omit [DecidableEq κ] in
/-- A sum whose term at one entry has dropped to zero. -/
theorem total_erase {m : InsertionMap κ α} {f f' : κ → α → ℕ} {k : κ} {v : α}
    (member : (k,v) ∈ m.entries) (gone : f' k v = 0)
    (less : ∀ k v, (k,v) ∈ m.entries → f' k v ≤ f k v) : m.total f' + f k v ≤ m.total f := by
  rw [total,total]
  obtain ⟨before,after,split⟩ := List.append_of_mem member
  have rest (part : List (κ × α)) (inside : part ⊆ m.entries) :
      (part.map fun e => f' e.1 e.2).sum ≤ (part.map fun e => f e.1 e.2).sum :=
    List.sum_le_sum fun e found => less e.1 e.2 (inside found)
  have first := rest before (by simp [split])
  have last := rest after (by simp [split])
  rw [split]
  simp only [List.map_append,List.map_cons,List.sum_append,List.sum_cons,gone]
  omega

end InsertionMap

/-! ### Bigints as text -/

def digitValue (c : Char) : Option Nat :=
  if c.isDigit then some (c.toNat - 48)
  else if 'a' ≤ c ∧ c ≤ 'f' then some (c.toNat - 87)
  else if 'A' ≤ c ∧ c ≤ 'F' then some (c.toNat - 55)
  else none

/-- The value of a non-empty numeral. -/
def readDigits (base : Nat) (text : List Char) : Option Nat :=
  if text = [] then none
  else text.foldlM (fun n c => do
    let d ← digitValue c
    if d < base then some (n * base + d) else none) 0

def isWhitespace (c : Char) : Bool :=
  c.toNat ∈ [9,10,11,12,13,32,160,0x1680,0x2028,0x2029,0x202f,0x205f,0x3000,0xfeff] ||
    (0x2000 ≤ c.toNat && c.toNat ≤ 0x200a)

def trim (text : List Char) : List Char :=
  ((text.dropWhile isWhitespace).reverse.dropWhile isWhitespace).reverse

/-- The base that the letter after a leading zero announces. -/
def radix (letter : Char) : Option Nat :=
  if letter = 'x' ∨ letter = 'X' then some 16
  else if letter = 'o' ∨ letter = 'O' then some 8
  else if letter = 'b' ∨ letter = 'B' then some 2
  else none

def readNumeral : List Char → Option Int
  | [] => some 0
  | c :: rest =>
    if c = '-' then (readDigits 10 rest).map fun n => -(n : Int)
    else if c = '+' then (readDigits 10 rest).map Nat.cast
    else
      match rest.head?.bind radix with
      | some base => if c = '0' then (readDigits base rest.tail).map Nat.cast else none
      | none => (readDigits 10 (c :: rest)).map Nat.cast

/-- `BigInt` of a string, `none` where it throws. -/
def bigIntOfText (text : String) : Option Int := readNumeral (trim text.toList)

theorem digitValue_digitChar {d : Nat} (small : d < 16) : digitValue d.digitChar = some d := by
  have table : ∀ d < 16, digitValue d.digitChar = some d := by decide
  exact table d small

theorem readDigits_base {base : Nat} (large : 1 < base) (small : base ≤ 16) (n : Nat) :
    readDigits base (Nat.toDigits base n) = some n := by
  rw [readDigits,if_neg Nat.toDigits_ne_nil]
  induction n using Nat.strongRecOn with
  | ind n ih =>
    by_cases single : n < base
    · rw [Nat.toDigits_of_lt_base single]
      simp [digitValue_digitChar (single.trans_le small),single]
    · have last : n % base < base := Nat.mod_lt _ (by omega)
      have whole := Nat.div_add_mod' n base
      have less : n / base < n := Nat.div_lt_self (by omega) large
      rw [Nat.toDigits_of_base_le large (Nat.le_of_not_lt single),List.foldlM_append,ih _ less]
      simp only [List.foldlM_cons,List.foldlM_nil,digitValue_digitChar (last.trans_le small)]
      simp [last,whole]

theorem readDigits_toDigits (n : Nat) : readDigits 10 (Nat.toDigits 10 n) = some n :=
  readDigits_base (by decide) (by decide) n

theorem digit_range {c : Char} (digit : c.isDigit = true) : 48 ≤ c.toNat ∧ c.toNat ≤ 57 := by
  simp only [Char.isDigit,Bool.and_eq_true,decide_eq_true_eq] at digit
  exact ⟨digit.1,digit.2⟩

theorem printable_plain {c : Char} (low : 32 < c.toNat) (high : c.toNat < 128) :
    isWhitespace c = false := by
  have outside : c.toNat ∉ [9,10,11,12,13,32,160,0x1680,0x2028,0x2029,0x202f,0x205f,0x3000,0xfeff] := by
    simp only [List.mem_cons,List.not_mem_nil,or_false]
    omega
  have below : ¬0x2000 ≤ c.toNat := by omega
  simp [isWhitespace,outside,below]

theorem digit_not_whitespace {c : Char} (digit : c.isDigit = true) : isWhitespace c = false := by
  have range := digit_range digit
  exact printable_plain (by omega) (by omega)

theorem alphanum_plain {c : Char} (alphanum : c.isAlphanum) : isWhitespace c = false := by
  have range : 48 ≤ c.toNat ∧ c.toNat ≤ 122 := by
    rcases (Bool.or_eq_true _ _).mp alphanum with alpha | digit
    · rcases (Bool.or_eq_true _ _).mp alpha with upper | lower
      · have upper : 65 ≤ c.toNat ∧ c.toNat ≤ 90 := of_decide_eq_true upper
        omega
      · have lower := (Bool.and_eq_true _ _).mp lower
        have first : 97 ≤ c.toNat := of_decide_eq_true lower.1
        have last : c.toNat ≤ 122 := of_decide_eq_true lower.2
        omega
    · have digit := digit_range digit
      omega
  exact printable_plain (by omega) (by omega)

theorem digitValue_range {c : Char} {d : Nat} (digit : digitValue c = some d) :
    48 ≤ c.toNat ∧ c.toNat ≤ 102 := by
  rw [digitValue] at digit
  split at digit
  · next decimal =>
    have range := digit_range decimal
    omega
  · split at digit
    · next lower =>
      have range : 'a'.toNat ≤ c.toNat ∧ c.toNat ≤ 'f'.toNat := lower
      exact ⟨range.1.trans' (by decide),range.2⟩
    · split at digit
      · next upper =>
        have range : 'A'.toNat ≤ c.toNat ∧ c.toNat ≤ 'F'.toNat := upper
        exact ⟨range.1.trans' (by decide),range.2.trans (by decide)⟩
      · cases digit

/-- A hex digit is the digit of its value, in lower case. -/
theorem digitChar_digitValue {c : Char} {d : Nat} (digit : digitValue c = some d) :
    d < 16 ∧ d.digitChar = c.toLower := by
  have range := digitValue_range digit
  have table : ∀ k < 103, ∀ d, digitValue (Char.ofNat k) = some d →
      d < 16 ∧ d.digitChar = (Char.ofNat k).toLower := by decide
  rw [← Char.ofNat_toNat c] at digit ⊢
  exact table _ (by omega) d digit

theorem hex_plain {c : Char} (hex : (digitValue c).isSome) : isWhitespace c = false := by
  obtain ⟨d,digit⟩ := Option.isSome_iff_exists.mp hex
  have range := digitValue_range digit
  exact printable_plain (by omega) (by omega)

theorem trim_split (text : List Char) : ∃ before after, (∀ c ∈ before, isWhitespace c) ∧
    (∀ c ∈ after, isWhitespace c) ∧ text = before ++ trim text ++ after := by
  let rest := text.dropWhile isWhitespace
  refine ⟨text.takeWhile isWhitespace,(rest.reverse.takeWhile isWhitespace).reverse,
    fun c member => List.mem_takeWhile_imp member,fun c member => ?_,?_⟩
  · exact List.mem_takeWhile_imp (List.mem_reverse.mp member)
  · have back : (rest.reverse.dropWhile isWhitespace).reverse ++
        (rest.reverse.takeWhile isWhitespace).reverse = rest := by
      rw [← List.reverse_append,List.takeWhile_append_dropWhile,List.reverse_reverse]
    rw [trim,List.append_assoc,back,List.takeWhile_append_dropWhile]

theorem dropWhile_plain {text : List Char} (plain : ∀ c ∈ text, isWhitespace c = false) :
    text.dropWhile isWhitespace = text := by
  cases text with
  | nil => rfl
  | cons c rest => simp [plain c List.mem_cons_self]

theorem trim_plain {text : List Char} (plain : ∀ c ∈ text, isWhitespace c = false) :
    trim text = text := by
  have reversed : ∀ c ∈ text.reverse, isWhitespace c = false :=
    fun c member => plain c (List.mem_reverse.mp member)
  rw [trim,dropWhile_plain plain,dropWhile_plain reversed,List.reverse_reverse]

theorem digitChar_digit {c : Char} (digit : c.isDigit) : (c.toNat - 48).digitChar = c := by
  have range := digit_range digit
  have table : ∀ k < 58, 48 ≤ k → (k - 48).digitChar = Char.ofNat k := by decide
  have own := table c.toNat (by omega) range.1
  rwa [Char.ofNat_toNat] at own

/-- A numeral is the text of its value behind some zeros. -/
theorem readDigits_zeros {text : List Char} {n : Nat} (digits : ∀ c ∈ text, c.isDigit)
    (read : readDigits 10 text = some n) :
    ∃ k, text = List.replicate k '0' ++ Nat.toDigits 10 n := by
  induction text using List.reverseRecOn generalizing n with
  | nil => cases read
  | append_singleton text c ih =>
    have digit : c.isDigit := digits c (by simp)
    have small : c.toNat - 48 < 10 := by
      have range := digit_range digit
      omega
    have value : digitValue c = some (c.toNat - 48) := by rw [digitValue,if_pos digit]
    have shown : Nat.toDigits 10 (c.toNat - 48) = [c] := by
      rw [Nat.toDigits_of_lt_base small,digitChar_digit digit]
    rw [readDigits,if_neg (by simp),List.foldlM_append] at read
    obtain ⟨m,front,last⟩ := Option.bind_eq_some_iff.mp read
    have whole : m * 10 + (c.toNat - 48) = n := by simpa [value,small] using last
    by_cases empty : text = []
    · subst empty
      cases front
      refine ⟨0,?_⟩
      rw [← whole,Nat.zero_mul,Nat.zero_add,shown]
      rfl
    · have front : readDigits 10 text = some m := by rw [readDigits,if_neg empty,front]
      obtain ⟨k,zeros⟩ := ih (fun c member => digits c (List.mem_append_left _ member)) front
      by_cases none : m = 0
      · refine ⟨k + 1,?_⟩
        rw [zeros,← whole,none,Nat.zero_mul,Nat.zero_add,shown,List.replicate_succ']
        rfl
      · refine ⟨k,?_⟩
        have larger : 10 ≤ m * 10 + (c.toNat - 48) := by omega
        have quotient : (m * 10 + (c.toNat - 48)) / 10 = m := by omega
        have remainder : (m * 10 + (c.toNat - 48)) % 10 = c.toNat - 48 := by omega
        rw [zeros,← whole,Nat.toDigits_of_base_le (by decide) larger,quotient,remainder,
          digitChar_digit digit,List.append_assoc]

theorem radix_digit {c : Char} (digit : c.isDigit = true) : radix c = none := by
  have range := digit_range digit
  have other (letter : Char) (large : 57 < letter.toNat) : c ≠ letter := by
    rintro rfl
    omega
  simp [radix,other 'x' (by decide),other 'X' (by decide),other 'o' (by decide),
    other 'O' (by decide),other 'b' (by decide),other 'B' (by decide)]

theorem readNumeral_digits {text : List Char} (digits : ∀ c ∈ text, c.isDigit = true)
    (some : text ≠ []) : readNumeral text = (readDigits 10 text).map Nat.cast := by
  cases text with
  | nil => exact absurd rfl some
  | cons c rest =>
    have range := digit_range (digits c List.mem_cons_self)
    have plain : rest.head?.bind radix = none := by
      cases rest with
      | nil => rfl
      | cons d rest => exact radix_digit (digits d (by simp))
    have unsigned : c ≠ '-' ∧ c ≠ '+' := by
      constructor <;> rintro rfl <;> revert range <;> decide
    rw [readNumeral,if_neg unsigned.1,if_neg unsigned.2,plain]

/-- Reading back the decimal text of a bigint. -/
theorem bigIntOfText_repr (i : Int) : bigIntOfText i.repr = some i := by
  have digits (n : Nat) : ∀ c ∈ Nat.toDigits 10 n, c.isDigit = true :=
    fun c member => Nat.isDigit_of_mem_toDigits (by decide) (by decide) member
  have plain (n : Nat) : ∀ c ∈ Nat.toDigits 10 n, isWhitespace c = false :=
    fun c member => digit_not_whitespace (digits n c member)
  cases i with
  | ofNat n =>
    have text : (Int.ofNat n).repr.toList = Nat.toDigits 10 n := Nat.toList_repr
    rw [bigIntOfText,text,trim_plain (plain n),readNumeral_digits (digits n) Nat.toDigits_ne_nil,
      readDigits_toDigits]
    rfl
  | negSucc n =>
    have text : (Int.negSucc n).repr.toList = '-' :: Nat.toDigits 10 (n + 1) := by
      rw [← Nat.toList_repr]
      exact String.toList_append
    have signed : ∀ c ∈ '-' :: Nat.toDigits 10 (n + 1), isWhitespace c = false :=
      List.forall_mem_cons.mpr ⟨by decide,plain (n + 1)⟩
    rw [bigIntOfText,text,trim_plain signed,readNumeral,if_pos rfl,readDigits_toDigits]
    rfl

theorem mem_toDigits_hex {n : Nat} {c : Char} (member : c ∈ Nat.toDigits 16 n) :
    (digitValue c).isSome := by
  induction n using Nat.strongRecOn with
  | ind n ih =>
    by_cases single : n < 16
    · rw [Nat.toDigits_of_lt_base single,List.mem_singleton] at member
      rw [member,digitValue_digitChar single]
      rfl
    · rw [Nat.toDigits_of_base_le (by decide) (Nat.le_of_not_lt single),List.mem_append,
        List.mem_singleton] at member
      rcases member with front | rfl
      · exact ih _ (by omega) front
      · rw [digitValue_digitChar (Nat.mod_lt _ (by decide))]
        rfl

/-- Reading back the hex text of a quantity. -/
theorem bigIntOfText_hex (n : Nat) :
    bigIntOfText (String.ofList ('0' :: 'x' :: Nat.toDigits 16 n)) = some (n : Int) := by
  have plain : ∀ c ∈ '0' :: 'x' :: Nat.toDigits 16 n, isWhitespace c = false :=
    List.forall_mem_cons.mpr ⟨by decide,List.forall_mem_cons.mpr
      ⟨by decide,fun c member => hex_plain (mem_toDigits_hex member)⟩⟩
  have letter : radix 'x' = some 16 := by decide
  rw [bigIntOfText,String.toList_ofList,trim_plain plain,readNumeral,if_neg (by decide),
    if_neg (by decide)]
  simp only [List.head?_cons,Option.bind_some,letter,if_true,List.tail_cons,
    readDigits_base (by decide : 1 < 16) (by decide) n,Option.map_some]

/-! ### JSON -/

/-- A value, its numbers doubles; or what a text writes, its numbers as written. -/
inductive Json where
  | null
  | bool (b : Bool)
  | number (n : ℚ)
  | string (s : String)
  | array (items : List Json)
  | object (fields : List (String × Json))

/-- A property of a value that is not `null`; `none` is `undefined`. -/
def Json.field : Json → String → Option Json
  | .object fields, name => fields.lookup name
  | _, _ => none

mutual
/-- What `JSON.parse` makes of what a text writes. -/
def Json.parsed : Json → Json
  | .number n => .number (toDouble n)
  | .array items => .array (parsedItems items)
  | .object fields => .object (parsedFields fields)
  | value => value

def parsedItems : List Json → List Json
  | [] => []
  | item :: items => item.parsed :: parsedItems items

def parsedFields : List (String × Json) → List (String × Json)
  | [] => []
  | (name, value) :: fields => (name, value.parsed) :: parsedFields fields
end

theorem parsedFields_eq_map (fields : List (String × Json)) :
    parsedFields fields = fields.map fun f => (f.1,f.2.parsed) := by
  induction fields with
  | nil => rfl
  | cons f fields ih =>
    obtain ⟨name,value⟩ := f
    rw [parsedFields,ih,List.map_cons]

theorem parsed_field (v : Json) (name : String) :
    v.parsed.field name = (v.field name).map Json.parsed := by
  cases v with
  | object fields =>
    simp only [Json.parsed,Json.field,parsedFields_eq_map]
    induction fields with
    | nil => rfl
    | cons f fields ih =>
      obtain ⟨first,value⟩ := f
      rw [List.map_cons,List.lookup_cons,List.lookup_cons,ih]
      cases name == first <;> rfl
  | _ => simp [Json.parsed,Json.field]

theorem parsed_eq_string {v : Json} {text : String} : v.parsed = .string text ↔ v = .string text := by
  cases v <;> simp [Json.parsed]

theorem parsed_eq_number {v : Json} {x : ℚ} :
    v.parsed = .number x ↔ ∃ written, v = .number written ∧ toDouble written = x := by
  cases v <;> simp [Json.parsed]

mutual
def elementText : Json → String
  | .null => ""
  | .bool b => if b then "true" else "false"
  | .number n => numberText n
  | .string s => s
  | .array items => arrayText items
  | .object _ => "[object Object]"

def arrayText : List Json → String
  | [] => ""
  | [item] => elementText item
  | item :: next :: items => elementText item ++ "," ++ arrayText (next :: items)
end

/-- `BigInt` of a JSON value, `none` where it throws. -/
def bigIntOfJson : Json → Option Int
  | .string s => bigIntOfText s
  | .number n => if n.den = 1 ∧ |n| < 2 ^ 1024 then some n.num else none
  | .bool b => some (if b then 1 else 0)
  | .array items => bigIntOfText (arrayText items)
  | .null | .object _ => none

end JavaScript
