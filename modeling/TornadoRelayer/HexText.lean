import TornadoRelayer.JavaScript
import TornadoRelayer.UserOp

/-! Hex texts as the client library reads and prints them: byte strings in lower case,
addresses in the letter case of their checksum. -/
namespace TornadoRelayer

open BigEndian JavaScript Keccak

def toHex (bytes : Bytes) : String := String.ofList ('0' :: 'x' :: hexDigits bytes)

def isHex (text : String) : Bool :=
  text.toList.take 2 == ['0', 'x'] && (text.toList.drop 2).all fun c => (digitValue c).isSome

/-- The hex digits in the letter case of their checksum. -/
def checksumDigits (address : Address) : List Char :=
  let digits := hexDigits address.bytes
  let nibbles := (keccak256 (digits.map fun c => UInt8.ofNat c.toNat)).bytes.flatMap
    fun b => [b.toNat / 16, b.toNat % 16]
  digits.zipWith (fun c nibble => if 8 ≤ nibble then c.toUpper else c) nibbles

/-- An address as it is printed. -/
def addressText (address : Address) : String :=
  String.ofList ('0' :: 'x' :: checksumDigits address)

/-- Forty hex digits in any letter case. -/
def addressOfHex (text : String) : Option Address :=
  if isHex text ∧ text.length = 42 then
    (readDigits 16 (text.toList.drop 2)).map (BitVec.ofNat 160)
  else none

/-- An address in lower case or with its checksum. -/
def isAddress (text : String) : Bool :=
  match addressOfHex text with
  | none => false
  | some address => text.toList.map Char.toLower == text.toList ||
    text.toList.drop 2 == checksumDigits address

def getAddress (text : String) : Except Thrown Address :=
  match addressOfHex text with
  | some address => .ok address
  | none => .error (.viem "InvalidAddressError")

/-- Numerals with the same digits, whatever their letter case, have the same value. -/
theorem readDigits_values {base : Nat} {xs ys : List Char}
    (same : xs.map digitValue = ys.map digitValue) : readDigits base xs = readDigits base ys := by
  have fold (n : Nat) : ∀ {xs ys : List Char}, xs.map digitValue = ys.map digitValue →
      xs.foldlM (fun n c => do
        let d ← digitValue c
        if d < base then some (n * base + d) else none) n =
      ys.foldlM (fun n c => do
        let d ← digitValue c
        if d < base then some (n * base + d) else none) n := by
    intro xs
    induction xs generalizing n with
    | nil =>
      intro ys same
      rw [List.map_eq_nil_iff.mp same.symm]
    | cons c xs ih =>
      intro ys same
      cases ys with
      | nil => contradiction
      | cons c' ys =>
        obtain ⟨head,tail⟩ := List.cons.inj same
        simp only [List.foldlM_cons,head]
        congr 1
        funext n'
        exact ih n' tail
  have empty : xs = [] ↔ ys = [] := by
    rw [← List.map_eq_nil_iff (f := digitValue),same,List.map_eq_nil_iff]
  rw [readDigits,readDigits,fold 0 same]
  simp only [empty]

theorem zipWith_eq_map {f : α → β → γ} {g : α → γ} {xs : List α} {ys : List β}
    (same : ∀ x ∈ xs, ∀ y, f x y = g x) (enough : xs.length ≤ ys.length) :
    List.zipWith f xs ys = xs.map g := by
  induction xs generalizing ys with
  | nil => rfl
  | cons x xs ih =>
    cases ys with
    | nil => contradiction
    | cons y ys =>
      rw [List.zipWith_cons_cons,List.map_cons,same x (by simp),
        ih (fun x member => same x (by simp [member])) (Nat.le_of_succ_le_succ enough)]

theorem readDigits_hexDigits {bytes : Bytes} (some : bytes ≠ []) :
    readDigits 16 (hexDigits bytes) = .some (ofBytes bytes) := by
  have digits : hexDigits bytes ≠ [] := by
    cases bytes with
    | nil => contradiction
    | cons b bytes => simp [hexDigits]
  rw [readDigits,if_neg digits]
  clear some digits
  induction bytes using List.reverseRecOn with
  | nil => rfl
  | append_singleton bytes b ih =>
    have small := b.toNat_lt
    have high : b.toNat / 16 < 16 := by omega
    have low : b.toNat % 16 < 16 := Nat.mod_lt _ (by decide)
    have byte : (ofBytes bytes * 16 + b.toNat / 16) * 16 + b.toNat % 16 =
        256 * ofBytes bytes + b.toNat := by omega
    rw [hexDigits,List.flatMap_append,List.foldlM_append,← hexDigits,ih,ofBytes_concat,← byte]
    simp [digitValue_digitChar high,digitValue_digitChar low,high,low]

theorem hexDigits_length (bytes : Bytes) : (hexDigits bytes).length = 2 * bytes.length := by
  induction bytes with
  | nil => rfl
  | cons b bytes ih =>
    rw [hexDigits] at ih ⊢
    simp only [List.flatMap_cons,List.length_append,List.length_cons,List.length_nil,ih]
    omega

theorem mem_hexDigits {bytes : Bytes} {c : Char} (member : c ∈ hexDigits bytes) :
    ∃ d < 16, c = d.digitChar := by
  obtain ⟨b,_,digit⟩ := List.mem_flatMap.mp member
  have small := b.toNat_lt
  simp only [List.mem_cons,List.not_mem_nil,or_false] at digit
  rcases digit with rfl | rfl
  · exact ⟨b.toNat / 16,by omega,rfl⟩
  · exact ⟨b.toNat % 16,Nat.mod_lt _ (by decide),rfl⟩

theorem isHex_toHex (bytes : Bytes) : isHex (toHex bytes) = true := by
  have digits : ∀ c ∈ hexDigits bytes, (digitValue c).isSome = true := by
    intro c member
    obtain ⟨d,small,rfl⟩ := mem_hexDigits member
    simp [digitValue_digitChar small]
  simpa [isHex,toHex] using digits

/-- Forty digits with the values of an address's digits are read as that address. -/
theorem getAddress_digits {a : Address} {digits : List Char}
    (values : digits.map digitValue = (hexDigits a.bytes).map digitValue) :
    getAddress (String.ofList ('0' :: 'x' :: digits)) = .ok a := by
  have count : digits.length = 40 := by
    have same := congrArg List.length values
    rwa [List.length_map,List.length_map,hexDigits_length,Word.bytes_length] at same
  have some : a.bytes ≠ [] := by
    intro empty
    have none := congrArg List.length empty
    simp at none
  have hex : isHex (String.ofList ('0' :: 'x' :: digits)) = true := by
    have lower := isHex_toHex a.bytes
    have all (text : List Char) : (text.all fun c => (digitValue c).isSome) =
        (text.map digitValue).all Option.isSome := by simp [List.all_map,Function.comp_def]
    simp only [isHex,toHex,String.toList_ofList,List.take_succ_cons,List.take_zero,
      List.drop_succ_cons,List.drop_zero,Bool.and_eq_true,all] at lower ⊢
    rw [values]
    exact lower
  have length : (String.ofList ('0' :: 'x' :: digits)).length = 42 := by
    rw [String.length_ofList,List.length_cons,List.length_cons,count]
  have value : BitVec.ofNat 160 (ofBytes a.bytes) = a := Word.ofBytes_bytes a
  rw [getAddress,addressOfHex,if_pos ⟨hex,length⟩,String.toList_ofList,List.drop_succ_cons,
    List.drop_succ_cons,List.drop_zero,readDigits_values values,readDigits_hexDigits some,
    Option.map_some,value]

/-- Reading back the hex text of an address. -/
theorem getAddress_toHex (a : Address) : getAddress (toHex a.bytes) = .ok a := getAddress_digits rfl

theorem checksumDigits_values (a : Address) :
    (checksumDigits a).map digitValue = (hexDigits a.bytes).map digitValue := by
  have upper : ∀ d < 16, digitValue d.digitChar.toUpper = some d := by decide
  rw [checksumDigits,List.map_zipWith]
  apply zipWith_eq_map
  · intro c member nibble
    obtain ⟨d,small,rfl⟩ := mem_hexDigits member
    split
    · rw [upper d small,digitValue_digitChar small]
    · rfl
  · rw [hexDigits_length,Word.bytes_length,List.length_flatMap]
    simp

theorem getAddress_addressText (a : Address) : getAddress (addressText a) = .ok a :=
  getAddress_digits (checksumDigits_values a)

end TornadoRelayer
