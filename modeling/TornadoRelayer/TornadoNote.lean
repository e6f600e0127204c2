import TornadoRelayer.HexText

/-! The client's `note.ts`: the secrets of a deposit and their text. The Pedersen hash is any
function of the bytes. -/
namespace TornadoRelayer.TornadoNote

open BigEndian JavaScript

structure Note where
  nullifier : Nat
  secret : Nat
  commitment : Nat
  nullifierHash : Nat
  /-- The nullifier and the secret, 31 bytes each. -/
  preimage : Bytes

structure ParsedNote extends Note where
  currency : String
  amount : String
  chainId : Int

inductive ChainId where
  | number (n : JsNumber)
  | bigint (n : Int)

def ChainId.text : ChainId → String
  | .number n => numberText n
  | .bigint n => n.repr

/-! ### Bytes -/

def numberToBytesLE (n len : Nat) : Except Thrown Bytes :=
  if n < 256 ^ len then .ok (toBytes len n).reverse else .error (.error "number too large")

def bytesToNumberLE (bytes : Bytes) : Nat := ofBytes bytes.reverse

/-! ### The text of a note -/

/-- The input after a literal. -/
def literal (text : String) (input : List Char) : Option (List Char) :=
  if text.toList <+: input then some (input.drop text.length) else none

/-- The longest run of a class of characters, which is not empty, and the input after it. -/
def oneOrMore (p : Char → Bool) (input : List Char) : Option (List Char × List Char) :=
  if input.takeWhile p = [] then none else some (input.takeWhile p, input.dropWhile p)

/-- The groups of `NOTE_REGEX`. What follows a run is outside its class, so that no shorter
run would do. -/
def noteRegex (input : List Char) : Option (List Char × List Char × List Char × List Char) := do
  let input ← literal "tornado-" input
  let (currency, input) ← oneOrMore Char.isAlphanum input
  let input ← literal "-" input
  let (amount, input) ← oneOrMore (fun c => c.isDigit || c == '.') input
  let input ← literal "-" input
  let (chainId, input) ← oneOrMore Char.isDigit input
  let hex ← literal "-0x" input
  if hex.length = 124 ∧ hex.all fun c => (digitValue c).isSome then some (currency, amount, chainId, hex)
  else none

def toNoteString (note : Note) (currency amount : String) (chainId : ChainId) : String :=
  s!"tornado-{currency}-{amount}-{chainId.text}-{toHex note.preimage}"

section

variable (pedersenHash : Bytes → Nat)

def noteFromSecrets (nullifier secret : Nat) : Except Thrown Note := do
  let nullifierBytes ← numberToBytesLE nullifier 31
  let secretBytes ← numberToBytesLE secret 31
  let preimage := nullifierBytes ++ secretBytes
  return {
    nullifier, secret, preimage
    commitment := pedersenHash preimage
    nullifierHash := pedersenHash nullifierBytes }

def parseNoteString (noteString : String) : Except Thrown ParsedNote :=
  match noteRegex (trim noteString.toList) with
  | none => .error (.error s!"invalid tornado note: {noteString}")
  | some (currency, amount, chainId, hex) => do
    let preimage ← hexToBytes hex
    let note ← noteFromSecrets pedersenHash (bytesToNumberLE (slice preimage 0 31))
      (bytesToNumberLE (slice preimage 31 62))
    match bigIntOfText (String.ofList chainId) with
    | none => .error (.error s!"Cannot convert {String.ofList chainId} to a BigInt")
    | some n => return {
        note with
        currency := String.ofList currency
        amount := String.ofList amount
        chainId := n }

end

/-! ### What the text is for -/

/-- The chain id is the number, as a bigint or as a safe integer. -/
def ChainId.Is : ChainId → Nat → Prop
  | .number x, n => x = n ∧ n < 2 ^ 53
  | .bigint i, n => i = n

/-- Every note comes back from its text. -/
def RoundTrips (pedersenHash : Bytes → Nat) (currency amount : String) (chainId : ChainId) (n : Nat) :
    Prop :=
  ∀ nullifier secret, nullifier < 2 ^ 248 → secret < 2 ^ 248 →
    ∃ note, noteFromSecrets pedersenHash nullifier secret = .ok note ∧
      note.nullifier = nullifier ∧ note.secret = secret ∧
      parseNoteString pedersenHash (toNoteString note currency amount chainId) =
        .ok { note with currency, amount, chainId := n }

/-- The same but for surrounding whitespace, the letter case of the hex digits and leading
zeros of the chain id. -/
def SameText (text rendered : List Char) : Prop :=
  ∃ before currency amount zeros chainId hex after : List Char,
    (∀ c ∈ before, isWhitespace c) ∧ (∀ c ∈ after, isWhitespace c) ∧ (∀ c ∈ zeros, c = '0') ∧
    '-' ∉ currency ∧ '-' ∉ amount ∧ '-' ∉ chainId ∧ '-' ∉ hex ∧
    text = before ++ "tornado-".toList ++ currency ++ '-' :: amount ++ '-' :: zeros ++ chainId ++
      '-' :: '0' :: 'x' :: hex ++ after ∧
    rendered = "tornado-".toList ++ currency ++ '-' :: amount ++ '-' :: chainId ++
      '-' :: '0' :: 'x' :: hex.map Char.toLower

/-! ### Bytes and numbers -/

theorem two_pow_248 : (2 : Nat) ^ 248 = 256 ^ 31 := by norm_num

theorem bytesToNumberLE_numberToBytesLE {n len : Nat} {bytes : Bytes}
    (encoded : numberToBytesLE n len = .ok bytes) : bytesToNumberLE bytes = n := by
  rw [numberToBytesLE] at encoded
  split at encoded
  · next fits =>
    cases encoded
    rw [bytesToNumberLE,List.reverse_reverse,ofBytes_toBytes fits]
  · cases encoded

theorem numberToBytesLE_bytesToNumberLE (bytes : Bytes) :
    numberToBytesLE (bytesToNumberLE bytes) bytes.length = .ok bytes := by
  have fits := ofBytes_lt bytes.reverse
  have whole := toBytes_ofBytes bytes.reverse
  rw [List.length_reverse] at fits whole
  rw [numberToBytesLE,bytesToNumberLE,if_pos fits,whole,List.reverse_reverse]

theorem numberToBytesLE_length {n len : Nat} {bytes : Bytes}
    (encoded : numberToBytesLE n len = .ok bytes) : bytes.length = len := by
  rw [numberToBytesLE] at encoded
  split at encoded
  · cases encoded
    rw [List.length_reverse,toBytes_length]
  · cases encoded

/-! ### Hex digits -/

theorem hexToBytes_hexDigits (bytes : Bytes) : hexToBytes (hexDigits bytes) = .ok bytes := by
  induction bytes with
  | nil => rfl
  | cons b bytes ih =>
    have small := b.toNat_lt
    have high : b.toNat / 16 < 16 := by omega
    have low : b.toNat % 16 < 16 := Nat.mod_lt _ (by decide)
    have byte : 16 * (b.toNat / 16) + b.toNat % 16 = b.toNat := Nat.div_add_mod _ _
    rw [hexDigits] at ih ⊢
    simp only [List.flatMap_cons,List.cons_append,List.nil_append,hexToBytes,
      digitValue_digitChar high,digitValue_digitChar low,ih,byte,UInt8.ofNat_toNat,Except.map]

/-- Rendering the bytes of a hex text gives it back in lower case. -/
theorem hexDigits_hexToBytes {hex : List Char} {bytes : Bytes} (decoded : hexToBytes hex = .ok bytes) :
    hexDigits bytes = hex.map Char.toLower := by
  induction hex using hexToBytes.induct generalizing bytes with
  | case1 =>
    cases decoded
    rfl
  | case2 => cases decoded
  | case3 high low rest h l first second ih =>
    rw [hexToBytes,first,second] at decoded
    cases later : hexToBytes rest with
    | error err =>
      rw [later] at decoded
      cases decoded
    | ok others =>
      rw [later] at decoded
      cases decoded
      obtain ⟨fits,upper⟩ := digitChar_digitValue first
      obtain ⟨fits',lower⟩ := digitChar_digitValue second
      have byte : (UInt8.ofNat (16 * h + l)).toNat = 16 * h + l :=
        UInt8.toNat_ofNat_of_lt' (by omega : 16 * h + l < 256)
      have quotient : (16 * h + l) / 16 = h := by omega
      have remainder : (16 * h + l) % 16 = l := by omega
      have tail := ih later
      rw [hexDigits] at tail ⊢
      simp only [List.flatMap_cons,byte,quotient,remainder,tail,upper,lower,List.map_cons,
        List.cons_append,List.nil_append]
  | case4 high low rest none =>
    rw [hexToBytes] at decoded
    split at decoded
    · next h l first second => exact absurd second (none h l first)
    · cases decoded

theorem hexToBytes_length {hex : List Char} {bytes : Bytes} (decoded : hexToBytes hex = .ok bytes) :
    2 * bytes.length = hex.length := by
  have rendered := congrArg List.length (hexDigits_hexToBytes decoded)
  rwa [hexDigits_length,List.length_map] at rendered

theorem hexDigits_hex (bytes : Bytes) : ∀ c ∈ hexDigits bytes, (digitValue c).isSome := by
  have hex := isHex_toHex bytes
  rw [isHex,toHex,Bool.and_eq_true] at hex
  simpa using hex.2

/-! ### The grammar -/

theorem literal_eq_some {text : String} {input rest : List Char} :
    literal text input = some rest ↔ input = text.toList ++ rest := by
  rw [literal]
  constructor
  · intro read
    split at read
    · next starts =>
      obtain ⟨others,rfl⟩ := starts
      rw [← String.length_toList,List.drop_left,Option.some.injEq] at read
      rw [read]
    · cases read
  · rintro rfl
    rw [if_pos (List.prefix_append _ _),← String.length_toList,List.drop_left]

theorem oneOrMore_eq_some {p : Char → Bool} {input run rest : List Char} :
    oneOrMore p input = some (run,rest) ↔
      run ≠ [] ∧ (∀ c ∈ run, p c) ∧ input = run ++ rest ∧ ∀ c ∈ rest.head?, p c = false := by
  rw [oneOrMore]
  constructor
  · intro read
    split at read
    · cases read
    · next some =>
      cases read
      refine ⟨some,fun c member => List.mem_takeWhile_imp member,
        List.takeWhile_append_dropWhile.symm,fun c first => ?_⟩
      have stop := List.head?_dropWhile_not p input
      rw [Option.mem_def.mp first] at stop
      simpa using stop
  · rintro ⟨some,all,rfl,stop⟩
    have ended : rest.takeWhile p = [] ∧ rest.dropWhile p = rest := by
      cases rest with
      | nil => exact ⟨rfl,rfl⟩
      | cons c rest => simp [stop c rfl]
    rw [List.takeWhile_append_of_pos all,List.dropWhile_append_of_pos all,ended.1,ended.2,
      List.append_nil,if_neg some]

/-- The texts that match, with their groups. -/
theorem noteRegex_eq_some {input currency amount chainId hex : List Char} :
    noteRegex input = some (currency,amount,chainId,hex) ↔
      (currency ≠ [] ∧ ∀ c ∈ currency, c.isAlphanum) ∧
      (amount ≠ [] ∧ ∀ c ∈ amount, c.isDigit || c == '.') ∧
      (chainId ≠ [] ∧ ∀ c ∈ chainId, c.isDigit) ∧
      (hex.length = 124 ∧ ∀ c ∈ hex, (digitValue c).isSome) ∧
      input = "tornado-".toList ++ (currency ++ ("-".toList ++ (amount ++ ("-".toList ++
        (chainId ++ ("-0x".toList ++ hex)))))) := by
  simp only [noteRegex,Option.bind_eq_bind,Option.bind_eq_some_iff,Prod.exists,literal_eq_some,
    oneOrMore_eq_some,Option.ite_none_right_eq_some,List.all_eq_true,Option.some.injEq,Prod.mk.injEq]
  constructor
  · rintro ⟨_,rfl,_,_,⟨some₁,all₁,rfl,_⟩,_,rfl,_,_,⟨some₂,all₂,rfl,_⟩,_,rfl,_,_,⟨some₃,all₃,rfl,_⟩,
      _,rfl,shape,rfl,rfl,rfl,rfl⟩
    exact ⟨⟨some₁,all₁⟩,⟨some₂,all₂⟩,⟨some₃,all₃⟩,shape,rfl⟩
  · rintro ⟨⟨some₁,all₁⟩,⟨some₂,all₂⟩,⟨some₃,all₃⟩,shape,rfl⟩
    refine ⟨_,rfl,currency,_,⟨some₁,all₁,rfl,?_⟩,_,rfl,amount,_,⟨some₂,all₂,rfl,?_⟩,_,rfl,chainId,_,
      ⟨some₃,all₃,rfl,?_⟩,hex,rfl,shape,rfl,rfl,rfl,rfl⟩
    all_goals
      rintro c ⟨⟩
      rfl

/-! ### Notes -/

theorem toNoteString_toList (note : Note) (currency amount : String) (chainId : ChainId) :
    (toNoteString note currency amount chainId).toList =
      "tornado-".toList ++ (currency.toList ++ ("-".toList ++ (amount.toList ++ ("-".toList ++
        (chainId.text.toList ++ ("-0x".toList ++ hexDigits note.preimage)))))) := by
  simp [toNoteString,toHex,toString]

theorem ChainId.text_is {chainId : ChainId} {n : Nat} (is : chainId.Is n) :
    chainId.text.toList = Nat.toDigits 10 n := by
  cases chainId with
  | number x =>
    obtain ⟨rfl,safe⟩ := is
    rw [ChainId.text,numberText_safe safe,String.toList_ofList]
  | bigint i =>
    cases is
    exact Nat.toList_repr

/-- The bytes of a note's secrets. -/
theorem noteFromSecrets_eq_ok {pedersenHash : Bytes → Nat} {nullifier secret : Nat} {note : Note} :
    noteFromSecrets pedersenHash nullifier secret = .ok note ↔
      ∃ first last, numberToBytesLE nullifier 31 = .ok first ∧ numberToBytesLE secret 31 = .ok last ∧
        note = ⟨nullifier,secret,pedersenHash (first ++ last),pedersenHash first,first ++ last⟩ := by
  rw [noteFromSecrets]
  constructor
  · intro made
    obtain ⟨first,encoded,made⟩ := bind_ok_iff.mp made
    obtain ⟨last,encoded',made⟩ := bind_ok_iff.mp made
    cases made
    exact ⟨first,last,encoded,encoded',rfl⟩
  · rintro ⟨first,last,encoded,encoded',rfl⟩
    rw [encoded,encoded']
    rfl

theorem parseNoteString_eq_ok {pedersenHash : Bytes → Nat} {text : String} {parsed : ParsedNote} :
    parseNoteString pedersenHash text = .ok parsed ↔
      ∃ currency amount chainId hex preimage note n,
        noteRegex (trim text.toList) = some (currency,amount,chainId,hex) ∧
        hexToBytes hex = .ok preimage ∧
        noteFromSecrets pedersenHash (bytesToNumberLE (slice preimage 0 31))
          (bytesToNumberLE (slice preimage 31 62)) = .ok note ∧
        bigIntOfText (String.ofList chainId) = some n ∧
        parsed = { note with
          currency := String.ofList currency
          amount := String.ofList amount
          chainId := n } := by
  rw [parseNoteString]
  constructor
  · intro accepted
    split at accepted
    · cases accepted
    · next currency amount chainId hex found =>
      obtain ⟨preimage,decoded,accepted⟩ := bind_ok_iff.mp accepted
      obtain ⟨note,made,accepted⟩ := bind_ok_iff.mp accepted
      split at accepted
      · cases accepted
      · next n read =>
        cases accepted
        exact ⟨currency,amount,chainId,hex,preimage,note,n,found,decoded,made,read,rfl⟩
  · rintro ⟨currency,amount,chainId,hex,preimage,note,n,found,decoded,made,read,rfl⟩
    rw [found]
    refine bind_ok_iff.mpr ⟨preimage,decoded,bind_ok_iff.mpr ⟨note,made,?_⟩⟩
    rw [read]
    rfl

theorem plain_of_all {text : List Char} (all : (text.all fun c => !isWhitespace c) = true) :
    ∀ c ∈ text, isWhitespace c = false := by
  intro c member
  simpa using List.all_eq_true.mp all c member

/-- A note whose currency and amount are in the grammar comes back from its text. -/
theorem roundTrips (pedersenHash : Bytes → Nat) {currency amount : String} {chainId : ChainId} {n : Nat}
    (currency_some : currency ≠ "") (currency_class : ∀ c ∈ currency.toList, c.isAlphanum)
    (amount_some : amount ≠ "") (amount_class : ∀ c ∈ amount.toList, c.isDigit || c == '.')
    (is : chainId.Is n) : RoundTrips pedersenHash currency amount chainId n := by
  intro nullifier secret small small'
  rw [two_pow_248] at small small'
  obtain ⟨first,encoded⟩ : ∃ first, numberToBytesLE nullifier 31 = .ok first :=
    ⟨_,by rw [numberToBytesLE,if_pos small]⟩
  obtain ⟨last,encoded'⟩ : ∃ last, numberToBytesLE secret 31 = .ok last :=
    ⟨_,by rw [numberToBytesLE,if_pos small']⟩
  let note : Note :=
    ⟨nullifier,secret,pedersenHash (first ++ last),pedersenHash first,first ++ last⟩
  have made : noteFromSecrets pedersenHash nullifier secret = .ok note :=
    noteFromSecrets_eq_ok.mpr ⟨first,last,encoded,encoded',rfl⟩
  refine ⟨note,made,rfl,rfl,parseNoteString_eq_ok.mpr ?_⟩
  have length := numberToBytesLE_length encoded
  have length' := numberToBytesLE_length encoded'
  have front : slice (first ++ last) 0 31 = first := by simp [slice,length]
  have back : slice (first ++ last) 31 62 = last := by simp [slice,length,length']
  refine ⟨currency.toList,amount.toList,chainId.text.toList,hexDigits (first ++ last),
    first ++ last,note,n,?_,hexToBytes_hexDigits _,?_,?_,?_⟩
  · have digits : ∀ c ∈ chainId.text.toList, c.isDigit := by
      rw [ChainId.text_is is]
      exact fun c member => Nat.isDigit_of_mem_toDigits (by decide) (by decide) member
    have hex := hexDigits_hex (first ++ last)
    rw [trim_plain]
    · refine noteRegex_eq_some.mpr ⟨⟨by simpa using currency_some,currency_class⟩,
        ⟨by simpa using amount_some,amount_class⟩,⟨?_,digits⟩,⟨?_,hex⟩,toNoteString_toList _ _ _ _⟩
      · rw [ChainId.text_is is]
        exact Nat.toDigits_ne_nil
      · rw [hexDigits_length,List.length_append,length,length']
    · rw [toNoteString_toList]
      have dash : ∀ c ∈ "-".toList, isWhitespace c = false := plain_of_all (by decide)
      have amounts : ∀ c ∈ amount.toList, isWhitespace c = false := by
        intro c member
        rcases Bool.or_eq_true_iff.mp (amount_class c member) with digit | dot
        · exact digit_not_whitespace digit
        · rw [beq_iff_eq.mp dot]
          decide
      simp only [List.forall_mem_append]
      exact ⟨plain_of_all (by decide),fun c member => alphanum_plain (currency_class c member),dash,
        amounts,dash,fun c member => digit_not_whitespace (digits c member),
        plain_of_all (by decide),fun c member => hex_plain (hex c member)⟩
  · rw [front,back,bytesToNumberLE_numberToBytesLE encoded,bytesToNumberLE_numberToBytesLE encoded']
    exact made
  · have text : String.ofList chainId.text.toList = (n : Int).repr := by
      rw [ChainId.text_is is,← Nat.toList_repr,String.ofList_toList]
      rfl
    rw [text,bigIntOfText_repr]
  · simp only [String.ofList_toList]

theorem bigIntOfText_digits {text : List Char} {i : Int} (some : text ≠ [])
    (digits : ∀ c ∈ text, c.isDigit) (read : bigIntOfText (String.ofList text) = .some i) :
    ∃ n : Nat, i = n ∧ readDigits 10 text = .some n := by
  rw [bigIntOfText,String.toList_ofList,trim_plain fun c member => digit_not_whitespace (digits c member),
    readNumeral_digits digits some] at read
  obtain ⟨n,value,rfl⟩ := Option.map_eq_some_iff.mp read
  exact ⟨n,rfl,value⟩

/-- A text that is accepted is the text of what it is read as. -/
theorem rendered_same {pedersenHash : Bytes → Nat} {text : String} {parsed : ParsedNote}
    (accepted : parseNoteString pedersenHash text = .ok parsed) :
    SameText text.toList
      (toNoteString parsed.toNote parsed.currency parsed.amount (.bigint parsed.chainId)).toList := by
  obtain ⟨currency,amount,chainId,hex,preimage,note,i,found,decoded,made,read,rfl⟩ :=
    parseNoteString_eq_ok.mp accepted
  obtain ⟨⟨_,currency_class⟩,⟨_,amount_class⟩,⟨some,digits⟩,⟨long,hex_class⟩,matched⟩ :=
    noteRegex_eq_some.mp found
  obtain ⟨before,after,blank,blank',whole⟩ := trim_split text.toList
  obtain ⟨n,rfl,value⟩ := bigIntOfText_digits some digits read
  obtain ⟨k,zeros⟩ := readDigits_zeros digits value
  have bytes := hexToBytes_length decoded
  have preimage_eq : note.preimage = preimage := by
    obtain ⟨first,last,encoded,encoded',rfl⟩ := noteFromSecrets_eq_ok.mp made
    have length : (slice preimage 0 31).length = 31 := slice_length (by omega)
    have length' : (slice preimage 31 62).length = 31 := slice_length (by omega)
    have own := numberToBytesLE_bytesToNumberLE (slice preimage 0 31)
    have own' := numberToBytesLE_bytesToNumberLE (slice preimage 31 62)
    rw [length] at own
    rw [length'] at own'
    rw [own] at encoded
    rw [own'] at encoded'
    cases encoded
    cases encoded'
    have full : preimage.length = 62 := by omega
    have joined := slice_append_slice preimage (by decide : 0 ≤ 31) (by decide : 31 ≤ 62)
    have all := slice_all preimage
    rw [full] at all
    exact joined.trans all
  refine ⟨before,currency,amount,List.replicate k '0',Nat.toDigits 10 n,hex,after,blank,blank',
    fun c member => List.eq_of_mem_replicate member,?_,?_,?_,?_,?_,?_⟩
  · exact fun dash => absurd (currency_class _ dash) (by decide)
  · exact fun dash => absurd (amount_class _ dash) (by decide)
  · exact fun dash => absurd (Nat.isDigit_of_mem_toDigits (by decide) (by decide) dash) (by decide)
  · exact fun dash => absurd (hex_class _ dash) (by decide)
  · rw [whole,matched,zeros]
    simp
  · rw [toNoteString_toList,preimage_eq,hexDigits_hexToBytes decoded]
    have text : (ChainId.bigint n).text.toList = Nat.toDigits 10 n := ChainId.text_is rfl
    simp [text]

/-- Every note survives the trip through its text, and every accepted text the trip through
the note. -/
theorem notes_survive (pedersenHash : Bytes → Nat) :
    (∀ currency amount chainId n,
      (currency ≠ "" ∧ ∀ c ∈ currency.toList, c.isAlphanum) →
      (amount ≠ "" ∧ ∀ c ∈ amount.toList, c.isDigit || c == '.') →
      ChainId.Is chainId n → RoundTrips pedersenHash currency amount chainId n) ∧
    ∀ text parsed, parseNoteString pedersenHash text = .ok parsed →
      SameText text.toList
        (toNoteString parsed.toNote parsed.currency parsed.amount (.bigint parsed.chainId)).toList :=
  ⟨fun _ _ _ _ currency amount is =>
    roundTrips pedersenHash currency.1 currency.2 amount.1 amount.2 is,
    fun _ _ accepted => rendered_same accepted⟩

theorem notes_survive_eth : ∃ text parsed, parseNoteString List.length text = .ok parsed ∧
    parsed.nullifier = 5 ∧ parsed.secret = 7 ∧ parsed.chainId = 1 ∧
    SameText text.toList
      (toNoteString parsed.toNote parsed.currency parsed.amount (.bigint parsed.chainId)).toList := by
  obtain ⟨note,_,nullifier,secret,parsed⟩ := (notes_survive List.length).1 "eth" "0.1" (.number 1) 1
    ⟨by decide,List.all_eq_true.mp (by decide)⟩ ⟨by decide,List.all_eq_true.mp (by decide)⟩
    ⟨rfl,by decide⟩ 5 7 (by norm_num) (by norm_num)
  exact ⟨_,_,parsed,nullifier,secret,rfl,(notes_survive List.length).2 _ _ parsed⟩

/-- No text of a note with an empty currency or amount is accepted, nor one whose chain id is a
number too large for plain digits. -/
theorem empty_or_unsafe_refused :
    ¬RoundTrips List.length "" "0.1" (.number 1) 1 ∧
    ¬RoundTrips List.length "eth" "" (.number 1) 1 ∧
    ¬RoundTrips List.length "eth" "0.1" (.number (10 ^ 21)) (10 ^ 21) := by
  let blank : Note := ⟨0,0,62,31,List.replicate 62 0⟩
  have made : noteFromSecrets List.length 0 0 = .ok blank := by rfl
  have refused (currency amount : String) (chainId : ChainId) (n : Nat)
      (unmatched : noteRegex (trim (toNoteString blank currency amount chainId).toList) = none) :
      ¬RoundTrips List.length currency amount chainId n := by
    intro trips
    obtain ⟨note,same,_,_,parsed⟩ := trips 0 0 (by norm_num) (by norm_num)
    cases made.symm.trans same
    obtain ⟨_,_,_,_,_,_,_,found,_⟩ := parseNoteString_eq_ok.mp parsed
    rw [unmatched] at found
    cases found
  exact ⟨refused _ _ _ _ (by decide +kernel),refused _ _ _ _ (by decide +kernel),
    refused _ _ _ _ (by decide +kernel)⟩

end TornadoRelayer.TornadoNote
