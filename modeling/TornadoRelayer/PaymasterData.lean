import TornadoRelayer.Paymaster

/-! The wire format of `paymasterAndData`: the relayer's encoder and the
contract's decoder are inverse to each other on strings of exactly 317 bytes. -/
namespace TornadoRelayer.Paymaster

open BigEndian

/-- The contract's terms as the relayer holds them. -/
def Terms.toFeeTerms (t : Terms) : FeeTerms where
  validUntil := (t.validUntil.toNat : ℚ)
  validAfter := (t.validAfter.toNat : ℚ)
  fee := t.fee.toNat
  serviceFee := t.serviceFee.toNat
  refundTo := t.refundTo
  feeToken := t.feeToken
  tokenPerEth := t.tokenPerEth.toNat
  withdrawalHash := t.withdrawalHash
  senderImplementation := t.senderImplementation

def Terms.ofFeeTerms (terms : FeeTerms) : Terms where
  validUntil := BitVec.ofInt 48 terms.validUntil.num
  validAfter := BitVec.ofInt 48 terms.validAfter.num
  fee := BitVec.ofInt 256 terms.fee
  serviceFee := BitVec.ofInt 256 terms.serviceFee
  refundTo := terms.refundTo
  feeToken := terms.feeToken
  tokenPerEth := BitVec.ofInt 256 terms.tokenPerEth
  withdrawalHash := terms.withdrawalHash
  senderImplementation := terms.senderImplementation

theorem toNat_ofInt_cast {w : Nat} {v : Int} (range : 0 ≤ v ∧ v < 2 ^ w) :
    ((BitVec.ofInt w v).toNat : Int) = v := by
  rw [BitVec.toNat_ofInt]
  have wrap : v % ((2 ^ w : Nat) : Int) = v := by
    push_cast
    exact Int.emod_eq_of_lt range.1 range.2
  rw [wrap,Int.toNat_of_nonneg range.1]

theorem Terms.toFeeTerms_ofFeeTerms {terms : FeeTerms} (range : terms.InRange) :
    (Terms.ofFeeTerms terms).toFeeTerms = terms := by
  obtain ⟨n,hn,until_⟩ := range.validUntil
  obtain ⟨m,hm,after⟩ := range.validAfter
  have number (k : Nat) (hk : k < 2 ^ 48) : (BitVec.ofInt 48 ((k : ℚ).num)).toNat = k := by
    rw [Rat.num_natCast]
    exact_mod_cast toNat_ofInt_cast (w := 48) (v := k) ⟨by omega,by exact_mod_cast hk⟩
  cases terms
  simp only at until_ after
  subst until_ after
  simp only [Terms.ofFeeTerms,Terms.toFeeTerms,number n hn,number m hm,toNat_ofInt_cast range.fee,
    toNat_ofInt_cast range.serviceFee,toNat_ofInt_cast range.tokenPerEth]

/-- Everything `paymasterAndData` carries. -/
structure PaymasterAndData where
  paymaster : Address
  paymasterVerificationGasLimit : Word 16
  paymasterPostOpGasLimit : Word 16
  terms : Terms
  signature : Bytes
  signatureLength : signature.length = SIGNATURE_LENGTH

def PaymasterAndData.encode (x : PaymasterAndData) : Except Thrown Bytes := do
  let paymasterData ← encodePaymasterData x.terms.toFeeTerms x.signature
  return x.paymaster.bytes ++ (x.paymasterVerificationGasLimit.bytes ++
    (x.paymasterPostOpGasLimit.bytes ++ paymasterData))

def Terms.fields (t : Terms) : List Bytes :=
  [t.validUntil.bytes, t.validAfter.bytes, t.fee.bytes, t.serviceFee.bytes, t.refundTo.bytes,
    t.feeToken.bytes, t.tokenPerEth.bytes, t.withdrawalHash.bytes, t.senderImplementation.bytes]

def PaymasterAndData.fields (x : PaymasterAndData) : List Bytes :=
  [x.paymaster.bytes, x.paymasterVerificationGasLimit.bytes, x.paymasterPostOpGasLimit.bytes] ++
    (x.terms.fields ++ [x.signature])

/-! ### The encoder -/

theorem numberToHex_word {n : Nat} (w : Word n) : numberToHex n w.toNat = .ok w.toNat := by
  have fits : (w.toNat : Int) < 256 ^ n := by exact_mod_cast w.toNat_lt
  simp [numberToHex,fits]

theorem bigInt_natCast (n : Nat) : bigInt (n : ℚ) = .ok n := by simp [bigInt]

@[simp] theorem encodePacked_uint {n : Nat} (w : Word n) :
    encodePackedParameter (.uint n w.toNat) = .ok w.bytes := by
  simp only [encodePackedParameter,numberToHex_word]
  rfl

@[simp] theorem encodePacked_number {n : Nat} (w : Word n) :
    encodePackedParameter (.number n (w.toNat : ℚ)) = .ok w.bytes := by
  simp only [encodePackedParameter,bigInt_natCast]
  change (do return toBytes n (← numberToHex n w.toNat)) = _
  rw [numberToHex_word]
  rfl

@[simp] theorem encodePacked_bytes32 (w : Bytes32) :
    encodePackedParameter (.bytes32 w.bytes) = .ok w.bytes := by
  simp [encodePackedParameter]

@[simp] theorem encodePacked_address (a : Address) :
    encodePackedParameter (.address a) = .ok a.bytes := rfl

@[simp] theorem encodePacked_raw (b : Bytes) : encodePackedParameter (.bytes b) = .ok b := rfl

theorem encodePaymasterData_terms (t : Terms) {signature : Bytes}
    (exact : signature.length = SIGNATURE_LENGTH) :
    encodePaymasterData t.toFeeTerms signature = .ok (t.fields ++ [signature]).flatten := by
  rw [encodePaymasterData,if_neg (not_not.mpr exact),encodePacked_ok_iff]
  refine ⟨_,?_,rfl⟩
  exact .cons (encodePacked_number _) <| .cons (encodePacked_number _) <|
    .cons (encodePacked_uint _) <| .cons (encodePacked_uint _) <|
    .cons (encodePacked_address _) <| .cons (encodePacked_address _) <|
    .cons (encodePacked_uint _) <| .cons (encodePacked_bytes32 _) <|
    .cons (encodePacked_address _) <| .cons (encodePacked_raw _) .nil

theorem PaymasterAndData.encode_eq (x : PaymasterAndData) : x.encode = .ok x.fields.flatten := by
  rw [PaymasterAndData.encode,encodePaymasterData_terms x.terms x.signatureLength]
  rfl

theorem encodePackedParameter_length {p : AbiParam} {b : Bytes}
    (encoded : encodePackedParameter p = .ok b) :
    b.length = match p with
      | .uint size _ | .number size _ => size
      | .address _ => 20
      | .bytes32 _ => 32
      | .bytes raw => raw.length := by
  cases p with
  | uint size v =>
    cases range : numberToHex size v with
    | error e => simp [encodePackedParameter,range,bind,Except.bind] at encoded
    | ok n =>
      simp only [encodePackedParameter,range,bind,Except.bind,pure,Except.pure,Except.ok.injEq] at encoded
      simp [← encoded]
  | number size v =>
    cases whole : bigInt v with
    | error e => simp [encodePackedParameter,whole,bind,Except.bind] at encoded
    | ok i =>
      cases range : numberToHex size i with
      | error e => simp [encodePackedParameter,whole,range,bind,Except.bind] at encoded
      | ok n =>
        simp only [encodePackedParameter,whole,range,bind,Except.bind,pure,Except.pure,
          Except.ok.injEq] at encoded
        simp [← encoded]
  | address a =>
    simp only [encodePackedParameter,Except.ok.injEq] at encoded
    simp [← encoded]
  | bytes32 raw =>
    simp only [encodePackedParameter] at encoded
    split at encoded
    · next exact => simpa [← Except.ok.inj encoded] using exact
    · contradiction
  | bytes raw =>
    simp only [encodePackedParameter,Except.ok.injEq] at encoded
    simp [← encoded]

theorem encodePaymasterData_signature {terms : FeeTerms} {signature data : Bytes}
    (encoded : encodePaymasterData terms signature = .ok data) :
    signature.length = SIGNATURE_LENGTH := by
  rw [encodePaymasterData] at encoded
  split at encoded
  · contradiction
  · next exact => exact not_not.mp exact

/-- Whatever the terms, an encoding has the length the contract expects. -/
theorem encodePaymasterData_length {terms : FeeTerms} {signature data : Bytes}
    (encoded : encodePaymasterData terms signature = .ok data) :
    PAYMASTER_DATA_OFFSET + data.length = PAYMASTER_AND_DATA_LENGTH := by
  have lengths := encodePaymasterData_signature encoded
  rw [encodePaymasterData,if_neg (not_not.mpr lengths)] at encoded
  obtain ⟨fields,each,rfl⟩ := encodePacked_ok_iff.mp encoded
  simp only [List.forall₂_cons_left_iff,List.forall₂_nil_left_iff] at each
  obtain ⟨_,_,h1,⟨_,_,h2,⟨_,_,h3,⟨_,_,h4,⟨_,_,h5,⟨_,_,h6,⟨_,_,h7,⟨_,_,h8,⟨_,_,h9,⟨_,_,h10,
    rfl,rfl⟩,rfl⟩,rfl⟩,rfl⟩,rfl⟩,rfl⟩,rfl⟩,rfl⟩,rfl⟩,rfl⟩ := each
  simp only [List.flatten_cons,List.flatten_nil,List.length_append,List.length_nil,
    encodePackedParameter_length h1,encodePackedParameter_length h2,
    encodePackedParameter_length h3,encodePackedParameter_length h4,
    encodePackedParameter_length h5,encodePackedParameter_length h6,
    encodePackedParameter_length h7,encodePackedParameter_length h8,
    encodePackedParameter_length h9,encodePackedParameter_length h10,lengths]
  rfl

/-! ### The decoder -/

theorem PaymasterAndData.fields_length (x : PaymasterAndData) :
    x.fields.map List.length = [20, 16, 16, 6, 6, 32, 32, 20, 20, 32, 32, 20, 65] := by
  simp only [PaymasterAndData.fields,Terms.fields,List.cons_append,List.nil_append,List.map_cons,
    List.map_nil,Word.bytes_length,x.signatureLength]
  rfl

/-- Each offset of the contract is the end of the fields before it. -/
theorem PaymasterAndData.field_slice (x : PaymasterAndData) {k i j : Nat} {field : Bytes}
    (at_ : x.fields[k]? = some field)
    (start : (([20, 16, 16, 6, 6, 32, 32, 20, 20, 32, 32, 20, 65] : List Nat).take k).sum = i)
    (stop : ([20, 16, 16, 6, 6, 32, 32, 20, 20, 32, 32, 20, 65] : List Nat)[k]? = some (j - i)) :
    slice x.fields.flatten i j = field := by
  obtain ⟨inside,rfl⟩ := List.getElem?_eq_some_iff.mp at_
  apply slice_flatten inside
  · rw [List.length_flatten,List.map_take,x.fields_length,start]
  · rw [← x.fields_length,List.getElem?_map,List.getElem?_eq_getElem inside] at stop
    exact Option.some.inj stop

theorem parse_encoded (x : PaymasterAndData) :
    parsePaymasterAndData x.fields.flatten = .ok (x.terms,x.signature) := by
  have total : x.fields.flatten.length = PAYMASTER_AND_DATA_LENGTH := by
    rw [List.length_flatten,x.fields_length]
    rfl
  have tail : x.fields.flatten.drop SIGNATURE_OFFSET = x.signature := by
    have last := x.field_slice (k := 12) (i := SIGNATURE_OFFSET) (j := PAYMASTER_AND_DATA_LENGTH)
      rfl rfl rfl
    rwa [slice,List.take_of_length_le] at last
    rw [List.length_drop,total]
  have word {n k i j : Nat} {w : Word n} (at_ : x.fields[k]? = some w.bytes)
      (start : (([20, 16, 16, 6, 6, 32, 32, 20, 20, 32, 32, 20, 65] : List Nat).take k).sum = i)
      (stop : ([20, 16, 16, 6, 6, 32, 32, 20, 20, 32, 32, 20, 65] : List Nat)[k]? = some (j - i)) :
      Word.ofBytes n (slice x.fields.flatten i j) = w := by
    rw [x.field_slice at_ start stop,Word.ofBytes_bytes]
  rw [parsePaymasterAndData,if_neg (not_not.mpr total),tail]
  rw [word (k := 3) (i := VALID_UNTIL_OFFSET) (j := VALID_AFTER_OFFSET) rfl rfl rfl,
    word (k := 4) (i := VALID_AFTER_OFFSET) (j := FEE_OFFSET) rfl rfl rfl,
    word (k := 5) (i := FEE_OFFSET) (j := SERVICE_FEE_OFFSET) rfl rfl rfl,
    word (k := 6) (i := SERVICE_FEE_OFFSET) (j := REFUND_TO_OFFSET) rfl rfl rfl,
    word (k := 7) (i := REFUND_TO_OFFSET) (j := FEE_TOKEN_OFFSET) rfl rfl rfl,
    word (k := 8) (i := FEE_TOKEN_OFFSET) (j := TOKEN_PER_ETH_OFFSET) rfl rfl rfl,
    word (k := 9) (i := TOKEN_PER_ETH_OFFSET) (j := WITHDRAWAL_HASH_OFFSET) rfl rfl rfl,
    word (k := 10) (i := WITHDRAWAL_HASH_OFFSET) (j := SENDER_IMPL_OFFSET) rfl rfl rfl,
    word (k := 11) (i := SENDER_IMPL_OFFSET) (j := SIGNATURE_OFFSET) rfl rfl rfl]

/-! ### Every string of the right length -/

/-- The fields a string of the right length holds. -/
def PaymasterAndData.ofBytes (data : Bytes) (exact : data.length = PAYMASTER_AND_DATA_LENGTH) :
    PaymasterAndData where
  paymaster := Word.ofBytes 20 (slice data 0 20)
  paymasterVerificationGasLimit := Word.ofBytes 16 (slice data 20 36)
  paymasterPostOpGasLimit := Word.ofBytes 16 (slice data 36 52)
  terms :=
    { validUntil := Word.ofBytes 6 (slice data VALID_UNTIL_OFFSET VALID_AFTER_OFFSET)
      validAfter := Word.ofBytes 6 (slice data VALID_AFTER_OFFSET FEE_OFFSET)
      fee := Word.ofBytes 32 (slice data FEE_OFFSET SERVICE_FEE_OFFSET)
      serviceFee := Word.ofBytes 32 (slice data SERVICE_FEE_OFFSET REFUND_TO_OFFSET)
      refundTo := Word.ofBytes 20 (slice data REFUND_TO_OFFSET FEE_TOKEN_OFFSET)
      feeToken := Word.ofBytes 20 (slice data FEE_TOKEN_OFFSET TOKEN_PER_ETH_OFFSET)
      tokenPerEth := Word.ofBytes 32 (slice data TOKEN_PER_ETH_OFFSET WITHDRAWAL_HASH_OFFSET)
      withdrawalHash := Word.ofBytes 32 (slice data WITHDRAWAL_HASH_OFFSET SENDER_IMPL_OFFSET)
      senderImplementation := Word.ofBytes 20 (slice data SENDER_IMPL_OFFSET SIGNATURE_OFFSET) }
  signature := slice data SIGNATURE_OFFSET PAYMASTER_AND_DATA_LENGTH
  signatureLength := by
    rw [slice_length exact.ge]
    rfl

theorem PaymasterAndData.fields_ofBytes (data : Bytes)
    (exact : data.length = PAYMASTER_AND_DATA_LENGTH) :
    (PaymasterAndData.ofBytes data exact).fields.flatten = data := by
  have word (n i j : Nat) (width : j - i = n) (inside : j ≤ PAYMASTER_AND_DATA_LENGTH) :
      (Word.ofBytes n (slice data i j)).bytes = slice data i j := by
    apply Word.bytes_ofBytes
    rw [slice_length (inside.trans exact.ge),width]
  have join (i j k : Nat) (hij : i ≤ j) (hjk : j ≤ k) := slice_append_slice data hij hjk
  simp only [PaymasterAndData.fields,Terms.fields,PaymasterAndData.ofBytes,List.cons_append,
    List.nil_append,List.flatten_cons,List.flatten_nil,List.append_nil]
  rw [word 20 0 20 rfl (by decide),word 16 20 36 rfl (by decide),word 16 36 52 rfl (by decide),
    word 6 VALID_UNTIL_OFFSET VALID_AFTER_OFFSET rfl (by decide),
    word 6 VALID_AFTER_OFFSET FEE_OFFSET rfl (by decide),
    word 32 FEE_OFFSET SERVICE_FEE_OFFSET rfl (by decide),
    word 32 SERVICE_FEE_OFFSET REFUND_TO_OFFSET rfl (by decide),
    word 20 REFUND_TO_OFFSET FEE_TOKEN_OFFSET rfl (by decide),
    word 20 FEE_TOKEN_OFFSET TOKEN_PER_ETH_OFFSET rfl (by decide),
    word 32 TOKEN_PER_ETH_OFFSET WITHDRAWAL_HASH_OFFSET rfl (by decide),
    word 32 WITHDRAWAL_HASH_OFFSET SENDER_IMPL_OFFSET rfl (by decide),
    word 20 SENDER_IMPL_OFFSET SIGNATURE_OFFSET rfl (by decide)]
  rw [join SENDER_IMPL_OFFSET SIGNATURE_OFFSET _ (by decide) (by decide),
    join WITHDRAWAL_HASH_OFFSET SENDER_IMPL_OFFSET _ (by decide) (by decide),
    join TOKEN_PER_ETH_OFFSET WITHDRAWAL_HASH_OFFSET _ (by decide) (by decide),
    join FEE_TOKEN_OFFSET TOKEN_PER_ETH_OFFSET _ (by decide) (by decide),
    join REFUND_TO_OFFSET FEE_TOKEN_OFFSET _ (by decide) (by decide),
    join SERVICE_FEE_OFFSET REFUND_TO_OFFSET _ (by decide) (by decide),
    join FEE_OFFSET SERVICE_FEE_OFFSET _ (by decide) (by decide),
    join VALID_AFTER_OFFSET FEE_OFFSET _ (by decide) (by decide),
    join VALID_UNTIL_OFFSET VALID_AFTER_OFFSET _ (by decide) (by decide),
    show VALID_UNTIL_OFFSET = 52 from rfl,join 36 52 _ (by decide) (by decide),join 20 36 _ (by decide) (by decide),
    join 0 20 _ (by decide) (by decide),← exact,slice_all]

/-- The layout determines its fields: all of them have fixed widths. -/
theorem PaymasterAndData.fields_injective {x y : PaymasterAndData}
    (same : x.fields.flatten = y.fields.flatten) : x = y := by
  have fields : x.fields = y.fields :=
    List.eq_iff_flatten_eq.mpr ⟨same,x.fields_length.trans y.fields_length.symm⟩
  obtain ⟨p,v,o,⟨t1,t2,t3,t4,t5,t6,t7,t8,t9⟩,s,_⟩ := x
  obtain ⟨p',v',o',⟨u1,u2,u3,u4,u5,u6,u7,u8,u9⟩,s',_⟩ := y
  simp only [PaymasterAndData.fields,Terms.fields,List.cons_append,List.nil_append,
    List.cons.injEq,and_true] at fields
  obtain ⟨hp,hv,ho,h1,h2,h3,h4,h5,h6,h7,h8,h9,hs⟩ := fields
  cases Word.bytes_injective hp
  cases Word.bytes_injective hv
  cases Word.bytes_injective ho
  cases Word.bytes_injective h1
  cases Word.bytes_injective h2
  cases Word.bytes_injective h3
  cases Word.bytes_injective h4
  cases Word.bytes_injective h5
  cases Word.bytes_injective h6
  cases Word.bytes_injective h7
  cases Word.bytes_injective h8
  cases Word.bytes_injective h9
  cases hs
  rfl

/-- Encoding and decoding are mutually inverse on the strings of 317 bytes; any
other length is refused by the decoder and never produced by the encoder. -/
theorem paymasterAndData_round_trip :
    (∀ (terms : FeeTerms) (signature : Bytes) (paymaster : Address)
      (verificationGasLimit postOpGasLimit : Word 16),
      terms.InRange → signature.length = 65 →
      ∃ data t, encodePaymasterData terms signature = .ok data ∧
        parsePaymasterAndData (paymaster.bytes ++ (verificationGasLimit.bytes ++
          (postOpGasLimit.bytes ++ data))) = .ok (t,signature) ∧ t.toFeeTerms = terms) ∧
    (∀ data : Bytes, data.length = 317 → ∃! x : PaymasterAndData, x.encode = .ok data) ∧
    (∀ data : Bytes, data.length ≠ 317 →
      parsePaymasterAndData data = .error (.invalidPaymasterDataLength data.length 317)) ∧
    (∀ (terms : FeeTerms) (signature : Bytes), signature.length ≠ 65 →
      encodePaymasterData terms signature = .error (.error "signature must be 65 bytes")) ∧
    ∀ (terms : FeeTerms) (signature data : Bytes),
      encodePaymasterData terms signature = .ok data → 52 + data.length = 317 := by
  refine ⟨?_,?_,?_,?_,?_⟩
  · intro terms signature paymaster verificationGasLimit postOpGasLimit range length
    let x : PaymasterAndData :=
      ⟨paymaster,verificationGasLimit,postOpGasLimit,Terms.ofFeeTerms terms,signature,length⟩
    have encoded := encodePaymasterData_terms x.terms x.signatureLength
    have same : x.terms.toFeeTerms = terms := Terms.toFeeTerms_ofFeeTerms range
    rw [same] at encoded
    exact ⟨_,x.terms,encoded,parse_encoded x,same⟩
  · intro data length
    have exact : data.length = PAYMASTER_AND_DATA_LENGTH := length
    have layout := PaymasterAndData.fields_ofBytes data exact
    refine ⟨PaymasterAndData.ofBytes data exact,?_,?_⟩
    · change PaymasterAndData.encode _ = _
      rw [PaymasterAndData.encode_eq,layout]
    · intro y encoded
      rw [y.encode_eq] at encoded
      apply PaymasterAndData.fields_injective
      rw [Except.ok.inj encoded,layout]
  · intro data wrong
    exact if_pos wrong
  · intro terms signature wrong
    exact if_pos wrong
  · intro terms signature data encoded
    exact encodePaymasterData_length encoded

/-- Terms with a token, a rate that needs more than 16 bytes, and an implementation. -/
def sampleTerms : FeeTerms where
  validUntil := 1700000300
  validAfter := 1700000000
  fee := 10 ^ 16
  serviceFee := 10 ^ 13
  refundTo := 0xacc0
  feeToken := 0x70c3
  tokenPerEth := 2 ^ 130
  withdrawalHash := 0xabcd
  senderImplementation := 0x5afe

theorem sampleTerms_inRange : sampleTerms.InRange where
  validUntil := ⟨1700000300,by decide,rfl⟩
  validAfter := ⟨1700000000,by decide,rfl⟩
  fee := by decide
  serviceFee := by decide
  tokenPerEth := by decide

theorem paymasterAndData_round_trip_sample : ∃ data t,
    encodePaymasterData sampleTerms DUMMY_SIGNATURE = .ok data ∧ 52 + data.length = 317 ∧
      parsePaymasterAndData (Word.bytes (0x9a7e : Address) ++ (Word.bytes (60000 : Word 16) ++
        (Word.bytes (90000 : Word 16) ++ data))) = .ok (t,DUMMY_SIGNATURE) ∧
      t.toFeeTerms = sampleTerms := by
  obtain ⟨encodes,_,_,_,length⟩ := paymasterAndData_round_trip
  obtain ⟨data,t,encoded,parsed,same⟩ := encodes sampleTerms DUMMY_SIGNATURE 0x9a7e 60000 90000
    sampleTerms_inRange (by decide)
  exact ⟨data,t,encoded,length _ _ _ encoded,parsed,same⟩

/-! ### A sponsored operation -/

/-- A withdrawal for the account `0x51` that pays the paymaster its fee. -/
def masterWithdrawal (pool : Address) (fee : Word 32) : Withdrawal where
  pool := pool
  proof := []
  root := 0
  nullifierHash := 0
  recipient := 0x51
  relayer := 0xf1
  fee := fee

/-- Terms that name the withdrawal and promise its recipient a refund. -/
def sponsoring (w : Withdrawal) (feeToken : Address) (tokenPerEth : Word 32) : Terms where
  validUntil := 0
  validAfter := 0
  fee := w.fee
  serviceFee := 0
  refundTo := w.recipient
  feeToken := feeToken
  tokenPerEth := tokenPerEth
  withdrawalHash := withdrawalHash w
  senderImplementation := 0x5afe

def sponsoredData (terms : Terms) : PaymasterAndData where
  paymaster := 0xf1
  paymasterVerificationGasLimit := 90000
  paymasterPostOpGasLimit := 90000
  terms := terms
  signature := List.replicate 65 0
  signatureLength := by decide

def sponsoredOp (terms : Terms) : PackedUserOperation where
  sender := terms.refundTo
  nonce := 0
  initCode := []
  callData := []
  accountGasLimits := 0
  preVerificationGas := 0
  gasFees := 0
  paymasterAndData := (sponsoredData terms).fields.flatten
  signature := []

theorem sponsoredOp_parses (terms : Terms) :
    parsePaymasterAndData (sponsoredOp terms).paymasterAndData =
      .ok (terms,(sponsoredData terms).signature) := by
  rw [sponsoredOp,parse_encoded]
  rfl

end TornadoRelayer.Paymaster
