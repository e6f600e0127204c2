import TornadoRelayer.HashAgreement

/-! What a relayer signature binds. Two operations with one digest agree wherever
the contract reads them, or they exhibit a collision of the hash. -/
namespace TornadoRelayer.Paymaster

open BigEndian Keccak

/-! ### The hashed strings -/

def opWords (userOp : PackedUserOperation) (initCodeHash : Bytes32) : List Nat :=
  [userOp.sender.toNat, userOp.nonce.toNat, initCodeHash.toNat,
    (keccak256 userOp.callData).toNat, userOp.accountGasLimits.toNat,
    (Word.ofBytes 32 (slice userOp.paymasterAndData PAYMASTER_VALIDATION_GAS_OFFSET
      PAYMASTER_DATA_OFFSET)).toNat,
    userOp.preVerificationGas.toNat, userOp.gasFees.toNat]

/-- The strings validation hashes, innermost first, when the initCode's normal form
and the terms are these. -/
def hashedStrings (chain : Chain) (self : Address) (userOp : PackedUserOperation)
    (normal : Bytes) (t : Terms) : List Bytes :=
  let fields := abiEncode (opWords userOp (keccak256 normal))
  let hash := abiEncode (termWords (keccak256 fields) chain.chainid.toNat self t)
  [userOp.callData, normal, fields, hash, ETH_SIGNED_MESSAGE_PREFIX ++ (keccak256 hash).bytes]

theorem opWords_fit (userOp : PackedUserOperation) (h : Bytes32) :
    ∀ v ∈ opWords userOp h, v < 256 ^ 32 := by
  have word (w : Word 32) := Word.fits w le_rfl
  simp only [opWords,List.forall_mem_cons]
  exact ⟨Word.fits userOp.sender (by decide),word _,word _,word _,word _,word _,word _,word _,by simp⟩

theorem termWords_fit (h : Bytes32) (chainid : Word 32) (self : Address) (t : Terms) :
    ∀ v ∈ termWords h chainid.toNat self t, v < 256 ^ 32 := by
  have word (w : Word 32) := Word.fits w le_rfl
  have address (a : Address) := Word.fits a (by decide)
  have time (w : Word 6) := Word.fits w (by decide)
  simp only [termWords,List.forall_mem_cons]
  exact ⟨word _,word _,address _,time _,time _,word _,word _,address _,address _,word _,word _,
    address _,by simp⟩

/-- Operations that agree in everything the fields hash covers. -/
structure SameFields (a b : PackedUserOperation) : Prop where
  sender : a.sender = b.sender
  nonce : a.nonce = b.nonce
  callData : a.callData = b.callData
  accountGasLimits : a.accountGasLimits = b.accountGasLimits
  paymasterGas : Word.ofBytes 32 (slice a.paymasterAndData PAYMASTER_VALIDATION_GAS_OFFSET
      PAYMASTER_DATA_OFFSET) =
    Word.ofBytes 32 (slice b.paymasterAndData PAYMASTER_VALIDATION_GAS_OFFSET
      PAYMASTER_DATA_OFFSET)
  preVerificationGas : a.preVerificationGas = b.preVerificationGas
  gasFees : a.gasFees = b.gasFees

theorem abiEncode_opWords {a b : PackedUserOperation} {h k : Bytes32}
    (same : abiEncode (opWords a h) = abiEncode (opWords b k)) :
    h = k ∧ (a.callData = b.callData → SameFields a b) ∧
      keccak256 a.callData = keccak256 b.callData := by
  have words := abiEncode_injective (opWords_fit a h) (opWords_fit b k) rfl same
  simp only [opWords,List.cons.injEq,BitVec.toNat_inj,and_true] at words
  obtain ⟨sender,nonce,initHash,callHash,accountGas,paymasterGas,preVerification,gasFees⟩ := words
  exact ⟨initHash,
    fun callData => ⟨sender,nonce,callData,accountGas,paymasterGas,preVerification,gasFees⟩,callHash⟩

theorem abiEncode_termWords {h k : Bytes32} {chainid chainid' : Word 32} {self self' : Address}
    {t u : Terms} (same : abiEncode (termWords h chainid.toNat self t) =
      abiEncode (termWords k chainid'.toNat self' u)) :
    h = k ∧ chainid = chainid' ∧ self = self' ∧ t = u := by
  have words := abiEncode_injective (termWords_fit h chainid self t)
    (termWords_fit k chainid' self' u) rfl same
  obtain ⟨_,_,_,_,_,_,_,_,_⟩ := t
  obtain ⟨_,_,_,_,_,_,_,_,_⟩ := u
  simp only [termWords,List.cons.injEq,BitVec.toNat_inj,and_true] at words
  obtain ⟨fieldsHash,chain,account,rfl,rfl,rfl,rfl,rfl,rfl,rfl,rfl,rfl⟩ := words
  exact ⟨fieldsHash,chain,account,rfl⟩

/-- The digest as validation computes it from the normal form and the terms. -/
def digestOf (chain : Chain) (self : Address) (userOp : PackedUserOperation) (normal : Bytes)
    (t : Terms) : Bytes32 :=
  toEthSignedMessageHash (keccak256 (abiEncode (termWords
    (keccak256 (abiEncode (opWords userOp (keccak256 normal)))) chain.chainid.toNat self t)))

/-- Without collisions the digest determines everything it was computed from. -/
theorem digestOf_determines {chain chain' : Chain} {self self' : Address}
    {a b : PackedUserOperation} {n m : Bytes} {t u : Terms}
    (free : CollisionFree (hashedStrings chain self a n t ++ hashedStrings chain' self' b m u))
    (same : digestOf chain self a n t = digestOf chain' self' b m u) :
    SameFields a b ∧ n = m ∧ chain.chainid = chain'.chainid ∧ self = self' ∧ t = u := by
  have inverts {x y : Bytes} (hx : x ∈ hashedStrings chain self a n t)
      (hy : y ∈ hashedStrings chain' self' b m u) (equal : keccak256 x = keccak256 y) : x = y :=
    free x (List.mem_append_left _ hx) y (List.mem_append_right _ hy) equal
  simp only [hashedStrings] at inverts
  rw [digestOf,digestOf,toEthSignedMessageHash,toEthSignedMessageHash] at same
  have wrapped := inverts (by simp) (by simp) same
  have hash := Word.bytes_injective (List.append_cancel_left wrapped)
  obtain ⟨fieldsHash,chainid,account,terms⟩ :=
    abiEncode_termWords (inverts (by simp) (by simp) hash)
  obtain ⟨initHash,fields,callHash⟩ := abiEncode_opWords (inverts (by simp) (by simp) fieldsHash)
  have callData := inverts (by simp) (by simp) callHash
  have normal := inverts (by simp) (by simp) initHash
  exact ⟨fields callData,normal,chainid,account,terms⟩

/-! ### From the digest to the operation -/

/-- The strings validation hashes on the way to an operation's digest. -/
def digestStrings (chain : Chain) (self : Address) (userOp : PackedUserOperation) : List Bytes :=
  match parsePaymasterAndData userOp.paymasterAndData,
    normalInitCode chain userOp.sender userOp.initCode with
  | .ok (t,_), some normal => hashedStrings chain self userOp normal t
  | _, _ => []

variable (lib : Eip7702Support)

theorem signedDigest_eq {chain : Chain} {self : Address} {userOp : PackedUserOperation}
    {t : Terms} {sig normal : Bytes}
    (parsed : parsePaymasterAndData userOp.paymasterAndData = .ok (t,sig))
    (form : normalInitCode chain userOp.sender userOp.initCode = some normal)
    (nonzero : MarkedInitCode userOp.initCode → keccak256 normal ≠ 0) :
    signedDigest lib chain self userOp = .ok (digestOf chain self userOp normal t) := by
  obtain ⟨override,overridden,chosen⟩ := override_eq lib form nonzero
  have fields : userOpFieldsHash lib chain userOp =
      .ok (keccak256 (abiEncode (opWords userOp (keccak256 normal)))) := by
    rw [userOpFieldsHash,opWords,← chosen]
    exact bind_ok_iff.mpr ⟨override,overridden,rfl⟩
  have hash : getHash lib chain self userOp t = .ok (keccak256 (abiEncode (termWords
      (keccak256 (abiEncode (opWords userOp (keccak256 normal)))) chain.chainid.toNat self t))) :=
    bind_ok_iff.mpr ⟨_,fields,rfl⟩
  exact bind_ok_iff.mpr ⟨(t,sig),parsed,bind_ok_iff.mpr ⟨_,hash,rfl⟩⟩

theorem signedDigest_ok {chain : Chain} {self : Address} {userOp : PackedUserOperation}
    {digest : Bytes32} (computed : signedDigest lib chain self userOp = .ok digest) :
    ∃ t sig normal, parsePaymasterAndData userOp.paymasterAndData = .ok (t,sig) ∧
      normalInitCode chain userOp.sender userOp.initCode = some normal ∧
      (keccak256 normal ≠ 0 → digest = digestOf chain self userOp normal t) := by
  have stages := computed
  obtain ⟨⟨t,sig⟩,parsed,stages⟩ := bind_ok_iff.mp stages
  obtain ⟨hash,hashed,_⟩ := bind_ok_iff.mp stages
  obtain ⟨fieldsHash,fields,_⟩ := bind_ok_iff.mp hashed
  obtain ⟨override,overridden,_⟩ := bind_ok_iff.mp fields
  have form : ∃ normal, normalInitCode chain userOp.sender userOp.initCode = some normal := by
    by_cases marked : MarkedInitCode userOp.initCode
    · cases current : chain.delegate userOp.sender with
      | none =>
        obtain ⟨reason,failed⟩ := lib.undelegated chain userOp marked current
        rw [failed] at overridden
        contradiction
      | some d => exact ⟨_,by rw [normalInitCode,if_pos marked,current]; rfl⟩
    · exact ⟨_,if_neg marked⟩
  obtain ⟨normal,form⟩ := form
  refine ⟨t,sig,normal,parsed,form,fun nonzero => ?_⟩
  rw [signedDigest_eq lib parsed form (fun _ => nonzero)] at computed
  exact (Except.ok.inj computed).symm

theorem slice_terms {data : Bytes} {t : Terms} {sig : Bytes}
    (parsed : parsePaymasterAndData data = .ok (t,sig)) :
    data.length = PAYMASTER_AND_DATA_LENGTH ∧
      slice data PAYMASTER_DATA_OFFSET SIGNATURE_OFFSET = t.fields.flatten := by
  rw [parsePaymasterAndData] at parsed
  split at parsed
  · contradiction
  · next exact =>
    have length := not_not.mp exact
    have layout := PaymasterAndData.fields_ofBytes data length
    have terms : (PaymasterAndData.ofBytes data length).terms = t :=
      (Prod.mk.inj (Except.ok.inj parsed)).1
    refine ⟨length,?_⟩
    rw [← layout,PaymasterAndData.fields,List.flatten_append,List.flatten_append,terms]
    apply slice_field
    · simp only [List.flatten_cons,List.flatten_nil,List.length_append,Word.bytes_length]
      rfl
    · simp only [Terms.fields,List.flatten_cons,List.flatten_nil,List.length_append,
        Word.bytes_length]
      rfl

/-- The limits and the terms together are the bytes from 20 up to the signature. -/
theorem signedBytes_eq {data data' : Bytes} {t : Terms} {sig sig' : Bytes}
    (parsed : parsePaymasterAndData data = .ok (t,sig))
    (parsed' : parsePaymasterAndData data' = .ok (t,sig'))
    (limits : Word.ofBytes 32 (slice data PAYMASTER_VALIDATION_GAS_OFFSET PAYMASTER_DATA_OFFSET) =
      Word.ofBytes 32 (slice data' PAYMASTER_VALIDATION_GAS_OFFSET PAYMASTER_DATA_OFFSET)) :
    slice data PAYMASTER_VALIDATION_GAS_OFFSET SIGNATURE_OFFSET =
      slice data' PAYMASTER_VALIDATION_GAS_OFFSET SIGNATURE_OFFSET := by
  obtain ⟨length,terms⟩ := slice_terms parsed
  obtain ⟨length',terms'⟩ := slice_terms parsed'
  have width {d : Bytes} (exact : d.length = PAYMASTER_AND_DATA_LENGTH) :
      (slice d PAYMASTER_VALIDATION_GAS_OFFSET PAYMASTER_DATA_OFFSET).length = 32 := by
    rw [slice_length (by rw [exact]; decide)]
    rfl
  have limitBytes := congrArg Word.bytes limits
  rw [Word.bytes_ofBytes (width length),Word.bytes_ofBytes (width length')] at limitBytes
  have join (d : Bytes) : slice d PAYMASTER_VALIDATION_GAS_OFFSET PAYMASTER_DATA_OFFSET ++
      slice d PAYMASTER_DATA_OFFSET SIGNATURE_OFFSET =
      slice d PAYMASTER_VALIDATION_GAS_OFFSET SIGNATURE_OFFSET :=
    slice_append_slice d (by decide) (by decide)
  rw [← join data,← join data',limitBytes,terms,terms']

/-- Two initCodes with one normal form: equal, two paddings of one marker, or a
marker on one side and the delegate's own address on the other. -/
def SameInitCode (chain chain' : Chain) (sender : Address) (a b : Bytes) : Prop :=
  a = b ∨
  (MarkedInitCode a ∧ MarkedInitCode b ∧ a.drop 20 = b.drop 20) ∨
  (∃ d, MarkedInitCode a ∧ chain.delegate sender = some d ∧ b = d.bytes ++ a.drop 20) ∨
  ∃ d, MarkedInitCode b ∧ chain'.delegate sender = some d ∧ a = d.bytes ++ b.drop 20

theorem normalInitCode_inv {chain chain' : Chain} {sender : Address} {a b normal : Bytes}
    (form : normalInitCode chain sender a = some normal)
    (form' : normalInitCode chain' sender b = some normal) :
    SameInitCode chain chain' sender a b := by
  rw [normalInitCode] at form form'
  split at form
  · next marked =>
    obtain ⟨d,current,rfl⟩ := Option.map_eq_some_iff.mp form
    split at form'
    · next marked' =>
      obtain ⟨d',_,same⟩ := Option.map_eq_some_iff.mp form'
      have tails := (List.append_inj same (by simp)).2
      exact .inr (.inl ⟨marked,marked',tails.symm⟩)
    · exact .inr (.inr (.inl ⟨d,marked,current,Option.some.inj form'⟩))
  · cases form
    split at form'
    · next marked' =>
      obtain ⟨d',current,same⟩ := Option.map_eq_some_iff.mp form'
      exact .inr (.inr (.inr ⟨d',marked',current,same.symm⟩))
    · exact .inl (Option.some.inj form').symm

/-- A digest belongs to one operation on one chain at one paymaster, or the hash is
broken on the strings validation hashed. Operations addressed to that paymaster can
then differ in the account signature, in the relayer's signature and in the way the
initCode names the delegate, and nowhere else. -/
theorem signature_binds {chain chain' : Chain} {self self' : Address} {a b : PackedUserOperation}
    {digest : Bytes32} (computed : signedDigest lib chain self a = .ok digest)
    (computed' : signedDigest lib chain' self' b = .ok digest) :
    ¬Sound (digestStrings chain self a ++ digestStrings chain' self' b) ∨
    (chain.chainid = chain'.chainid ∧ self = self' ∧ a.sender = b.sender ∧ a.nonce = b.nonce ∧
      a.callData = b.callData ∧ a.accountGasLimits = b.accountGasLimits ∧
      a.preVerificationGas = b.preVerificationGas ∧ a.gasFees = b.gasFees ∧
      slice a.paymasterAndData 20 252 = slice b.paymasterAndData 20 252 ∧
      (∃ normal, normalInitCode chain a.sender a.initCode = some normal ∧
        normalInitCode chain' b.sender b.initCode = some normal) ∧
      SameInitCode chain chain' a.sender a.initCode b.initCode ∧
      (a.paymasterAndData.take 20 = self.bytes → b.paymasterAndData.take 20 = self'.bytes →
        b = { a with
          initCode := b.initCode
          paymasterAndData := a.paymasterAndData.take 252 ++ b.paymasterAndData.drop 252
          signature := b.signature })) := by
  by_cases sound : Sound (digestStrings chain self a ++ digestStrings chain' self' b)
  · right
    obtain ⟨t,sig,normal,parsed,form,digested⟩ := signedDigest_ok lib computed
    obtain ⟨u,sig',normal',parsed',form',digested'⟩ := signedDigest_ok lib computed'
    have strings : digestStrings chain self a = hashedStrings chain self a normal t := by
      rw [digestStrings,parsed,form]
    have strings' : digestStrings chain' self' b = hashedStrings chain' self' b normal' u := by
      rw [digestStrings,parsed',form']
    rw [strings,strings'] at sound
    have nonzero := sound.nonzero normal (by simp [hashedStrings])
    have nonzero' := sound.nonzero normal' (by simp [hashedStrings])
    obtain ⟨fields,rfl,chainid,rfl,rfl⟩ := digestOf_determines sound.collisionFree
      ((digested nonzero).symm.trans (digested' nonzero'))
    have signedBytes := signedBytes_eq parsed parsed' fields.paymasterGas
    refine ⟨chainid,rfl,fields.sender,fields.nonce,fields.callData,fields.accountGasLimits,
      fields.preVerificationGas,fields.gasFees,signedBytes,⟨normal,form,form'⟩,?_,?_⟩
    · rw [← fields.sender] at form'
      exact normalInitCode_inv form form'
    · intro here here'
      have front (d : Bytes) : d.take 20 ++ slice d 20 252 = d.take 252 :=
        slice_append_slice d (i := 0) (j := 20) (k := 252) (by decide) (by decide)
      have same : a.paymasterAndData.take 252 = b.paymasterAndData.take 252 := by
        rw [← front a.paymasterAndData,← front b.paymasterAndData,here,here']
        exact congrArg (self.bytes ++ ·) signedBytes
      rw [same,List.take_append_drop,fields.sender,fields.nonce,fields.callData,
        fields.accountGasLimits,fields.preVerificationGas,fields.gasFees]
  · exact .inl sound

/-- An operation with data of an account that the marker initialises, or that its delegate
does, under a signature of the account and one of the relayer. -/
def signedOp (initCode accountSignature relayerSignature : Bytes) : PackedUserOperation where
  sender := 0x51
  nonce := 7
  initCode := initCode ++ [0x12, 0x34]
  callData := [0xde, 0xad, 0xbe, 0xef]
  accountGasLimits := highLow 150000 600000
  preVerificationGas := 100000
  gasFees := highLow 1000000000 2000000000
  paymasterAndData := packPaymasterAndData 0x9a7e delegatedQuantities
    ((Terms.ofFeeTerms sampleTerms).fields.flatten ++ relayerSignature)
  signature := accountSignature

def markedOperation : PackedUserOperation := signedOp EIP7702_INITCODE_MARKER [1] DUMMY_SIGNATURE

def spelledOperation : PackedUserOperation :=
  signedOp (Word.bytes (0x5afe : Address)) [2] (List.replicate 65 0x11)

/-- They differ in what is not bound and nowhere else, the hash being sound on their strings. -/
theorem signature_binds_resigned :
    SameInitCode delegatedChain delegatedChain 0x51 markedOperation.initCode
        spelledOperation.initCode ∧
      spelledOperation = { markedOperation with
        initCode := spelledOperation.initCode
        paymasterAndData := markedOperation.paymasterAndData.take 252 ++
          spelledOperation.paymasterAndData.drop 252
        signature := spelledOperation.signature } := by
  let normal : Bytes := Word.bytes (0x5afe : Address) ++ [0x12, 0x34]
  have nonzero : keccak256 normal ≠ 0 := by decide +kernel
  have parsed : parsePaymasterAndData markedOperation.paymasterAndData =
      .ok (Terms.ofFeeTerms sampleTerms,DUMMY_SIGNATURE) := by decide +kernel
  have parsed' : parsePaymasterAndData spelledOperation.paymasterAndData =
      .ok (Terms.ofFeeTerms sampleTerms,List.replicate 65 0x11) := by decide +kernel
  have form : normalInitCode delegatedChain markedOperation.sender
      markedOperation.initCode = some normal := by decide
  have form' : normalInitCode delegatedChain spelledOperation.sender
      spelledOperation.initCode = some normal := by decide
  have digest : signedDigest Eip7702Support.standard delegatedChain 0x9a7e markedOperation = .ok _ :=
    signedDigest_eq _ parsed form fun _ => nonzero
  have digest' : signedDigest Eip7702Support.standard delegatedChain 0x9a7e spelledOperation = .ok _ :=
    signedDigest_eq _ parsed' form' fun _ => nonzero
  have sound : Sound (digestStrings delegatedChain 0x9a7e markedOperation ++
      digestStrings delegatedChain 0x9a7e spelledOperation) := ⟨by decide +kernel,by decide +kernel⟩
  rcases signature_binds _ digest digest' with broken | bound
  · exact absurd sound broken
  · obtain ⟨_,_,_,_,_,_,_,_,_,_,initCode,rest⟩ := bound
    exact ⟨initCode,rest rfl rfl⟩

def opWithInitCode (initCode signature : Bytes) : PackedUserOperation where
  sender := 0x51
  nonce := 0
  initCode := initCode
  callData := []
  accountGasLimits := 0
  preVerificationGas := 0
  gasFees := 0
  paymasterAndData := List.replicate 317 0
  signature := signature

theorem zeroData_parses : parsePaymasterAndData (List.replicate 317 0) =
    .ok (⟨0,0,0,0,0,0,0,0,0⟩,List.replicate 65 0) := by decide +kernel

set_option maxRecDepth 20000 in
theorem keccak_delegate_nonzero : keccak256 (Word.bytes (0x5afe : Address)) ≠ 0 := by
  decide +kernel

/-- The delegate spelled out in place of the marker keeps the signature valid. -/
theorem delegate_spelled_out_same_digest :
    ¬∀ (chain : Chain) (self : Address) (a b : PackedUserOperation) (digest : Bytes32),
      signedDigest Eip7702Support.standard chain self a = .ok digest →
      signedDigest Eip7702Support.standard chain self b = .ok digest →
      a.initCode = b.initCode ∨ (MarkedInitCode a.initCode ∧ MarkedInitCode b.initCode) := by
  intro paddingOnly
  have digested (initCode : Bytes) (form : normalInitCode delegatedChain 0x51 initCode =
      some (Word.bytes (0x5afe : Address))) :
      signedDigest Eip7702Support.standard delegatedChain 0 (opWithInitCode initCode []) = .ok _ :=
    signedDigest_eq _ zeroData_parses form (fun _ => keccak_delegate_nonzero)
  have marker := digested EIP7702_INITCODE_MARKER (by decide)
  have spelled := digested (Word.bytes (0x5afe : Address)) (by decide)
  have same := paddingOnly _ _ _ _ _ marker spelled
  revert same
  decide

end TornadoRelayer.Paymaster
