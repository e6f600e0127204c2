import Mathlib.Data.BitVec
import Mathlib.Tactic.Ring

/-! Fixed-width big-endian words over byte strings. A word of `n` bytes and a
string of exactly `n` bytes determine each other; slices of a string recover the
fields of a packed layout. -/
namespace BigEndian

abbrev Bytes := List UInt8

/-- The low `n` bytes of `x`, most significant first. -/
def toBytes : Nat → Nat → Bytes
  | 0, _ => []
  | n + 1, x => toBytes n (x / 256) ++ [UInt8.ofNat x]

def ascii (text : String) : Bytes := text.toList.map (fun c => UInt8.ofNat c.toNat)

def ofBytes (bs : Bytes) : Nat := bs.foldl (fun acc b => 256 * acc + b.toNat) 0

@[simp] theorem toBytes_length (n x : Nat) : (toBytes n x).length = n := by
  induction n generalizing x with
  | zero => rfl
  | succ n ih => simp [toBytes,ih]

@[simp] theorem ofBytes_nil : ofBytes [] = 0 := rfl

theorem ofBytes_concat (bs : Bytes) (b : UInt8) :
    ofBytes (bs ++ [b]) = 256 * ofBytes bs + b.toNat := by
  simp [ofBytes]

theorem ofBytes_lt (bs : Bytes) : ofBytes bs < 256 ^ bs.length := by
  induction bs using List.reverseRecOn with
  | nil => decide
  | append_singleton bs b ih =>
    have small := b.toNat_lt
    rw [ofBytes_concat]
    simp only [List.length_append,List.length_singleton,pow_succ]
    omega

theorem ofBytes_toBytes_mod (n x : Nat) : ofBytes (toBytes n x) = x % 256 ^ n := by
  induction n generalizing x with
  | zero => simp [toBytes,Nat.mod_one]
  | succ n ih =>
    rw [toBytes,ofBytes_concat,ih,pow_succ',Nat.mod_mul]
    simp
    omega

theorem ofBytes_toBytes {n x : Nat} (fits : x < 256 ^ n) : ofBytes (toBytes n x) = x := by
  rw [ofBytes_toBytes_mod,Nat.mod_eq_of_lt fits]

theorem toBytes_ofBytes (bs : Bytes) : toBytes bs.length (ofBytes bs) = bs := by
  induction bs using List.reverseRecOn with
  | nil => rfl
  | append_singleton bs b ih =>
    have small := b.toNat_lt
    have quotient : (256 * ofBytes bs + b.toNat) / 256 = ofBytes bs := by omega
    have digit : UInt8.ofNat (256 * ofBytes bs + b.toNat) = b := by
      apply UInt8.toNat_inj.mp
      simp
    simp only [List.length_append,List.length_singleton,toBytes,ofBytes_concat,quotient,digit,ih]

theorem toBytes_injective {n x y : Nat} (hx : x < 256 ^ n) (hy : y < 256 ^ n)
    (same : toBytes n x = toBytes n y) : x = y := by
  rw [← ofBytes_toBytes hx,same,ofBytes_toBytes hy]

/-- Two adjacent fields are one wider number. -/
theorem toBytes_append {n low : Nat} (m high : Nat) (fits : low < 256 ^ n) :
    toBytes m high ++ toBytes n low = toBytes (m + n) (256 ^ n * high + low) := by
  induction n generalizing low with
  | zero =>
    obtain rfl : low = 0 := by simpa using fits
    simp [toBytes]
  | succ n ih =>
    have smaller : low / 256 < 256 ^ n := by
      rw [pow_succ] at fits
      exact Nat.div_lt_of_lt_mul (by rwa [Nat.mul_comm])
    have quotient : (256 ^ (n + 1) * high + low) / 256 = 256 ^ n * high + low / 256 := by
      rw [pow_succ',Nat.mul_assoc,Nat.mul_add_div (by decide)]
    have digit : UInt8.ofNat (256 ^ (n + 1) * high + low) = UInt8.ofNat low := by
      apply UInt8.toNat_inj.mp
      simp [pow_succ',Nat.mul_assoc]
    rw [← Nat.add_assoc,toBytes,toBytes,quotient,digit,← ih smaller,List.append_assoc]

/-! ### Words -/

/-- An `n`-byte machine word. -/
abbrev Word (n : Nat) := BitVec (8 * n)

theorem two_pow_bytes (n : Nat) : 2 ^ (8 * n) = 256 ^ n := by
  rw [pow_mul]
  norm_num

def Word.bytes {n : Nat} (w : Word n) : Bytes := toBytes n w.toNat

def Word.ofBytes (n : Nat) (bs : Bytes) : Word n := BitVec.ofNat (8 * n) (BigEndian.ofBytes bs)

theorem Word.toNat_lt {n : Nat} (w : Word n) : w.toNat < 256 ^ n := by
  rw [← two_pow_bytes]
  exact w.isLt

@[simp] theorem Word.bytes_length {n : Nat} (w : Word n) : w.bytes.length = n := toBytes_length ..

@[simp] theorem Word.ofBytes_bytes {n : Nat} (w : Word n) : Word.ofBytes n w.bytes = w := by
  rw [Word.ofBytes,Word.bytes,ofBytes_toBytes w.toNat_lt]
  simp

theorem Word.bytes_ofBytes {n : Nat} {bs : Bytes} (exact : bs.length = n) :
    (Word.ofBytes n bs).bytes = bs := by
  subst exact
  have fits := ofBytes_lt bs
  rw [← two_pow_bytes] at fits
  rw [Word.bytes,Word.ofBytes,BitVec.toNat_ofNat,Nat.mod_eq_of_lt fits,toBytes_ofBytes]

theorem Word.bytes_injective {n : Nat} {v w : Word n} (same : v.bytes = w.bytes) : v = w := by
  rw [← v.ofBytes_bytes,same,w.ofBytes_bytes]

/-! ### Slices -/

/-- Calldata slice `bs[i:j]`. -/
def slice (bs : Bytes) (i j : Nat) : Bytes := (bs.drop i).take (j - i)

theorem slice_length {bs : Bytes} {i j : Nat} (inside : j ≤ bs.length) :
    (slice bs i j).length = j - i := by
  simp [slice]
  omega

theorem slice_all (bs : Bytes) : slice bs 0 bs.length = bs := by simp [slice]

theorem slice_append_slice (bs : Bytes) {i j k : Nat} (hij : i ≤ j) (hjk : j ≤ k) :
    slice bs i j ++ slice bs j k = slice bs i k := by
  have split := List.take_append_drop (j - i) ((bs.drop i).take (k - i))
  rw [List.take_take,List.drop_take,List.drop_drop] at split
  rw [slice,slice,slice]
  rw [show min (j - i) (k - i) = j - i by omega,show i + (j - i) = j by omega,
    show k - i - (j - i) = k - j by omega] at split
  exact split

/-- The field after a prefix of `i` bytes. -/
theorem slice_field {before field after : Bytes} {i j : Nat}
    (start : before.length = i) (stop : field.length = j - i) :
    slice (before ++ (field ++ after)) i j = field := by
  subst start
  simp [slice,← stop]

/-- In a string laid out as consecutive fields, a field starts where the lengths
of the fields before it end. -/
theorem slice_flatten {fields : List Bytes} {k i j : Nat} (inside : k < fields.length)
    (start : (fields.take k).flatten.length = i) (stop : fields[k].length = j - i) :
    slice fields.flatten i j = fields[k] := by
  have split : fields = fields.take k ++ fields[k] :: fields.drop (k + 1) := by
    rw [← List.drop_eq_getElem_cons inside,List.take_append_drop]
  have layout : fields.flatten =
      (fields.take k).flatten ++ (fields[k] ++ (fields.drop (k + 1)).flatten) := by
    conv_lhs => rw [split]
    rw [List.flatten_append,List.flatten_cons]
  rw [layout]
  exact slice_field start stop

end BigEndian
