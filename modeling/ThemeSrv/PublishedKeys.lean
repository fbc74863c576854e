import ThemeSrv.Base64
import ThemeSrv.UruCrypt
import Mathlib.Tactic.NormNum.Prime

/-!
# The published keys

`generate_keys` writes its numbers to the front of 64-byte arrays, in as few
bytes as they need, and encodes the arrays.  A number of 64 bytes is loaded
again as it was; a shorter one comes back shifted, with whatever the array
held in its low bytes.  The drawn primes have 64 bytes, the published value
`X` need not.
-/

namespace ThemeSrv

open AllocatedBlock ByteString ModularPower

/-- The text decodes to the encoded bytes. -/
def TextCodec.RoundTrips (codec : TextCodec) : Prop :=
  ∀ bytes, codec.decode (codec.encode bytes) = some bytes

/-- What a client that knows `n` and `x` makes of its own exponent and the
server's seed. -/
def clientKey (n x exponent : Nat) (srvSeed : Bytes) : Bytes :=
  List.zipWith (· ^^^ ·) (leBytes kKeySize (bnModExp x exponent n)) srvSeed

/-- The generated texts load as the two primes and `X`, and with them the
server and every client agree on the seed and on the session key. -/
def KeysAgree (codec : TextCodec) (gValue : UInt32) (draw : KeyDraw) : Prop :=
  ∃ kText nText xText k n x, generateKeys codec gValue draw = .ok (kText, nText, xText) ∧
    loadKey codec kText = .ok k ∧ loadKey codec nText = .ok n ∧ loadKey codec xText = .ok x ∧
    k.number = draw.k ∧ n.number = draw.n ∧ x.number = gValue.toNat ^ draw.k % draw.n ∧
    ∀ (exponent : Nat) (random : Nat → UInt8),
      let yData := leBytes kKeySize (gValue.toNat ^ exponent % draw.n)
      let srvSeed := (List.range 7).map random
      serverSeed k n kKeySize yData = x.number ^ exponent % draw.n ∧
        makeServerKey k n kKeySize yData 7 random =
          some (srvSeed, clientKey draw.n x.number exponent srvSeed)

/-! ### Numbers in arrays -/

theorem leValue_eq_zero_iff (bytes : Bytes) : leValue bytes = 0 ↔ ∀ byte ∈ bytes, byte = 0 := by
  induction bytes with
  | nil => simp
  | cons byte bytes ih =>
      rw [leValue_cons, Nat.add_eq_zero_iff, Nat.mul_eq_zero, ih, List.forall_mem_cons,
        ← UInt8.toNat_inj]
      simp

theorem bnBin2bn_eq_zero_iff (bytes : Bytes) : bnBin2bn bytes = 0 ↔ ∀ byte ∈ bytes, byte = 0 := by
  rw [bnBin2bn, leValue_eq_zero_iff]
  simp

/-- A number is read back from the front of an array only if it fills the
array, or if the array is zero throughout. -/
theorem bnBin2bn_stored_iff {number : Nat} {array : Bytes} (size : array.length = kKeySize)
    (fits : number < 256 ^ kKeySize) :
    bnBin2bn (bnBn2bin number ++ array.drop (bnNumBytes number)) = number ↔
      256 ^ 63 ≤ number ∨ (number = 0 ∧ ∀ byte ∈ array, byte = 0) := by
  have room := (bnNumBytes_le_iff number kKeySize).mpr fits
  have full := bnNumBytes_le_iff number 63
  have behind : (array.drop (bnNumBytes number)).length = kKeySize - bnNumBytes number := by
    rw [List.length_drop, size]
  rw [bnBin2bn_bnBn2bin_append, behind]
  by_cases short : number < 256 ^ 63
  · have fewer : bnNumBytes number ≤ 63 := full.mpr short
    have shift : 256 ≤ 256 ^ (kKeySize - bnNumBytes number) := by
      apply Nat.le_self_pow
      unfold kKeySize
      omega
    constructor
    · intro same
      have zero : number = 0 := by
        by_contra positive
        have larger : 256 * number ≤ 256 ^ (kKeySize - bnNumBytes number) * number :=
          Nat.mul_le_mul_right _ shift
        omega
      subst zero
      refine Or.inr ⟨rfl, ?_⟩
      rw [← bnBin2bn_eq_zero_iff]
      simpa [bnNumBytes] using same
    · rintro (long | ⟨rfl, zeros⟩)
      · omega
      · have zero := (bnBin2bn_eq_zero_iff array).mpr zeros
        simpa [bnNumBytes] using zero
  · have exact : bnNumBytes number = kKeySize := by
      have more : ¬ bnNumBytes number ≤ 63 := fun fewer => short (full.mp fewer)
      unfold kKeySize at room ⊢
      omega
    have nothing : array.drop kKeySize = [] := List.drop_of_length_le size.le
    rw [exact, nothing]
    exact iff_of_true (by simp [bnBin2bn]) (Or.inl (Nat.le_of_not_lt short))

/-! ### Loading what was generated -/

variable {codec : TextCodec} {gValue : UInt32} {draw : KeyDraw}

/-- The array `generate_keys` encodes. -/
def storedKey (number : Nat) (array : Bytes) : Bytes :=
  bnBn2bin number ++ array.drop (bnNumBytes number)

theorem storedKey_length {number : Nat} {array : Bytes} (size : array.length = kKeySize)
    (fits : number < 256 ^ kKeySize) : (storedKey number array).length = kKeySize := by
  have room := (bnNumBytes_le_iff number kKeySize).mpr fits
  rw [storedKey, List.length_append, bnBn2bin_length, List.length_drop, size]
  omega

/-- The value the code publishes as `X`. -/
def KeyDraw.x (draw : KeyDraw) (gValue : UInt32) : Nat :=
  gValue.toNat ^ draw.k % draw.n

theorem KeyDraw.x_fits (draw : KeyDraw) (gValue : UInt32) :
    draw.x gValue < 256 ^ kKeySize :=
  (Nat.mod_lt _ draw.nPrime.pos).trans draw.nBits.2

theorem generateKeys_eq (codec : TextCodec) (gValue : UInt32) (draw : KeyDraw) :
    generateKeys codec gValue draw =
      .ok (codec.encode (storedKey draw.k draw.kKey), codec.encode (storedKey draw.n draw.nKey),
        codec.encode (storedKey (draw.x gValue) draw.xKey)) := by
  have xFits := draw.x_fits gValue
  have kStored := storeNumber_eq (show draw.k < 256 ^ draw.kKey.length by
    rw [draw.kKeySize_eq]
    exact draw.kBits.2)
  have nStored := storeNumber_eq (show draw.n < 256 ^ draw.nKey.length by
    rw [draw.nKeySize_eq]
    exact draw.nBits.2)
  have xStored := storeNumber_eq (show draw.x gValue < 256 ^ draw.xKey.length by
    rw [draw.xKeySize_eq]
    exact xFits)
  rw [generateKeys, bnModExp_eq _ _ draw.nPrime.pos]
  change (do
    let kKey ← storeNumber draw.k draw.kKey
    let nKey ← storeNumber draw.n draw.nKey
    let xKey ← storeNumber (draw.x gValue) draw.xKey
    return (codec.encode kKey, codec.encode nKey, codec.encode xKey)) = _
  rw [kStored, nStored, xStored]
  rfl

/-- `load_key` returns the number that the array starts from. -/
theorem loadKey_stored (roundTrips : codec.RoundTrips) {number : Nat} {array : Bytes}
    (size : array.length = kKeySize) (fits : number < 256 ^ kKeySize) :
    ∃ key, loadKey codec (codec.encode (storedKey number array)) = .ok key ∧
      key.number = bnBin2bn (storedKey number array) := by
  have full := storedKey_length size fits
  refine ⟨⟨bnBin2bn (storedKey number array), bnBin2bn_lt full⟩, ?_, rfl⟩
  rw [loadKey, roundTrips]
  simp only [dif_pos full]

/-- A drawn prime fills its array. -/
theorem bnBin2bn_storedKey_of_bits {number : Nat} {array : Bytes} (size : array.length = kKeySize)
    (bits : 2 ^ 511 ≤ number ∧ number < 256 ^ kKeySize) :
    bnBin2bn (storedKey number array) = number := by
  have large : 256 ^ 63 ≤ 2 ^ 511 := by decide +kernel
  exact (bnBin2bn_stored_iff size bits.2).mpr (Or.inl (large.trans bits.1))

theorem pow_mod_pow_mod_comm (base first second modulus : Nat) :
    (base ^ first % modulus) ^ second % modulus = (base ^ second % modulus) ^ first % modulus := by
  rw [← Nat.pow_mod, ← Nat.pow_mod, ← pow_mul, ← pow_mul, Nat.mul_comm]

/-- Both sides derive one seed from the two public values, and with it one
session key. -/
theorem serverSeed_eq_clientSeed {k n : Key} {gValue : UInt32} {draw : KeyDraw}
    (sameK : k.number = draw.k) (sameN : n.number = draw.n) (exponent : Nat) :
    serverSeed k n kKeySize (leBytes kKeySize (gValue.toNat ^ exponent % draw.n)) =
      draw.x gValue ^ exponent % draw.n := by
  have positive := draw.nPrime.pos
  have fits : gValue.toNat ^ exponent % draw.n < 256 ^ kKeySize :=
    (Nat.mod_lt _ positive).trans draw.nBits.2
  have whole : (leBytes kKeySize (gValue.toNat ^ exponent % draw.n)).take kKeySize = _ :=
    List.take_of_length_le (leBytes_length _ _).le
  rw [serverSeed, sameK, sameN, bnModExp_eq _ _ positive, whole, leValue_leBytes_of_lt fits,
    pow_mod_pow_mod_comm, KeyDraw.x]

theorem makeServerKey_eq_clientKey {k n : Key} (sameK : k.number = draw.k)
    (sameN : n.number = draw.n) (exponent : Nat) (random : Nat → UInt8) :
    makeServerKey k n kKeySize (leBytes kKeySize (gValue.toNat ^ exponent % draw.n)) 7 random =
      some ((List.range 7).map random,
        clientKey draw.n (draw.x gValue) exponent ((List.range 7).map random)) := by
  rw [makeServerKey, if_neg (by decide), serverSeed_eq_clientSeed sameK sameN, clientKey,
    bnModExp_eq _ _ draw.nPrime.pos]

/-- `X` is zero only for a zero base. -/
theorem KeyDraw.x_eq_zero_iff (draw : KeyDraw) (gValue : UInt32) :
    draw.x gValue = 0 ↔ gValue = 0 := by
  have base : gValue.toNat < draw.n := by
    have small := gValue.toNat_lt
    have large : 2 ^ 32 ≤ 2 ^ 511 := by decide +kernel
    exact small.trans_le (large.trans draw.nBits.1)
  rw [KeyDraw.x, ← Nat.dvd_iff_mod_eq_zero]
  constructor
  · intro divides
    have zero := Nat.eq_zero_of_dvd_of_lt (draw.nPrime.dvd_of_dvd_pow divides) base
    exact UInt32.toNat_inj.mp zero
  · rintro rfl
    simp [draw.kPrime.ne_zero]

theorem xKey_stored_iff (draw : KeyDraw) (gValue : UInt32) :
    bnBin2bn (storedKey (draw.x gValue) draw.xKey) = draw.x gValue ↔
      256 ^ 63 ≤ gValue.toNat ^ draw.k % draw.n ∨
        (gValue = 0 ∧ ∀ byte ∈ draw.xKey, byte = 0) := by
  have stored := bnBin2bn_stored_iff draw.xKeySize_eq (draw.x_fits gValue)
  rwa [draw.x_eq_zero_iff] at stored

theorem xKey_stored_of_keysAgree (roundTrips : codec.RoundTrips)
    (agree : KeysAgree codec gValue draw) :
    bnBin2bn (storedKey (draw.x gValue) draw.xKey) = draw.x gValue := by
  obtain ⟨kText, nText, xText, k, n, x, generated, -, -, xLoaded, -, -, right, -⟩ := agree
  obtain ⟨x', xLoaded', xNumber⟩ := loadKey_stored roundTrips draw.xKeySize_eq (draw.x_fits gValue)
  rw [generateKeys_eq] at generated
  cases generated
  cases xLoaded.symm.trans xLoaded'
  exact xNumber.symm.trans right

theorem keysAgree_of_xKey_stored (roundTrips : codec.RoundTrips)
    (stored : bnBin2bn (storedKey (draw.x gValue) draw.xKey) = draw.x gValue) :
    KeysAgree codec gValue draw := by
  obtain ⟨k, kLoaded, kNumber⟩ := loadKey_stored roundTrips draw.kKeySize_eq draw.kBits.2
  obtain ⟨n, nLoaded, nNumber⟩ := loadKey_stored roundTrips draw.nKeySize_eq draw.nBits.2
  obtain ⟨x, xLoaded, xNumber⟩ := loadKey_stored roundTrips draw.xKeySize_eq (draw.x_fits gValue)
  rw [bnBin2bn_storedKey_of_bits draw.kKeySize_eq draw.kBits] at kNumber
  rw [bnBin2bn_storedKey_of_bits draw.nKeySize_eq draw.nBits] at nNumber
  rw [stored] at xNumber
  refine ⟨_, _, _, k, n, x, generateKeys_eq codec gValue draw, kLoaded, nLoaded, xLoaded,
    kNumber, nNumber, xNumber, ?_⟩
  intro exponent random
  rw [xNumber]
  exact ⟨serverSeed_eq_clientSeed kNumber nNumber exponent,
    makeServerKey_eq_clientKey kNumber nNumber exponent random⟩

/-- The published keys are right exactly if `g ^ k` modulo `n` has no leading
zero byte.  The one exception is a zero base, when the array for `X` happens to
hold zeros only. -/
theorem keysAgree_iff (roundTrips : codec.RoundTrips) (gValue : UInt32) (draw : KeyDraw) :
    KeysAgree codec gValue draw ↔
      256 ^ 63 ≤ gValue.toNat ^ draw.k % draw.n ∨
        (gValue = 0 ∧ ∀ byte ∈ draw.xKey, byte = 0) := by
  rw [← xKey_stored_iff]
  exact ⟨xKey_stored_of_keysAgree roundTrips, keysAgree_of_xKey_stored roundTrips⟩

/-! ### Two drawn primes -/

def base64Codec : TextCodec where
  encode bytes := String.ofList (Base64.encode bytes)
  decode text := Base64.decode text.toList

theorem base64Codec_roundTrips : base64Codec.RoundTrips := by
  intro bytes
  simp [base64Codec, Base64.decode_encode]

def drawnK : Nat :=
  8376034857023793320357114282298759351953913811164145299253551036121183225034633865851014997075259595389947214819773665280000000000000000000000000000000003

def drawnN : Nat :=
  13216524505427363866502543357314839814408148970446798536683397194030547982617320698693749943366460335133035773339694691406250000000000000000000000000000003

theorem half_drawnK_prime : (drawnK / 2).Prime := by
  apply prime_of_power 6 [(2, 44), (5, 34), (7, 46), (11, 34), (13, 38)]
  · decide +kernel
  · decide +kernel
  · intro factor member
    fin_cases member <;> norm_num
  · decide +kernel
  · decide +kernel

theorem drawnK_prime : drawnK.Prime := by
  apply prime_of_power 2 [(2, 1), (drawnK / 2, 1)]
  · decide +kernel
  · decide +kernel
  · intro factor member
    fin_cases member
    · exact Nat.prime_two
    · exact half_drawnK_prime
  · decide +kernel
  · decide +kernel

theorem half_drawnN_prime : (drawnN / 2).Prime := by
  apply prime_of_power 3 [(2, 30), (5, 39), (7, 47), (11, 33), (13, 39)]
  · decide +kernel
  · decide +kernel
  · intro factor member
    fin_cases member <;> norm_num
  · decide +kernel
  · decide +kernel

theorem drawnN_prime : drawnN.Prime := by
  apply prime_of_power 2 [(2, 1), (drawnN / 2, 1)]
  · decide +kernel
  · decide +kernel
  · intro factor member
    fin_cases member
    · exact Nat.prime_two
    · exact half_drawnN_prime
  · decide +kernel
  · decide +kernel

/-- Both drawn primes are safe primes, as `generate_keys` asks for. -/
def sampleDraw : KeyDraw where
  k := drawnK
  n := drawnN
  kPrime := drawnK_prime
  nPrime := drawnN_prime
  kBits := by decide +kernel
  nBits := by decide +kernel
  kKey := List.replicate kKeySize 0xcc
  nKey := List.replicate kKeySize 0xcc
  xKey := List.replicate kKeySize 0xcc
  kKeySize_eq := List.length_replicate
  nKeySize_eq := List.length_replicate
  xKeySize_eq := List.length_replicate

theorem keysAgree_default_base : KeysAgree base64Codec 4 sampleDraw := by
  have full : 256 ^ 63 ≤ power (4 : UInt32).toNat sampleDraw.k sampleDraw.n := by decide +kernel
  rw [power_eq] at full
  exact (keysAgree_iff base64Codec_roundTrips 4 sampleDraw).mpr (Or.inl full)

/-- With these primes and base 44 the value `X` has 63 bytes. -/
theorem not_keysAgree_every_base :
    ¬ ∀ (codec : TextCodec) (_ : codec.RoundTrips) (gValue : UInt32) (draw : KeyDraw),
      KeysAgree codec gValue draw := by
  intro claimed
  have agree := claimed base64Codec base64Codec_roundTrips 44 sampleDraw
  have stored := xKey_stored_of_keysAgree base64Codec_roundTrips agree
  have short : ¬ 256 ^ 63 ≤ power (44 : UInt32).toNat sampleDraw.k sampleDraw.n := by
    decide +kernel
  rw [power_eq] at short
  rcases (xKey_stored_iff sampleDraw 44).mp stored with full | ⟨zero, -⟩
  · exact short full
  · cases zero

end ThemeSrv
