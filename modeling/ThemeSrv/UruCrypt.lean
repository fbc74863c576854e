import ThemeSrv.ClientBase
import ThemeSrv.ModularPower

/-!
# Keys of the server

Key generation, key loading and the key exchange of `crypto`, together with
the configuration entries that carry the keys.  The numbers are those of the
library's big numbers; base64 is that of the string library.
-/

namespace ThemeSrv

open AllocatedBlock ByteString ModularPower

def kKeySize : Nat := 64

/-! ### Big numbers -/

def bnNumBytes (number : Nat) : Nat :=
  (number.size + 7) / 8

/-- `BN_bn2bin`: big-endian, as many bytes as the number has. -/
def bnBn2bin (number : Nat) : Bytes :=
  (leBytes (bnNumBytes number) number).reverse

/-- `BN_bin2bn`. -/
def bnBin2bn (bytes : Bytes) : Nat :=
  leValue bytes.reverse

/-- `BN_mod_exp`.  With a zero modulus a zero exponent still gives one, and any
other is an error that leaves the fresh result zero. -/
def bnModExp (base exponent modulus : Nat) : Nat :=
  if modulus = 0 then
    if exponent = 0 then 1 else 0
  else
    power base exponent modulus

/-! ### Keys -/

/-- A number read from `kKeySize` bytes. -/
structure Key where
  number : Nat
  fits : number < 256 ^ kKeySize

/-- `ST::base64_encode` and `ST::base64_decode`. -/
structure TextCodec where
  encode : Bytes → String
  decode : String → Option Bytes

/-- What a run of `generate_keys` starts from: the two primes it draws, of
exactly `kKeySize` bytes, and what its three uninitialised arrays hold. -/
structure KeyDraw where
  k : Nat
  n : Nat
  kPrime : k.Prime
  nPrime : n.Prime
  kBits : 2 ^ 511 ≤ k ∧ k < 256 ^ kKeySize
  nBits : 2 ^ 511 ≤ n ∧ n < 256 ^ kKeySize
  kKey : Bytes
  nKey : Bytes
  xKey : Bytes
  kKeySize_eq : kKey.length = kKeySize
  nKeySize_eq : nKey.length = kKeySize
  xKeySize_eq : xKey.length = kKeySize

/-- `BN_bn2bin` into an array. -/
def storeNumber (number : Nat) (array : Bytes) : Except Stop Bytes :=
  match store array 0 (bnBn2bin number) with
  | none => .error .store
  | some array => .ok array

/-- `generate_keys`: the texts of `k`, `n` and `x`. -/
def generateKeys (codec : TextCodec) (gValue : UInt32) (draw : KeyDraw) :
    Except Stop (String × String × String) := do
  let x := bnModExp gValue.toNat draw.k draw.n
  let kKey ← storeNumber draw.k draw.kKey
  let nKey ← storeNumber draw.n draw.nKey
  let xKey ← storeNumber x draw.xKey
  return (codec.encode kKey, codec.encode nKey, codec.encode xKey)

theorem bnBin2bn_lt {bytes : Bytes} (full : bytes.length = kKeySize) :
    bnBin2bn bytes < 256 ^ kKeySize := by
  have below := leValue_lt bytes.reverse
  rwa [List.length_reverse, full] at below

def loadKey (codec : TextCodec) (key : String) : Except Stop Key :=
  match codec.decode key with
  | none => .error .assertion
  | some keyBytes =>
      if full : keyBytes.length = kKeySize then
        .ok ⟨bnBin2bn keyBytes, bnBin2bn_lt full⟩
      else
        .error .assertion

/-! ### The key exchange -/

/-- The number both sides share: `y` to the private key. -/
def serverSeed (k n : Key) (cliSeedsz : Nat) (yData : Bytes) : Nat :=
  bnModExp (leValue (yData.take cliSeedsz)) k.number n.number

/-- `make_server_key`: the server seed and the session key, `keysz` bytes each.
`random` is what `RAND_bytes` draws.  The seed is below `n`, so that
`BN_bn2lebinpad` finds room for it. -/
def makeServerKey (k n : Key) (cliSeedsz : Nat) (yData : Bytes) (keysz : Nat)
    (random : Nat → UInt8) : Option (Bytes × Bytes) :=
  if cliSeedsz < keysz then
    none
  else
    let cliSeed := leBytes kKeySize (serverSeed k n cliSeedsz yData)
    let srvSeed := (List.range keysz).map random
    some (srvSeed, List.zipWith (· ^^^ ·) cliSeed srvSeed)

/-! ### Configuration -/

/-- The entries of section `gate` that carry the keys. -/
structure GateConfig where
  cryptK : String
  cryptN : String
  cryptX : String
  cryptG : UInt32

/-- `load_keys`: whether the configuration has keys, and the keys. -/
def loadKeys (codec : TextCodec) (config : GateConfig) (draw : KeyDraw) :
    Except Stop (Bool × Key × Key) := do
  let configured := !(config.cryptK.isEmpty || config.cryptN.isEmpty)
  let (kstr, nstr) ←
    if configured then
      pure (config.cryptK, config.cryptN)
    else do
      let (kstr, nstr, _) ← generateKeys codec config.cryptG draw
      pure (kstr, nstr)
  let k ← loadKey codec kstr
  let n ← loadKey codec nstr
  return (configured, k, n)

def generateDaemonKeys (codec : TextCodec) (config : GateConfig) (draw : KeyDraw) :
    Except Stop GateConfig := do
  let (kstr, nstr, xstr) ← generateKeys codec config.cryptG draw
  return { config with cryptK := kstr, cryptN := nstr, cryptX := xstr }

/-- The numbers `generate_client_ini` publishes: `Server.Gate.G`,
`Server.Gate.N` and `Server.Gate.X`. -/
def clientIniKeys (config : GateConfig) : UInt32 × String × String :=
  (config.cryptG, config.cryptN, config.cryptX)

/-! ### Sizes -/

theorem bnNumBytes_le_iff (number count : Nat) :
    bnNumBytes number ≤ count ↔ number < 256 ^ count := by
  have bytes : 256 ^ count = 2 ^ (8 * count) := by
    rw [pow_mul]
    norm_num
  rw [bytes, ← Nat.size_le, bnNumBytes]
  omega

@[simp]
theorem bnBn2bin_length (number : Nat) : (bnBn2bin number).length = bnNumBytes number := by
  rw [bnBn2bin, List.length_reverse, leBytes_length]

theorem storeNumber_eq {number : Nat} {array : Bytes} (fits : number < 256 ^ array.length) :
    storeNumber number array = .ok (bnBn2bin number ++ array.drop (bnNumBytes number)) := by
  have room := (bnNumBytes_le_iff number array.length).mpr fits
  rw [storeNumber, store_of_inside (by rw [bnBn2bin_length]; omega)]
  simp

/-- Read back, the number has been shifted by the bytes behind it. -/
theorem bnBin2bn_bnBn2bin_append (number : Nat) (behind : Bytes) :
    bnBin2bn (bnBn2bin number ++ behind) = bnBin2bn behind + 256 ^ behind.length * number := by
  have value : leValue (leBytes (bnNumBytes number) number) = number :=
    leValue_leBytes_of_lt ((bnNumBytes_le_iff number _).mp (le_refl _))
  rw [bnBin2bn, List.reverse_append, leValue_append, List.length_reverse, bnBn2bin,
    List.reverse_reverse, value, bnBin2bn]

theorem bnModExp_eq {modulus : Nat} (base exponent : Nat) (positive : 0 < modulus) :
    bnModExp base exponent modulus = base ^ exponent % modulus := by
  rw [bnModExp, if_neg positive.ne', power_eq]

/-- The seed has room in the client's seed array. -/
theorem serverSeed_lt (k n : Key) (cliSeedsz : Nat) (yData : Bytes) :
    serverSeed k n cliSeedsz yData < 256 ^ kKeySize := by
  rw [serverSeed, bnModExp]
  split_ifs with zero noExponent
  · decide
  · decide
  · rw [power_eq]
    exact (Nat.mod_lt _ (Nat.pos_of_ne_zero zero)).trans n.fits

end ThemeSrv
