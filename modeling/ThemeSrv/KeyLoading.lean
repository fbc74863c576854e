import ThemeSrv.PublishedKeys

/-!
# Loading configured keys

`load_keys` tests only whether a text is missing.  That a text decodes to a
whole key is asserted by `load_key`: a debug build stops there, and a release
build goes on with the bytes the stack buffer happens to hold.
-/

namespace ThemeSrv

/-- Whether `NDEBUG` is defined. -/
inductive Build
  | debug
  | release
  deriving DecidableEq, Repr

/-- `THEME_ASSERTD`: a release build evaluates the condition and goes on. -/
def Build.assertD (build : Build) (condition : Bool) : Except Stop Unit :=
  match build with
  | .debug => ThemeSrv.assertD condition
  | .release => .ok ()

/-- A `key_bytes` array. -/
structure KeyBuffer where
  bytes : Bytes
  covers : bytes.length = kKeySize

theorem KeyBuffer.overwritten (array : KeyBuffer) {decoded : Bytes}
    (room : decoded.length ≤ kKeySize) :
    (decoded ++ array.bytes.drop decoded.length).length = kKeySize := by
  rw [List.length_append, List.length_drop, array.covers]
  omega

/-- `ST::base64_decode` into an array: the decoded length, or a negative number
for a text that is malformed or too long, with the array as it was. -/
def base64Decode (codec : TextCodec) (text : String) (array : KeyBuffer) : Int × KeyBuffer :=
  match codec.decode text with
  | none => (-1, array)
  | some decoded =>
      if room : decoded.length ≤ kKeySize then
        (decoded.length, ⟨decoded ++ array.bytes.drop decoded.length, array.overwritten room⟩)
      else
        (-1, array)

/-- `load_key`, with what its array holds before. -/
def loadKeyIn (build : Build) (codec : TextCodec) (key : String) (keyBytes : KeyBuffer) :
    Except Stop Key := do
  let (length, keyBytes) := base64Decode codec key keyBytes
  build.assertD (length == kKeySize)
  return ⟨bnBin2bn keyBytes.bytes, bnBin2bn_lt keyBytes.covers⟩

/-- `load_keys`. -/
def loadKeysIn (build : Build) (codec : TextCodec) (config : GateConfig) (draw : KeyDraw)
    (kBytes nBytes : KeyBuffer) : Except Stop (Bool × Key × Key) := do
  let configured := !(config.cryptK.isEmpty || config.cryptN.isEmpty)
  let (kstr, nstr) ←
    if configured then
      pure (config.cryptK, config.cryptN)
    else do
      let (kstr, nstr, _) ← generateKeys codec config.cryptG draw
      pure (kstr, nstr)
  let k ← loadKeyIn build codec kstr kBytes
  let n ← loadKeyIn build codec nstr nBytes
  return (configured, k, n)

/-- The text is base64 of a whole key. -/
def TextCodec.DecodesToKey (codec : TextCodec) (text : String) (number : Nat) : Prop :=
  ∃ bytes, codec.decode text = some bytes ∧ bytes.length = kKeySize ∧ number = bnBin2bn bytes

/-- What `load_keys` relies on: encoded bytes are decoded again, and the empty
text is the empty byte string. -/
structure TextCodec.Lawful (codec : TextCodec) : Prop where
  roundTrips : codec.RoundTrips
  empty : codec.decode "" = some []

/-- Whole keys are loaded as the numbers they are, with the result true; for
any other pair of texts the result is false and nothing depends on what the
arrays held. -/
structure KeysReported (build : Build) (codec : TextCodec) (config : GateConfig)
    (draw : KeyDraw) : Prop where
  loaded : ∀ kNumber nNumber, codec.DecodesToKey config.cryptK kNumber →
    codec.DecodesToKey config.cryptN nNumber → ∀ kBytes nBytes, ∃ k n,
      loadKeysIn build codec config draw kBytes nBytes = .ok (true, k, n) ∧
        k.number = kNumber ∧ n.number = nNumber
  refused : ¬ ((∃ number, codec.DecodesToKey config.cryptK number) ∧
      ∃ number, codec.DecodesToKey config.cryptN number) →
    ∃ k n, ∀ kBytes nBytes,
      loadKeysIn build codec config draw kBytes nBytes = .ok (false, k, n)

/-! ### Loading one key -/

variable {build : Build} {codec : TextCodec} {config : GateConfig} {draw : KeyDraw}

theorem base64Decode_whole {text : String} {bytes : Bytes} (decodes : codec.decode text = some bytes)
    (full : bytes.length = kKeySize) (array : KeyBuffer) :
    base64Decode codec text array = ((kKeySize : Int), ⟨bytes, full⟩) := by
  have nothing : array.bytes.drop kKeySize = [] :=
    List.drop_of_length_le array.covers.le
  unfold base64Decode
  rw [decodes]
  simp [full, nothing]

theorem base64Decode_other {text : String}
    (other : ∀ bytes, codec.decode text = some bytes → bytes.length ≠ kKeySize)
    (array : KeyBuffer) : (base64Decode codec text array).1 ≠ kKeySize := by
  unfold base64Decode
  cases decodes : codec.decode text with
  | none => simp [kKeySize]
  | some bytes =>
      have short := other bytes decodes
      dsimp only
      split
      · simpa using short
      · simp [kKeySize]

theorem loadKeyIn_whole {text : String} {bytes : Bytes} (decodes : codec.decode text = some bytes)
    (full : bytes.length = kKeySize) (build : Build) (keyBytes : KeyBuffer) :
    loadKeyIn build codec text keyBytes = .ok ⟨bnBin2bn bytes, bnBin2bn_lt full⟩ := by
  unfold loadKeyIn
  rw [base64Decode_whole decodes full]
  cases build <;> simp [Build.assertD, assertD, bind, Except.bind, pure, Except.pure]

/-- The definition without builds is that of a debug build. -/
theorem loadKeyIn_debug (codec : TextCodec) (key : String) (keyBytes : KeyBuffer) :
    loadKeyIn .debug codec key keyBytes = loadKey codec key := by
  unfold loadKey
  cases decodes : codec.decode key with
  | none =>
      unfold loadKeyIn base64Decode
      rw [decodes]
      rfl
  | some decoded =>
      dsimp only
      by_cases full : decoded.length = kKeySize
      · rw [dif_pos full]
        exact loadKeyIn_whole decodes full .debug keyBytes
      · rw [dif_neg full]
        have other := base64Decode_other (fun bytes found => by
          rw [decodes] at found
          cases found
          exact full) keyBytes
        unfold loadKeyIn
        simp [Build.assertD, assertD, other, bind, Except.bind]

theorem loadKeysIn_debug (codec : TextCodec) (config : GateConfig) (draw : KeyDraw)
    (kBytes nBytes : KeyBuffer) :
    loadKeysIn .debug codec config draw kBytes nBytes = loadKeys codec config draw := by
  unfold loadKeysIn loadKeys
  simp only [loadKeyIn_debug]

/-! ### Loading both -/

theorem loadKeysIn_configured (kThere : config.cryptK ≠ "") (nThere : config.cryptN ≠ "")
    {kBytes nBytes : KeyBuffer} {result : Bool × Key × Key}
    (loads : loadKeysIn build codec config draw kBytes nBytes = .ok result) : result.1 = true := by
  have kKept : config.cryptK.isEmpty = false := by simpa using kThere
  have nKept : config.cryptN.isEmpty = false := by simpa using nThere
  unfold loadKeysIn at loads
  simp only [kKept, nKept, Bool.or_self, Bool.not_false, if_true, bind, Except.bind, pure,
    Except.pure] at loads
  cases kLoads : loadKeyIn build codec config.cryptK kBytes with
  | error stop =>
      rw [kLoads] at loads
      cases loads
  | ok k =>
      cases nLoads : loadKeyIn build codec config.cryptN nBytes with
      | error stop =>
          rw [kLoads, nLoads] at loads
          cases loads
      | ok n =>
          rw [kLoads, nLoads] at loads
          cases loads
          rfl

theorem loadKeysIn_whole {kText nText : Bytes} (kThere : config.cryptK ≠ "")
    (nThere : config.cryptN ≠ "") (kDecodes : codec.decode config.cryptK = some kText)
    (nDecodes : codec.decode config.cryptN = some nText) (kFull : kText.length = kKeySize)
    (nFull : nText.length = kKeySize) (kBytes nBytes : KeyBuffer) :
    loadKeysIn build codec config draw kBytes nBytes =
      .ok (true, ⟨bnBin2bn kText, bnBin2bn_lt kFull⟩, ⟨bnBin2bn nText, bnBin2bn_lt nFull⟩) := by
  have kKept : config.cryptK.isEmpty = false := by simpa using kThere
  have nKept : config.cryptN.isEmpty = false := by simpa using nThere
  unfold loadKeysIn
  simp only [kKept, nKept, Bool.or_self, Bool.not_false, if_true, bind, Except.bind, pure,
    Except.pure, loadKeyIn_whole kDecodes kFull, loadKeyIn_whole nDecodes nFull]

theorem loadKeysIn_missing (lawful : codec.Lawful)
    (missing : config.cryptK = "" ∨ config.cryptN = "") (kBytes nBytes : KeyBuffer) :
    loadKeysIn build codec config draw kBytes nBytes =
      .ok (false,
        ⟨bnBin2bn (storedKey draw.k draw.kKey),
          bnBin2bn_lt (storedKey_length draw.kKeySize_eq draw.kBits.2)⟩,
        ⟨bnBin2bn (storedKey draw.n draw.nKey),
          bnBin2bn_lt (storedKey_length draw.nKeySize_eq draw.nBits.2)⟩) := by
  have unconfigured : (config.cryptK.isEmpty || config.cryptN.isEmpty) = true := by
    rcases missing with kMissing | nMissing
    · simp [kMissing]
    · simp [nMissing]
  have kLoads := loadKeyIn_whole (lawful.roundTrips (storedKey draw.k draw.kKey))
    (storedKey_length draw.kKeySize_eq draw.kBits.2) build kBytes
  have nLoads := loadKeyIn_whole (lawful.roundTrips (storedKey draw.n draw.nKey))
    (storedKey_length draw.nKeySize_eq draw.nBits.2) build nBytes
  unfold loadKeysIn
  simp only [unconfigured, Bool.not_true, Bool.false_eq_true, if_false, generateKeys_eq, bind,
    Except.bind, pure, Except.pure, kLoads, nLoads]

theorem TextCodec.Lawful.text_ne_empty (lawful : codec.Lawful) {text : String} {number : Nat}
    (decodes : codec.DecodesToKey text number) : text ≠ "" := by
  rintro rfl
  obtain ⟨bytes, decoded, full, -⟩ := decodes
  rw [lawful.empty] at decoded
  cases decoded
  cases full

/-- Bad keys are reported exactly when one of the texts is missing, or none of
them is bad. -/
theorem keysReported_iff (lawful : codec.Lawful) (build : Build) (config : GateConfig)
    (draw : KeyDraw) :
    KeysReported build codec config draw ↔
      config.cryptK = "" ∨ config.cryptN = "" ∨
        ((∃ number, codec.DecodesToKey config.cryptK number) ∧
          ∃ number, codec.DecodesToKey config.cryptN number) := by
  constructor
  · intro reported
    by_contra bad
    rw [not_or, not_or] at bad
    obtain ⟨kThere, nThere, notBoth⟩ := bad
    obtain ⟨k, n, refused⟩ := reported.refused notBoth
    have array : KeyBuffer := ⟨List.replicate kKeySize 0, List.length_replicate⟩
    have configured := loadKeysIn_configured kThere nThere (refused array array)
    cases configured
  · intro good
    constructor
    · intro kNumber nNumber kDecodes nDecodes kBytes nBytes
      have kThere := lawful.text_ne_empty kDecodes
      have nThere := lawful.text_ne_empty nDecodes
      obtain ⟨kText, kDecoded, kFull, rfl⟩ := kDecodes
      obtain ⟨nText, nDecoded, nFull, rfl⟩ := nDecodes
      exact ⟨_, _, loadKeysIn_whole kThere nThere kDecoded nDecoded kFull nFull kBytes nBytes,
        rfl, rfl⟩
    · intro notBoth
      have missing : config.cryptK = "" ∨ config.cryptN = "" := by
        rcases good with kMissing | nMissing | both
        · exact Or.inl kMissing
        · exact Or.inr nMissing
        · exact absurd both notBoth
      exact ⟨_, _, loadKeysIn_missing lawful missing⟩

/-! ### A short key -/

theorem base64Codec_lawful : base64Codec.Lawful :=
  ⟨base64Codec_roundTrips, rfl⟩

/-- Section `gate` with two texts for the keys. -/
def gateConfig (cryptK cryptN : String) : GateConfig :=
  ⟨cryptK, cryptN, "", 4⟩

theorem keysReported_missing : KeysReported .release base64Codec (gateConfig "" "AAAA") sampleDraw :=
  (keysReported_iff base64Codec_lawful .release (gateConfig "" "AAAA") sampleDraw).2 (Or.inl rfl)

/-- A release build reports a key of three bytes as configured. -/
theorem not_keysReported_every_text :
    ¬ ∀ (codec : TextCodec) (_ : codec.Lawful) (build : Build) (config : GateConfig)
      (draw : KeyDraw), KeysReported build codec config draw := by
  intro reported
  have short : base64Codec.decode "AAAA" = some [0, 0, 0] := by decide +kernel
  obtain ⟨k, n, refused⟩ := (reported base64Codec base64Codec_lawful .release
    (gateConfig "AAAA" "AAAA") sampleDraw).refused (by
      rintro ⟨⟨number, bytes, decoded, full, -⟩, -⟩
      change base64Codec.decode "AAAA" = some bytes at decoded
      rw [short] at decoded
      cases decoded
      cases full)
  have array : KeyBuffer := ⟨List.replicate kKeySize 0, List.length_replicate⟩
  have configured := loadKeysIn_configured (by decide) (by decide) (refused array array)
  cases configured

end ThemeSrv
