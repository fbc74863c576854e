import ThemeSrv.ClientStages
import ThemeSrv.SavedConfig

/-!
# Starting the daemon

`main` up to its event loop.  The configuration is read, the keys in it may be
replaced by new ones, an ini file for the clients and the configuration itself
may be written, and the gatekeeper takes its addresses and keys from it.
-/

namespace ThemeSrv

open ByteString ConfigParser

/-! ### A process and its files -/

/-- The command line. -/
structure Flags where
  configPath : String
  generateClientIni : String
  generateKeys : Bool
  saveConfig : Bool

/-- The files that exist, with their contents. -/
abbrev Files := String → Option Text

/-- What a process is built with and what it draws: one pair of primes for
`generate_daemon_keys`, one for a gatekeeper without configured keys, and the
bytes that no program text determines. -/
structure Process where
  build : Build
  codec : TextCodec
  allowDecrypted : Bool
  /-- Whether a stream can be opened for writing. -/
  writable : String → Bool
  daemonDraw : KeyDraw
  gateDraw : KeyDraw
  kBytes : KeyBuffer
  nBytes : KeyBuffer
  rc4 : Bytes → Nat → UInt8
  random : Nat → Nat → UInt8
  residue : Nat → Nat → UInt16

/-- The files behind a stream that truncates one of them. -/
def Process.written (process : Process) (files : Files) (path : String) (contents : Text) :
    Files :=
  if process.writable path then Function.update files path (some contents) else files

/-! ### The steps of `main` -/

def lobby : Text := "lobby".toList
def gate : Text := "gate".toList
def cryptK : Text := "crypt_k".toList
def cryptN : Text := "crypt_n".toList
def cryptX : Text := "crypt_x".toList
def cryptG : Text := "crypt_g".toList
def bindaddr : Text := "bindaddr".toList
def extaddr : Text := "extaddr".toList
def port : Text := "port".toList
def fileaddr : Text := "fileaddr".toList
def authaddr : Text := "authaddr".toList

/-- `server::generate_daemon_keys`. -/
def ConfigParser.generateDaemonKeys (build : Build) (codec : TextCodec) (config : ConfigParser)
    (draw : KeyDraw) : Except Stop ConfigParser := do
  let gValue ← config.getUnsigned build gate cryptG
  let (kstr, nstr, xstr) ← generateKeys codec gValue draw
  let config ← config.setString build gate cryptK kstr.toList
  let config ← config.setString build gate cryptN nstr.toList
  config.setString build gate cryptX xstr.toList

/-- What `server::generate_client_ini` writes for the values it has read. -/
def clientIni (gValue : UInt32) (nText xText host : Text) (port : UInt32) : Text :=
  "Server.Gate.G ".toList ++ (toString gValue.toNat).toList ++ endl ++
  "Server.Gate.N \"".toList ++ nText ++ ['"'] ++ endl ++
  "Server.Gate.X \"".toList ++ xText ++ ['"'] ++ endl ++
  "Server.Gate.Host \"".toList ++ host ++ ['"'] ++ endl ++
  "Server.Port ".toList ++ (toString port.toNat).toList ++ endl

/-- `server::generate_client_ini`. -/
def ConfigParser.generateClientIni (build : Build) (config : ConfigParser) : Except Stop Text := do
  let gValue ← config.getUnsigned build gate cryptG
  let nText ← config.getString build gate cryptN
  let xText ← config.getString build gate cryptX
  let bindAddress ← config.getString build lobby bindaddr
  let extAddress ← config.getString build lobby extaddr
  let portNumber ← config.getUnsigned build lobby port
  return clientIni gValue nText xText
    (if extAddress.isEmpty then bindAddress else extAddress) portNumber

/-- The configuration the constructor of `server` reads. -/
def configRead (files : Files) (path : String) : ConfigParser :=
  ((new daemonConfig).read (files path)).2

/-- The configuration of a process, with new keys if the flag asks for them. -/
def configured (process : Process) (flags : Flags) (files : Files) : Except Stop ConfigParser :=
  let config := configRead files flags.configPath
  if flags.generateKeys then
    config.generateDaemonKeys process.build process.codec process.daemonDraw
  else pure config

/-- The files with the ini file, if the flag names one. -/
def iniWritten (process : Process) (flags : Flags) (files : Files) (config : ConfigParser) :
    Except Stop Files :=
  if flags.generateClientIni.isEmpty then pure files
  else do
    let ini ← config.generateClientIni process.build
    return process.written files flags.generateClientIni ini

/-- `main` up to `run`: the files it leaves, and the configuration it goes on with. -/
def startUp (process : Process) (flags : Flags) (files : Files) :
    Except Stop (Files × ConfigParser) := do
  let config ← configured process flags files
  let written ← iniWritten process flags files config
  if flags.saveConfig then
    return (process.written written flags.configPath config.write, config)
  else
    return (written, config)

/-- `crypto::load_keys`, with the entries it reads. -/
def loadKeysFrom (build : Build) (codec : TextCodec) (config : ConfigParser) (name : Text)
    (draw : KeyDraw) (kBytes nBytes : KeyBuffer) : Except Stop (Bool × Key × Key) := do
  let kstr ← config.getString build name cryptK
  let nstr ← config.getString build name cryptN
  let missing := kstr.isEmpty || nstr.isEmpty
  let (kstr, nstr) ←
    if missing then do
      let gValue ← config.getUnsigned build name cryptG
      let (kstr, nstr, _) ← generateKeys codec gValue draw
      pure (kstr, nstr)
    else
      pure (String.ofList kstr, String.ofList nstr)
  let k ← loadKeyIn build codec kstr kBytes
  let n ← loadKeyIn build codec nstr nBytes
  return (!missing, k, n)

/-- The address and the port `init_fds` binds, which is cut to 16 bits. -/
def bindTarget (build : Build) (config : ConfigParser) : Except Stop (Text × UInt16) := do
  let address ← config.getCStr build lobby bindaddr
  let portNumber ← config.getUnsigned build lobby port
  return (address, portNumber.toUInt16)

/-- The constructor of `gatekeeper_daemon`: whether its keys are configured,
and what the clients of the daemon share. -/
def gatekeeperDaemon (process : Process) (config : ConfigParser) : Except Stop (Bool × Server) := do
  let authsrv ← config.getU16 process.build gate authaddr
  let filesrv ← config.getU16 process.build gate fileaddr
  let (result, k, n) ←
    loadKeysFrom process.build process.codec config gate process.gateDraw process.kBytes
      process.nBytes
  return (result, {
    allowDecrypted := process.allowDecrypted
    cryptK := k
    cryptN := n
    filesrvAddress := filesrv
    authsrvAddress := authsrv
    rc4 := process.rc4
    random := process.random
    residue := process.residue })

/-! ### The items of the daemon -/

namespace ConfigParser

variable {config : ConfigParser} {name key : Text}

theorem getString_eq (overTable : config.Over daemonConfig) (build : Build)
    (typed : (definition daemonConfig name key).map ConfigItem.valueType = some .string) :
    config.getString build name key = .ok (config.value name key) :=
  overTable.getAs build typed

theorem getU16_eq (overTable : config.Over daemonConfig) (build : Build)
    (typed : (definition daemonConfig name key).map ConfigItem.valueType = some .string) :
    config.getU16 build name key = .ok (toUtf16 (config.value name key)) := by
  rw [getU16, overTable.getAs build typed]
  rfl

theorem getCStr_eq (overTable : config.Over daemonConfig) (build : Build)
    (typed : (definition daemonConfig name key).map ConfigItem.valueType = some .string) :
    config.getCStr build name key = .ok (cStr (config.value name key)) := by
  rw [getCStr, overTable.getAs build typed]
  rfl

theorem getUnsigned_eq (overTable : config.Over daemonConfig) (build : Build)
    (typed : (definition daemonConfig name key).map ConfigItem.valueType = some .integer) :
    config.getUnsigned build name key = .ok (toUint (config.value name key)) := by
  rw [getUnsigned, overTable.getAs build typed]
  rfl

theorem setString_eq (overTable : config.Over daemonConfig) (build : Build)
    (typed : (definition daemonConfig name key).map ConfigItem.valueType = some .string)
    (text : Text) :
    config.setString build name key text = .ok (config.store name key fun _ => text) :=
  overTable.setAs_eq build typed text

/-- The three texts of the keys are replaced. -/
def withKeys (config : ConfigParser) (kText nText xText : Text) : ConfigParser :=
  ((config.store gate cryptK fun _ => kText).store gate cryptN fun _ => nText).store gate cryptX
    fun _ => xText

/-- The keys of a draw, for the base that is configured. -/
def withNewKeys (config : ConfigParser) (codec : TextCodec) (draw : KeyDraw) : ConfigParser :=
  config.withKeys (codec.encode (storedKey draw.k draw.kKey)).toList
    (codec.encode (storedKey draw.n draw.nKey)).toList
    (codec.encode (storedKey (draw.x (toUint (config.value gate cryptG))) draw.xKey)).toList

theorem generateDaemonKeys_eq (overTable : config.Over daemonConfig) (build : Build)
    (codec : TextCodec) (draw : KeyDraw) :
    config.generateDaemonKeys build codec draw = .ok (config.withNewKeys codec draw) := by
  have overK := overTable.store gate cryptK
    fun _ => (codec.encode (storedKey draw.k draw.kKey)).toList
  have overN := overK.store gate cryptN
    fun _ => (codec.encode (storedKey draw.n draw.nKey)).toList
  rw [generateDaemonKeys, getUnsigned_eq overTable build (by decide +kernel)]
  simp only [bind, Except.bind, generateKeys_eq]
  rw [setString_eq overTable build (by decide +kernel)]
  simp only
  rw [setString_eq overK build (by decide +kernel)]
  simp only
  rw [setString_eq overN build (by decide +kernel)]
  rfl

theorem over_withNewKeys (overTable : config.Over daemonConfig) (codec : TextCodec)
    (draw : KeyDraw) : (config.withNewKeys codec draw).Over daemonConfig :=
  ((overTable.store ..).store ..).store ..

theorem value_withKeys_other (kText nText xText : Text)
    (apartK : (foldCase gate, foldCase cryptK) ≠ (foldCase name, foldCase key))
    (apartN : (foldCase gate, foldCase cryptN) ≠ (foldCase name, foldCase key))
    (apartX : (foldCase gate, foldCase cryptX) ≠ (foldCase name, foldCase key)) :
    (config.withKeys kText nText xText).value name key = config.value name key := by
  rw [withKeys, value_store_other _ apartX, value_store_other _ apartN,
    value_store_other _ apartK]

theorem value_withKeys_k (overTable : config.Over daemonConfig) (kText nText xText : Text) :
    (config.withKeys kText nText xText).value gate cryptK = kText := by
  rw [withKeys, value_store_other _ (by decide +kernel), value_store_other _ (by decide +kernel),
    overTable.value_store (by decide +kernel)]

theorem value_withKeys_n (overTable : config.Over daemonConfig) (kText nText xText : Text) :
    (config.withKeys kText nText xText).value gate cryptN = nText := by
  rw [withKeys, value_store_other _ (by decide +kernel),
    (overTable.store ..).value_store (by decide +kernel)]

theorem value_withKeys_x (overTable : config.Over daemonConfig) (kText nText xText : Text) :
    (config.withKeys kText nText xText).value gate cryptX = xText :=
  ((overTable.store ..).store ..).value_store (by decide +kernel) xText

end ConfigParser

/-! ### What the steps come to -/

theorem over_configRead (files : Files) (path : String) :
    (configRead files path).Over daemonConfig :=
  (over_new daemonConfig).read (files path)

/-- What `generate_client_ini` writes. -/
def iniOf (config : ConfigParser) : Text :=
  clientIni (toUint (config.value gate cryptG)) (config.value gate cryptN)
    (config.value gate cryptX)
    (if (config.value lobby extaddr).isEmpty then config.value lobby bindaddr
      else config.value lobby extaddr)
    (toUint (config.value lobby port))

theorem generateClientIni_eq {config : ConfigParser} (overTable : config.Over daemonConfig)
    (build : Build) : config.generateClientIni build = .ok (iniOf config) := by
  rw [ConfigParser.generateClientIni, getUnsigned_eq overTable build (by decide +kernel),
    getString_eq overTable build (by decide +kernel),
    getString_eq overTable build (by decide +kernel),
    getString_eq overTable build (by decide +kernel),
    getString_eq overTable build (by decide +kernel),
    getUnsigned_eq overTable build (by decide +kernel)]
  rfl

/-- The configuration `main` goes on with. -/
def configOf (process : Process) (flags : Flags) (files : Files) : ConfigParser :=
  if flags.generateKeys then
    (configRead files flags.configPath).withNewKeys process.codec process.daemonDraw
  else configRead files flags.configPath

/-- The files with the ini file. -/
def withIni (process : Process) (flags : Flags) (files : Files) : Files :=
  if flags.generateClientIni.isEmpty then files
  else process.written files flags.generateClientIni (iniOf (configOf process flags files))

/-- The files `main` leaves. -/
def filesOf (process : Process) (flags : Flags) (files : Files) : Files :=
  if flags.saveConfig then
    process.written (withIni process flags files) flags.configPath
      (configOf process flags files).write
  else withIni process flags files

theorem over_configOf (process : Process) (flags : Flags) (files : Files) :
    (configOf process flags files).Over daemonConfig := by
  rw [configOf]
  split
  · exact over_withNewKeys (over_configRead files flags.configPath) _ _
  · exact over_configRead files flags.configPath

theorem configured_eq (process : Process) (flags : Flags) (files : Files) :
    configured process flags files = .ok (configOf process flags files) := by
  rw [configured, configOf, generateDaemonKeys_eq (over_configRead files flags.configPath)]
  split <;> rfl

theorem iniWritten_eq (process : Process) (flags : Flags) (files : Files) :
    iniWritten process flags files (configOf process flags files) =
      .ok (withIni process flags files) := by
  rw [iniWritten, withIni, generateClientIni_eq (over_configOf process flags files)]
  split <;> rfl

/-- No file stops the daemon before its event loop. -/
theorem startUp_eq (process : Process) (flags : Flags) (files : Files) :
    startUp process flags files =
      .ok (filesOf process flags files, configOf process flags files) := by
  rw [startUp, configured_eq]
  simp only [bind, Except.bind, iniWritten_eq, filesOf]
  split <;> rfl

/-- `load_keys` works on the entries of its section. -/
theorem loadKeysFrom_eq {config : ConfigParser} (overTable : config.Over daemonConfig)
    (build : Build) (codec : TextCodec) (draw : KeyDraw) (kBytes nBytes : KeyBuffer) :
    loadKeysFrom build codec config gate draw kBytes nBytes =
      loadKeysIn build codec
        ⟨String.ofList (config.value gate cryptK), String.ofList (config.value gate cryptN),
          String.ofList (config.value gate cryptX), toUint (config.value gate cryptG)⟩
        draw kBytes nBytes := by
  have isEmpty (text : Text) : (String.ofList text).isEmpty = text.isEmpty := by
    cases text <;> simp
  rw [loadKeysFrom, loadKeysIn, getString_eq overTable build (by decide +kernel),
    getString_eq overTable build (by decide +kernel),
    getUnsigned_eq overTable build (by decide +kernel)]
  simp only [isEmpty, bind, Except.bind, pure, Except.pure]
  cases missing : (config.value gate cryptK).isEmpty || (config.value gate cryptN).isEmpty <;> rfl

end ThemeSrv
