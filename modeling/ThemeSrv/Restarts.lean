import Mathlib.Logic.Relation
import ThemeSrv.ClientRuns
import ThemeSrv.Deployment

/-!
# What survives a restart

A daemon that has saved its configuration is started again and again, and
other programs change other files.  Every value stays as the first start has
read it, or as its new keys have left it.  So the keys that were drawn once are
those of every later gatekeeper, and the ini file that was written with them
keeps serving the clients.
-/

namespace ThemeSrv

open ByteString ConfigParser ModularPower

/-- What a text in base64 consists of, besides what `load_keys` relies on. -/
structure TextCodec.Standard (codec : TextCodec) : Prop extends codec.Lawful where
  symbols : ∀ bytes, ∀ c ∈ (codec.encode bytes).toList, c ∈ Base64.padding :: Base64.alphabet

/-- What happens to the files besides `path`, which holds the configuration:
the daemon is started without generating keys, and with any ini file but that
one, or some other file changes. -/
inductive FileStep (path : String) : Files → Files → Prop
  | restart {process : Process} {flags : Flags} {files files' : Files} {config : ConfigParser}
      (same : flags.configPath = path) (noKeys : flags.generateKeys = false)
      (elsewhere : flags.generateClientIni ≠ path)
      (starts : startUp process flags files = .ok (files', config)) : FileStep path files files'
  | change (files : Files) {other : String} (apart : other ≠ path) (contents : Option Text) :
      FileStep path files (Function.update files other contents)

/-! ### Texts of keys -/

theorem isKept_symbols {text : Text} (symbols : ∀ c ∈ text, c ∈ Base64.padding :: Base64.alphabet) :
    IsKept text := by
  have each : ∀ c ∈ Base64.padding :: Base64.alphabet,
      c ≠ '\n' ∧ c ≠ nul ∧ isSpace c = false ∧ c ≠ '[' := by
    have all : (Base64.padding :: Base64.alphabet).all fun c =>
        decide (c ≠ '\n' ∧ c ≠ nul ∧ isSpace c = false ∧ c ≠ '[') := by decide +kernel
    exact fun c member => of_decide_eq_true (List.all_eq_true.1 all c member)
  have noBracket : bracketName (text ++ []) = bracketName [] :=
    bracketName_append (fun member => (each _ (symbols _ member)).2.2.2 rfl) []
  constructor
  · constructor
    · exact fun member => (each _ (symbols _ member)).1 rfl
    · exact fun member => (each _ (symbols _ member)).2.1 rfl
    · exact fun c head => (each c (symbols c (List.mem_of_head? head))).2.2.1
    · exact fun c last => (each c (symbols c (List.mem_of_getLast? last))).2.2.1
  · rwa [List.append_nil] at noBracket
  · intro c member
    refine ⟨(each c (symbols c member)).2.1, ?_⟩
    rw [(each c (symbols c member)).2.2.1]
    exact Bool.noConfusion

variable {codec : TextCodec}

theorem TextCodec.Lawful.encode_ne_nil (lawful : codec.Lawful) {bytes : Bytes}
    (nonempty : bytes ≠ []) : (codec.encode bytes).toList ≠ [] := by
  intro empty
  have decoded := lawful.roundTrips bytes
  rw [String.toList_eq_nil_iff.1 empty, lawful.empty] at decoded
  exact nonempty (Option.some.inj decoded).symm

theorem storedKey_ne_nil {number : Nat} {array : Bytes} (size : array.length = kKeySize)
    (fits : number < 256 ^ kKeySize) : storedKey number array ≠ [] := by
  intro empty
  have full := storedKey_length size fits
  rw [empty] at full
  cases full

namespace ConfigParser

variable {config : ConfigParser}

theorem Keeps.withNewKeys (keeps : config.Keeps) (standard : codec.Standard) (draw : KeyDraw) :
    (config.withNewKeys codec draw).Keeps := by
  have text (bytes : Bytes) : IsKept (codec.encode bytes).toList :=
    isKept_symbols (standard.symbols bytes)
  have stored {number : Nat} {array : Bytes} (size : array.length = kKeySize)
      (fits : number < 256 ^ kKeySize) : (codec.encode (storedKey number array)).toList ≠ [] :=
    standard.encode_ne_nil (storedKey_ne_nil size fits)
  apply Keeps.store
  · apply Keeps.store
    · apply Keeps.store keeps
      · exact fun _ => text _
      · exact fun _ _ => stored draw.kKeySize_eq draw.kBits.2
    · exact fun _ => text _
    · exact fun _ _ => stored draw.nKeySize_eq draw.nBits.2
  · exact fun _ => text _
  · exact fun _ _ => stored draw.xKeySize_eq (draw.x_fits _)

end ConfigParser

/-! ### One start -/

variable {process : Process} {flags : Flags} {files files' : Files} {path : String}

theorem written_same (files : Files) (contents : Text) (canWrite : process.writable path) :
    process.written files path contents path = some contents := by
  rw [Process.written, if_pos canWrite, Function.update_self]

theorem written_other (files : Files) {other : String} (contents : Text) (apart : path ≠ other) :
    process.written files other contents path = files path := by
  rw [Process.written]
  split
  · exact Function.update_of_ne apart _ _
  · rfl

theorem withIni_other (files : Files) (elsewhere : flags.generateClientIni ≠ path) :
    withIni process flags files path = files path := by
  rw [withIni]
  split
  · rfl
  · exact written_other files _ elsewhere.symm

/-- The file of the configuration is left alone or holds the configuration. -/
theorem filesOf_configPath (elsewhere : flags.generateClientIni ≠ flags.configPath) :
    filesOf process flags files flags.configPath = files flags.configPath ∨
      filesOf process flags files flags.configPath = some (configOf process flags files).write := by
  rw [filesOf]
  split
  · by_cases canWrite : process.writable flags.configPath
    · exact Or.inr (written_same _ _ canWrite)
    · left
      rw [Process.written, if_neg canWrite]
      exact withIni_other files elsewhere
  · exact Or.inl (withIni_other files elsewhere)

theorem keeps_configRead (ordinary : ∀ contents ∈ files path, IsOrdinary contents) :
    (configRead files path).Keeps :=
  keeps_new.read ordinary

/-- What was written is read as it was. -/
theorem configRead_write {config : ConfigParser} (overTable : config.Over daemonConfig)
    (keeps : config.Keeps) (written : files path = some config.write) :
    (configRead files path).Keeps ∧ (configRead files path).SameValues config := by
  have same : (configRead files path).SameValues config := by
    rw [configRead, written]
    exact keeps.sameValues_read_write overTable daemonConfig_names daemonConfig_keys
  exact ⟨keeps.congr overTable (over_configRead files path) same, same⟩

theorem FileStep.keeps (step : FileStep path files files') (keeps : (configRead files path).Keeps) :
    (configRead files' path).Keeps ∧
      (configRead files' path).SameValues (configRead files path) := by
  cases step with
  | @restart process flags _ _ _ same noKeys elsewhere starts =>
      subst same
      rw [startUp_eq] at starts
      cases starts
      have config : configOf process flags files = configRead files flags.configPath := by
        simp [configOf, noKeys]
      have kept : filesOf process flags files flags.configPath = files flags.configPath ∨
          filesOf process flags files flags.configPath =
            some (configOf process flags files).write := filesOf_configPath elsewhere
      rcases kept with left | saved
      · rw [configRead, left]
        exact ⟨keeps, fun _ _ => rfl⟩
      · rw [config] at saved
        exact configRead_write (over_configRead files flags.configPath) keeps saved
  | change _ apart contents =>
      rw [configRead, Function.update_of_ne apart.symm]
      exact ⟨keeps, fun _ _ => rfl⟩

theorem FileStep.run (run : Relation.ReflTransGen (FileStep path) files files')
    (keeps : (configRead files path).Keeps) :
    (configRead files' path).Keeps ∧
      (configRead files' path).SameValues (configRead files path) := by
  induction run with
  | refl => exact ⟨keeps, fun _ _ => rfl⟩
  | tail _ step ih =>
      obtain ⟨kept, same⟩ := step.keeps ih.1
      exact ⟨kept, same.trans ih.2⟩

/-! ### The keys of a gatekeeper -/

/-- A gatekeeper whose texts encode whole keys has them configured. -/
theorem gatekeeperDaemon_eq {config : ConfigParser} (overTable : config.Over daemonConfig)
    (standard : process.codec.Standard) {kText nText : Bytes}
    (kStored : config.value gate cryptK = (process.codec.encode kText).toList)
    (nStored : config.value gate cryptN = (process.codec.encode nText).toList)
    (kFull : kText.length = kKeySize) (nFull : nText.length = kKeySize) :
    ∃ server, gatekeeperDaemon process config = .ok (true, server) ∧
      server.cryptK.number = bnBin2bn kText ∧ server.cryptN.number = bnBin2bn nText ∧
      server.authsrvAddress = toUtf16 (config.value gate authaddr) ∧
      server.filesrvAddress = toUtf16 (config.value gate fileaddr) ∧
      server.rc4 = process.rc4 ∧ server.random = process.random := by
  have there {text : Bytes} (full : text.length = kKeySize) : process.codec.encode text ≠ "" := by
    intro empty
    have nonempty : text ≠ [] := by
      rintro rfl
      cases full
    exact standard.encode_ne_nil nonempty (by rw [empty]; rfl)
  have loads : loadKeysIn process.build process.codec
      ⟨process.codec.encode kText, process.codec.encode nText,
        String.ofList (config.value gate cryptX), toUint (config.value gate cryptG)⟩
      process.gateDraw process.kBytes process.nBytes =
        .ok (true, ⟨bnBin2bn kText, bnBin2bn_lt kFull⟩, ⟨bnBin2bn nText, bnBin2bn_lt nFull⟩) :=
    loadKeysIn_whole (there kFull) (there nFull) (standard.roundTrips kText)
      (standard.roundTrips nText) kFull nFull process.kBytes process.nBytes
  rw [gatekeeperDaemon, getU16_eq overTable process.build (by decide +kernel),
    getU16_eq overTable process.build (by decide +kernel), loadKeysFrom_eq overTable, kStored,
    nStored, String.ofList_toList, String.ofList_toList, loads]
  exact ⟨_, rfl, rfl, rfl, rfl, rfl, rfl, rfl⟩

/-- Whatever is restarted, and however often it saves what it has read: every
value stays. -/
theorem values_survive_restarts {path : String} {files later : Files}
    (ordinary : ∀ contents ∈ files path, IsOrdinary contents)
    (run : Relation.ReflTransGen (FileStep path) files later) :
    (configRead later path).SameValues (configRead files path) :=
  (FileStep.run run (keeps_configRead ordinary)).2

theorem base64Codec_standard : base64Codec.Standard where
  toLawful := base64Codec_lawful
  symbols := by
    intro bytes c member
    exact Base64.mem_encode (by simpa [base64Codec] using member)

/-- A process that can write every file. -/
def sampleProcess : Process where
  build := .release
  codec := base64Codec
  allowDecrypted := false
  writable := fun _ => true
  daemonDraw := sampleDraw
  gateDraw := sampleDraw
  kBytes := ⟨sampleDraw.kKey, sampleDraw.kKeySize_eq⟩
  nBytes := ⟨sampleDraw.nKey, sampleDraw.nKeySize_eq⟩
  rc4 := fun _ _ => 0
  random := fun _ _ => 0
  residue := fun _ _ => 0

/-- A configuration with an address for the clients. -/
def sampleFiles : Files :=
  fun path => if path = "theme.ini" then some "[gate]\nauthaddr = 10.0.0.1\n".toList else none

theorem sampleFiles_ordinary : ∀ contents ∈ sampleFiles "theme.ini", IsOrdinary contents := by
  have each : IsOrdinary "[gate]\nauthaddr = 10.0.0.1\n".toList := by decide +kernel
  intro contents member
  obtain rfl := Option.some.inj member
  exact each

theorem sampleFiles_authaddr :
    (configRead sampleFiles "theme.ini").value gate authaddr = "10.0.0.1".toList := by
  decide +kernel

/-- Started as it is after an installation. -/
def installing : Flags := ⟨"theme.ini", "server.ini", true, true⟩

/-- Started without new keys, and saving again. -/
def restarting : Flags := ⟨"theme.ini", "", false, true⟩

theorem restarting_step (files : Files) :
    FileStep "theme.ini" files (filesOf sampleProcess restarting files) :=
  .restart rfl rfl (by decide) (startUp_eq sampleProcess restarting files)

theorem values_survive_restarts_address : ∃ later,
    Relation.ReflTransGen (FileStep "theme.ini") sampleFiles later ∧
      (configRead later "theme.ini").value gate authaddr = "10.0.0.1".toList := by
  have run : Relation.ReflTransGen (FileStep "theme.ini") sampleFiles
      (filesOf sampleProcess restarting sampleFiles) := .single (restarting_step sampleFiles)
  have same := values_survive_restarts sampleFiles_ordinary run
  exact ⟨_, run, (same.value_eq gate authaddr).trans sampleFiles_authaddr⟩

/-- A daemon has been started that generates keys and saves them, which has
left `files'`; starts without new keys and other programs have made `later` of
these. -/
structure Deployed (process : Process) (flags : Flags) (files files' later : Files) : Prop where
  standard : process.codec.Standard
  ordinary : ∀ contents ∈ files flags.configPath, IsOrdinary contents
  generates : flags.generateKeys = true
  saves : flags.saveConfig = true
  canSave : process.writable flags.configPath = true
  starts : ∃ config, startUp process flags files = .ok (files', config)
  since : Relation.ReflTransGen (FileStep flags.configPath) files' later

variable {later : Files}

namespace Deployed

theorem filesOf_eq (deployed : Deployed process flags files files' later) :
    files' = filesOf process flags files := by
  obtain ⟨config, starts⟩ := deployed.starts
  rw [startUp_eq] at starts
  cases starts
  rfl

theorem configOf_eq (deployed : Deployed process flags files files' later) :
    configOf process flags files =
      (configRead files flags.configPath).withNewKeys process.codec process.daemonDraw := by
  rw [configOf, if_pos deployed.generates]

theorem overDaemon (deployed : Deployed process flags files files' later) :
    ((configRead files flags.configPath).withNewKeys process.codec process.daemonDraw).Over
      daemonConfig := by
  rw [← deployed.configOf_eq]
  exact over_configOf process flags files

/-- What is read since is what the first start has saved. -/
theorem sameValues (deployed : Deployed process flags files files' later) :
    (configRead later flags.configPath).SameValues
      ((configRead files flags.configPath).withNewKeys process.codec process.daemonDraw) := by
  have keeps := (keeps_configRead deployed.ordinary).withNewKeys deployed.standard
    process.daemonDraw
  have saved : files' flags.configPath = some
      ((configRead files flags.configPath).withNewKeys process.codec process.daemonDraw).write := by
    rw [deployed.filesOf_eq, filesOf, if_pos deployed.saves, deployed.configOf_eq]
    exact written_same _ _ deployed.canSave
  obtain ⟨kept, same⟩ := configRead_write deployed.overDaemon keeps saved
  exact (FileStep.run deployed.since kept).2.trans same

theorem value_other (deployed : Deployed process flags files files' later) {name key : Text}
    (apartK : (foldCase gate, foldCase cryptK) ≠ (foldCase name, foldCase key))
    (apartN : (foldCase gate, foldCase cryptN) ≠ (foldCase name, foldCase key))
    (apartX : (foldCase gate, foldCase cryptX) ≠ (foldCase name, foldCase key)) :
    (configRead later flags.configPath).value name key =
      (configRead files flags.configPath).value name key :=
  (deployed.sameValues.value_eq name key).trans (value_withKeys_other _ _ _ apartK apartN apartX)

/-- A later gatekeeper has the keys of the draw and the addresses of the first
configuration. -/
theorem gatekeeper (deployed : Deployed process flags files files' later) {process' : Process}
    (sameCodec : process'.codec = process.codec) :
    ∃ server, gatekeeperDaemon process' (configRead later flags.configPath) = .ok (true, server) ∧
      server.cryptK.number = process.daemonDraw.k ∧ server.cryptN.number = process.daemonDraw.n ∧
      server.authsrvAddress =
        toUtf16 ((configRead files flags.configPath).value gate authaddr) ∧
      server.filesrvAddress =
        toUtf16 ((configRead files flags.configPath).value gate fileaddr) ∧
      server.rc4 = process'.rc4 ∧ server.random = process'.random := by
  have overRead := over_configRead files flags.configPath
  have kStored := (deployed.sameValues.value_eq gate cryptK).trans (value_withKeys_k overRead _ _ _)
  have nStored := (deployed.sameValues.value_eq gate cryptN).trans (value_withKeys_n overRead _ _ _)
  rw [← sameCodec] at kStored nStored
  obtain ⟨server, loads, k, n, authsrv, filesrv, rc4, random⟩ :=
    gatekeeperDaemon_eq (over_configRead later flags.configPath)
      (sameCodec ▸ deployed.standard) kStored nStored
      (storedKey_length process.daemonDraw.kKeySize_eq process.daemonDraw.kBits.2)
      (storedKey_length process.daemonDraw.nKeySize_eq process.daemonDraw.nBits.2)
  rw [bnBin2bn_storedKey_of_bits process.daemonDraw.kKeySize_eq process.daemonDraw.kBits] at k
  rw [bnBin2bn_storedKey_of_bits process.daemonDraw.nKeySize_eq process.daemonDraw.nBits] at n
  rw [deployed.value_other (by decide +kernel) (by decide +kernel) (by decide +kernel)] at authsrv
  rw [deployed.value_other (by decide +kernel) (by decide +kernel) (by decide +kernel)] at filesrv
  exact ⟨server, loads, k, n, authsrv, filesrv, rc4, random⟩

end Deployed

/-- The keys that were drawn and saved once are those of every gatekeeper that
is started later. -/
theorem keys_survive_restarts (process process' : Process) (flags : Flags) {files files' later : Files}
    (sameCodec : process'.codec = process.codec)
    (deployed : Deployed process flags files files' later) :
    ∃ server, gatekeeperDaemon process' (configRead later flags.configPath) = .ok (true, server) ∧
      server.cryptK.number = process.daemonDraw.k ∧ server.cryptN.number = process.daemonDraw.n ∧
      server.authsrvAddress =
        toUtf16 ((configRead files flags.configPath).value gate authaddr) ∧
      server.filesrvAddress =
        toUtf16 ((configRead files flags.configPath).value gate fileaddr) := by
  obtain ⟨server, loads, k, n, authsrv, filesrv, -, -⟩ := deployed.gatekeeper sameCodec
  exact ⟨server, loads, k, n, authsrv, filesrv⟩

theorem deployed_sample : Deployed sampleProcess installing sampleFiles
    (filesOf sampleProcess installing sampleFiles)
    (filesOf sampleProcess restarting (filesOf sampleProcess installing sampleFiles)) where
  standard := base64Codec_standard
  ordinary := sampleFiles_ordinary
  generates := rfl
  saves := rfl
  canSave := rfl
  starts := ⟨_, startUp_eq sampleProcess installing sampleFiles⟩
  since := .single (restarting_step _)

theorem keys_survive_restarts_sample : ∃ later server,
    gatekeeperDaemon sampleProcess (configRead later "theme.ini") = .ok (true, server) ∧
      server.cryptK.number = drawnK ∧ server.authsrvAddress = toUtf16 "10.0.0.1".toList := by
  obtain ⟨server, loads, k, -, authsrv, -⟩ :=
    keys_survive_restarts sampleProcess sampleProcess installing rfl deployed_sample
  refine ⟨_, server, loads, k, authsrv.trans ?_⟩
  exact congrArg toUtf16 sampleFiles_authaddr

/-! ### The clients -/

theorem ConfigParser.Keeps.value {config : ConfigParser} (keeps : config.Keeps)
    (overTable : config.Over daemonConfig) (name key : Text) : IsKept (config.value name key) := by
  rw [ConfigParser.value]
  cases found : config.findItem name key with
  | none => exact isKept_nil
  | some entry =>
      obtain ⟨node, member, -, entryMember, -⟩ := overTable.findItem_eq_some.1 found
      exact keeps.kept node member entry entryMember

namespace Deployed

/-- The base that is configured. -/
def base (flags : Flags) (files : Files) : UInt32 :=
  toUint ((configRead files flags.configPath).value gate cryptG)

theorem ini (deployed : Deployed process flags files files' later)
    (named : flags.generateClientIni ≠ "")
    (apart : flags.generateClientIni ≠ flags.configPath)
    (canWrite : process.writable flags.generateClientIni = true) :
    files' flags.generateClientIni = some (iniOf
      ((configRead files flags.configPath).withNewKeys process.codec process.daemonDraw)) := by
  have asked : flags.generateClientIni.isEmpty = false := by simpa using named
  rw [deployed.filesOf_eq, filesOf, if_pos deployed.saves, written_other _ _ apart, withIni, asked,
    if_neg Bool.false_ne_true, written_same _ _ canWrite, deployed.configOf_eq]

/-- A later start binds what the first one would have bound. -/
theorem bindTarget_eq (deployed : Deployed process flags files files' later) (build : Build) :
    bindTarget build (configRead later flags.configPath) =
      .ok ((configRead files flags.configPath).value lobby bindaddr,
        (toUint ((configRead files flags.configPath).value lobby port)).toUInt16) := by
  have overLater := over_configRead later flags.configPath
  have kept := (keeps_configRead deployed.ordinary).value
    (over_configRead files flags.configPath) lobby bindaddr
  rw [bindTarget, getCStr_eq overLater build (by decide +kernel),
    getUnsigned_eq overLater build (by decide +kernel),
    deployed.value_other (by decide +kernel) (by decide +kernel) (by decide +kernel),
    deployed.value_other (by decide +kernel) (by decide +kernel) (by decide +kernel),
    cStr_eq kept.plain.noNul]
  rfl

end Deployed

/-- The ini file that was written with the keys serves the clients of every
later gatekeeper: its two numbers are those of the server, and what a client
computes from them is the session key the server derives.  Its port is the one
that is bound, and its host too, unless there is an external address. -/
theorem clients_agree_after_restarts (process process' : Process) (flags : Flags)
    {files files' later : Files} (sameCodec : process'.codec = process.codec)
    (deployed : Deployed process flags files files' later)
    (named : flags.generateClientIni ≠ "")
    (apart : flags.generateClientIni ≠ flags.configPath)
    (canWrite : process.writable flags.generateClientIni = true)
    (full : 256 ^ 63 ≤
      (Deployed.base flags files).toNat ^ process.daemonDraw.k % process.daemonDraw.n) :
    ∃ nText xText host portNumber n x server bound,
      files' flags.generateClientIni =
        some (clientIni (Deployed.base flags files) nText xText host portNumber) ∧
      loadKey process.codec (String.ofList nText) = .ok n ∧ n.number = process.daemonDraw.n ∧
      loadKey process.codec (String.ofList xText) = .ok x ∧
      x.number = process.daemonDraw.x (Deployed.base flags files) ∧
      gatekeeperDaemon process' (configRead later flags.configPath) = .ok (true, server) ∧
      (∀ exponent posted,
        let srvSeed := (List.range 7).map (server.random posted)
        server.derive posted
            (leBytes kKeySize ((Deployed.base flags files).toNat ^ exponent % n.number)) =
          some (srvSeed, clientKey n.number x.number exponent srvSeed)) ∧
      bindTarget process'.build (configRead later flags.configPath) =
        .ok (bound, portNumber.toUInt16) ∧
      ((configRead files flags.configPath).value lobby extaddr = [] → host = bound) := by
  have overRead := over_configRead files flags.configPath
  obtain ⟨server, loads, k, n, -, -, -, -⟩ := deployed.gatekeeper sameCodec
  obtain ⟨nKey, nLoads, nNumber⟩ := loadKey_stored deployed.standard.roundTrips
    process.daemonDraw.nKeySize_eq process.daemonDraw.nBits.2
  obtain ⟨xKey, xLoads, xNumber⟩ := loadKey_stored deployed.standard.roundTrips
    process.daemonDraw.xKeySize_eq (process.daemonDraw.x_fits (Deployed.base flags files))
  rw [bnBin2bn_storedKey_of_bits process.daemonDraw.nKeySize_eq process.daemonDraw.nBits] at nNumber
  rw [(xKey_stored_iff process.daemonDraw (Deployed.base flags files)).2 (Or.inl full)] at xNumber
  have written := deployed.ini named apart canWrite
  rw [iniOf, ConfigParser.withNewKeys, value_withKeys_n overRead, value_withKeys_x overRead,
    value_withKeys_other _ _ _ (by decide +kernel) (by decide +kernel) (by decide +kernel),
    value_withKeys_other _ _ _ (by decide +kernel) (by decide +kernel) (by decide +kernel),
    value_withKeys_other _ _ _ (by decide +kernel) (by decide +kernel) (by decide +kernel),
    value_withKeys_other _ _ _ (by decide +kernel) (by decide +kernel) (by decide +kernel)] at written
  refine ⟨_, _, _, _, nKey, xKey, server, _, written, ?_, nNumber, ?_, xNumber, loads, ?_,
    deployed.bindTarget_eq process'.build, ?_⟩
  · rwa [String.ofList_toList]
  · rwa [String.ofList_toList]
  · intro exponent posted
    rw [nNumber, xNumber]
    exact makeServerKey_eq_clientKey k n exponent (server.random posted)
  · intro noExternal
    rw [noExternal]
    rfl

theorem clients_agree_after_restarts_sample : ∃ ini later n x server srvSeed,
    filesOf sampleProcess installing sampleFiles "server.ini" = some ini ∧
      gatekeeperDaemon sampleProcess (configRead later "theme.ini") = .ok (true, server) ∧
      server.derive 0 (leBytes kKeySize ((4 : UInt32).toNat ^ 5 % sampleDraw.n)) =
        some (srvSeed, clientKey sampleDraw.n x 5 srvSeed) ∧ n = sampleDraw.n := by
  have four : Deployed.base installing sampleFiles = 4 := by decide +kernel
  have full : 256 ^ 63 ≤
      power (Deployed.base installing sampleFiles).toNat sampleProcess.daemonDraw.k
        sampleProcess.daemonDraw.n := by
    rw [four]
    decide +kernel
  rw [power_eq] at full
  obtain ⟨nText, xText, host, portNumber, n, x, server, bound, written, -, nNumber, -, -, loads,
    derives, -⟩ :=
    clients_agree_after_restarts sampleProcess sampleProcess installing rfl deployed_sample
      (by decide) (by decide) rfl full
  have fifth := derives 5 0
  rw [nNumber, four] at fifth
  exact ⟨_, _, _, _, server, _, written, loads, fifth, nNumber⟩

/-- After any restarts, a client that knows the base and the two public numbers
is served under the key it derives itself: its session gets its answers among
any others. -/
theorem session_served_after_restarts (process process' : Process) (flags : Flags)
    {files files' later : Files} (sameCodec : process'.codec = process.codec)
    (deployed : Deployed process flags files files' later)
    (shortFile : (toUtf16 ((configRead files flags.configPath).value gate fileaddr)).length <
      AddressReply.capacity)
    (shortAuth : (toUtf16 ((configRead files flags.configPath).value gate authaddr)).length <
      AddressReply.capacity)
    (session : Session) (fits : session.Fits) (exponent : Nat)
    (yData : session.yData = leBytes kKeySize
      ((Deployed.base flags files).toNat ^ exponent % process.daemonDraw.n)) :
    ∃ server, gatekeeperDaemon process' (configRead later flags.configPath) = .ok (true, server) ∧
      ∀ node : ClientNode, ∃ srvSeed key,
        (server.forClient node.address).derive 0 session.yData = some (srvSeed, key) ∧
        key = clientKey process.daemonDraw.n (process.daemonDraw.x (Deployed.base flags files))
          exponent srvSeed ∧
        ∀ (d d' : Daemon) (batch batch' events : List EpollEvent) (deliveries : List (List Bytes)),
          ReachableServer server (.running d batch) →
          node ∈ d.clients → node.client = acceptedClient →
          ServerRun server (.running d batch) events (.running d' batch') →
          List.Forall₂ PollEvent.Brings (eventsFor node.fd events) deliveries →
          EndsAt session.Ends 0 deliveries.flatten →
          deliveries.flatten.flatten <+: session.stream (server.rc4 key) →
          ∃ cli, { node with client := cli } ∈ d'.clients ∧ cli.base.sock.isDown = false ∧
            cli.base.sock.sent ++ cli.base.unsent =
              session.answers server srvSeed key deliveries.flatten.flatten.length := by
  obtain ⟨server, loads, k, n, authsrv, filesrv, -, -⟩ := deployed.gatekeeper sameCodec
  have short : server.ShortAddresses := by
    constructor
    · rw [filesrv]
      exact shortFile
    · rw [authsrv]
      exact shortAuth
  refine ⟨server, loads, fun node => ?_⟩
  have derived : (server.forClient node.address).derive 0 session.yData =
      some ((List.range 7).map ((server.forClient node.address).random 0),
        clientKey process.daemonDraw.n (process.daemonDraw.x (Deployed.base flags files)) exponent
          ((List.range 7).map ((server.forClient node.address).random 0))) := by
    rw [yData]
    exact makeServerKey_eq_clientKey k n exponent ((server.forClient node.address).random 0)
  refine ⟨_, _, derived, rfl, ?_⟩
  intro d d' batch batch' events deliveries reached member new run brings cut stream
  obtain ⟨cli, has, up, alive, sessionAt⟩ :=
    run.sessionAt short fits derived reached member new brings cut stream
  exact ⟨cli, has, up, sessionAt.served alive⟩

/-- A client with exponent 5. -/
def fifthPower : Session :=
  { shortSession with
    yData := leBytes kKeySize ((Deployed.base installing sampleFiles).toNat ^ 5 %
      sampleProcess.daemonDraw.n)
    whole := leBytes_length _ _ }

theorem fifthPower_fits : fifthPower.Fits :=
  ⟨shortSession_fits.hello, shortSession_fits.requests⟩

theorem session_served_after_restarts_fifth : ∃ later server srvSeed d cli,
    gatekeeperDaemon sampleProcess (configRead later "theme.ini") = .ok (true, server) ∧
      ServerRun server (.running servingOne []) [secondArrival, sessionArrives fifthPower]
        (.running d []) ∧
      (⟨0, 4, cli, some 0⟩ : ClientNode) ∈ d.clients ∧
      cli.base.sock.sent ++ cli.base.unsent = handshakeReply srvSeed := by
  have shortFile : (toUtf16 ((configRead sampleFiles "theme.ini").value gate fileaddr)).length <
      AddressReply.capacity := by decide +kernel
  have shortAuth : (toUtf16 ((configRead sampleFiles "theme.ini").value gate authaddr)).length <
      AddressReply.capacity := by decide +kernel
  obtain ⟨server, loads, clients⟩ := session_served_after_restarts sampleProcess sampleProcess
    installing rfl deployed_sample shortFile shortAuth fifthPower fifthPower_fits 5 rfl
  obtain ⟨srvSeed, key, derived, -, served⟩ := clients ⟨0, 4, acceptedClient, some 0⟩
  have short : server.ShortAddresses := by
    obtain ⟨same, loadsSame, -, -, authsrv, filesrv, -⟩ :=
      deployed_sample.gatekeeper (rfl : sampleProcess.codec = sampleProcess.codec)
    cases loads.symm.trans loadsSame
    constructor
    · rw [filesrv]
      exact shortFile
    · rw [authsrv]
      exact shortAuth
  obtain ⟨d, run⟩ := run_opening short fifthPower_fits derived
  obtain ⟨cli, has, -, answers⟩ := served _ d [] [] _ _ (reachable_firstArrival server)
    List.mem_cons_self rfl run (sessionArrives_brings fifthPower)
    (opening_cut fifthPower) (opening_stream fifthPower _)
  exact ⟨_, server, srvSeed, d, cli, loads, run, has,
    answers.trans (answers_opening server fifthPower srvSeed key)⟩

end ThemeSrv
