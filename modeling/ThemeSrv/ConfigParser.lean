import Mathlib.Data.List.DropRight
import ThemeSrv.BacktrackingRegex
import ThemeSrv.KeyedList
import ThemeSrv.KeyLoading

/-!
# The configuration parser

`config_parser`: a table of definitions, the values of its items, and the file
they are written to and read from.  The maps are lists in the order of their
iteration, with keys compared as `ST::hash_i` and `ST::equal_i` do.  Texts are
lists of characters; what is logged is left out.
-/

namespace ThemeSrv

abbrev Text := List Char

/-! ### Characters and lines -/

def nul : Char := '\x00'

/-- `ST_WHITESPACE`. -/
def isBlank (c : Char) : Bool := c = ' ' || c = '\t' || c = '\r' || c = '\n'

/-- `\s` in a regular expression. -/
def isSpace (c : Char) : Bool := isBlank c || c = '\x0b' || c = '\x0c'

/-- `\w` in a regular expression. -/
def isWordChar (c : Char) : Bool := c.isAlphanum || c = '_'

/-- `.` in a regular expression. -/
def isInLine (c : Char) : Bool := c ≠ '\n' && c ≠ '\r'

/-- The delimiters the writer splits descriptions at. -/
def isLineBreak (c : Char) : Bool := c = '\r' || c = '\n'

/-- What `c_str()` shows of a text. -/
def cStr (text : Text) : Text :=
  text.takeWhile (· ≠ nul)

/-- `ST::string::trim`. -/
def trim (text : Text) : Text :=
  (text.dropWhile isBlank).rdropWhile isBlank

/-- What the maps compare of a key. -/
def foldCase (text : Text) : Text :=
  text.map Char.toLower

/-- The token a text starts with, possibly empty, and the tokens behind it. -/
def tokens : Text → Text × List Text
  | [] => ([], [])
  | c :: rest =>
      let (first, others) := tokens rest
      if isLineBreak c then
        ([], if first.isEmpty then others else first :: others)
      else
        (c :: first, others)

/-- `ST::string::tokenize` at line breaks. -/
def tokenize (text : Text) : List Text :=
  let (first, others) := tokens text
  if first.isEmpty then others else first :: others

/-- The lines `std::getline` reads. -/
def getlines : Text → List Text
  | [] => []
  | c :: rest =>
      if c = '\n' then [] :: getlines rest
      else
        match getlines rest with
        | [] => [[c]]
        | line :: lines => (c :: line) :: lines

/-! ### Regular expressions -/

open BacktrackingRegex

def character (group : Nat) (c : Char) : PatternPiece Char :=
  ⟨group, .one (· = c)⟩

/-- `section_test`: `\[(.*?)\]`. -/
def sectionTest : Pattern Char :=
  [character 0 '[', ⟨1, .run isInLine false⟩, character 0 ']']

/-- `value_test`: `(\w+)\s*=\s*([^]+(?!\+{3}))`. -/
def valueTest : Pattern Char :=
  [⟨1, .one isWordChar⟩, ⟨1, .run isWordChar true⟩, ⟨0, .run isSpace true⟩, character 0 '=',
    ⟨0, .run isSpace true⟩, ⟨2, .one fun _ => true⟩, ⟨2, .run (fun _ => true) true⟩,
    ⟨2, .notAhead ['+', '+', '+']⟩]

/-- `empty_test`: `(\w+)\s*=`. -/
def emptyTest : Pattern Char :=
  [⟨1, .one isWordChar⟩, ⟨1, .run isWordChar true⟩, ⟨0, .run isSpace true⟩, character 0 '=']

/-! ### The table and the maps -/

/-- `config_item::value_type`. -/
inductive ValueType
  | boolean
  | float
  | integer
  | string
  deriving DecidableEq, Repr

structure ConfigItem where
  sectionName : Text
  key : Text
  valueType : ValueType
  value : Text
  description : Text
  deriving DecidableEq, Repr

/-- `THEME_CONFIG_STR`. -/
def configStr (sectionName key value description : String) : ConfigItem :=
  ⟨sectionName.toList, key.toList, .string, value.toList, description.toList⟩

/-- `THEME_CONFIG_INT`, whose value is the text of the literal. -/
def configInt (sectionName key : String) (value : Nat) (description : String) : ConfigItem :=
  ⟨sectionName.toList, key.toList, .integer, (toString value).toList, description.toList⟩

/-- `s_daemonConfig`. -/
def daemonConfig : List ConfigItem :=
  [configStr "lobby" "bindaddr" "127.0.0.1"
      "Lobby Bind Address\nIP Address that this THEME server should listen for connections on",
    configStr "lobby" "extaddr" ""
      "Lobby External Address\nIP Address that this THEME server can be reached on if behind NAT",
    configInt "lobby" "port" 14617
      "Lobby Bind Port\nPort that this THEME server should listen for connections on",
    configStr "gate" "crypt_k" "" "Private Key",
    configStr "gate" "crypt_n" "" "Public Key",
    configStr "gate" "crypt_x" "" "Shared Key",
    configInt "gate" "crypt_g" 4 "Base Value",
    configStr "gate" "fileaddr" ""
      "File Server Address\nReturn this address to clients asking for a file server",
    configStr "gate" "authaddr" "184.73.198.22"
      "Auth Server Address\nReturn this address to clients asking for an auth server",
    configStr "file" "path" ""
      "File Server Path\nPath to use for DirtSand-style manifest and file downloads",
    configInt "file" "maxfds" 1024
      ("Maximum File Descriptors\nThis is the maximum number of REGULAR file descriptors that " ++
        "THEME will hold open to avoid blocking system calls.")]

/-- `_config_item`, with the key it is stored under. -/
structure ConfigEntry where
  key : Text
  item : ConfigItem
  value : Text
  deriving DecidableEq, Repr

/-- A node of `m_config`. -/
structure ConfigSection where
  name : Text
  entries : List ConfigEntry
  deriving DecidableEq, Repr

structure ConfigParser where
  sections : List ConfigSection
  deriving DecidableEq, Repr

def ConfigEntry.foldedKey (entry : ConfigEntry) : Text :=
  foldCase entry.key

def ConfigSection.foldedName (node : ConfigSection) : Text :=
  foldCase node.name

/-- `find` in a `sectionmap_t`. -/
def ConfigSection.find (node : ConfigSection) (key : Text) : Option ConfigEntry :=
  KeyedList.lookup ConfigEntry.foldedKey node.entries (foldCase key)

/-- The entry with a key, if there is one, is changed. -/
def ConfigSection.modify (node : ConfigSection) (key : Text)
    (change : ConfigEntry → ConfigEntry) : ConfigSection :=
  { node with
    entries := KeyedList.changed ConfigEntry.foldedKey node.entries (foldCase key) change }

/-- `operator[]` of a `sectionmap_t`, assigned to. -/
def ConfigSection.assign (node : ConfigSection) (item : ConfigItem) : ConfigSection :=
  match node.find item.key with
  | none => { node with entries := node.entries ++ [⟨item.key, item, item.value⟩] }
  | some _ => node.modify item.key fun entry => { entry with item := item, value := item.value }

namespace ConfigParser

/-- `find` in `m_config`. -/
def findSection (parser : ConfigParser) (name : Text) : Option ConfigSection :=
  KeyedList.lookup ConfigSection.foldedName parser.sections (foldCase name)

/-- The section with a name, if there is one, is changed. -/
def modifySection (parser : ConfigParser) (name : Text)
    (change : ConfigSection → ConfigSection) : ConfigParser :=
  ⟨KeyedList.changed ConfigSection.foldedName parser.sections (foldCase name) change⟩

/-- `operator[]` of `m_config`, which adds a section that is not there. -/
def withSection (parser : ConfigParser) (name : Text) : ConfigParser :=
  match parser.findSection name with
  | none => ⟨parser.sections ++ [⟨name, []⟩]⟩
  | some _ => parser

/-- `m_config[def->m_section][def->m_key] = { def, def->m_value }`. -/
def define (parser : ConfigParser) (item : ConfigItem) : ConfigParser :=
  (parser.withSection item.sectionName).modifySection item.sectionName (·.assign item)

/-- The constructor. -/
def new (table : List ConfigItem) : ConfigParser :=
  table.foldl define ⟨[]⟩

/-- The entry `find_item` looks for. -/
def findItem (parser : ConfigParser) (name key : Text) : Option ConfigEntry :=
  (parser.findSection name).bind (·.find key)

/-- The assignment `find_item(section, key)->second.m_value = value`. -/
def store (parser : ConfigParser) (name key : Text) (value : ConfigEntry → Text) : ConfigParser :=
  parser.modifySection name fun node =>
    node.modify key fun entry => { entry with value := value entry }

/-! ### Setting values -/

/-- `set<T>`, for the type of the item and the text of the value.  The item has
to be there, also in a release build, and to be of this type. -/
def setAs (build : Build) (valueType : ValueType) (parser : ConfigParser)
    (name key value : Text) : Except Stop ConfigParser :=
  match parser.findItem name key with
  | none => do
      build.assertD false
      .error .load
  | some entry => do
      build.assertD (entry.item.valueType == valueType)
      return parser.store name key fun _ => value

/-- `set<const ST::string&>`. -/
def setString (build : Build) (parser : ConfigParser) (name key value : Text) :
    Except Stop ConfigParser :=
  setAs build .string parser name key value

/-- `set<bool>`. -/
def setBool (build : Build) (parser : ConfigParser) (name key : Text) (value : Bool) :
    Except Stop ConfigParser :=
  setAs build .boolean parser name key (toString value).toList

/-- `set<int>`. -/
def setInt (build : Build) (parser : ConfigParser) (name key : Text) (value : Int) :
    Except Stop ConfigParser :=
  setAs build .integer parser name key (toString value).toList

/-- `set<unsigned int>`. -/
def setUnsigned (build : Build) (parser : ConfigParser) (name key : Text) (value : Nat) :
    Except Stop ConfigParser :=
  setAs build .integer parser name key (toString value).toList

/-! ### Reading -/

/-- What the reader stores for a value it has read. -/
def storedValue (valueType : ValueType) (value : Text) : Text :=
  if !value.isEmpty || valueType == .string then value else ['0']

/-- The private `set`, which ignores what is in no section or is not defined. -/
def setRead (parser : ConfigParser) (current : Option Text) (key value : Text) : ConfigParser :=
  match current with
  | none => parser
  | some name => parser.store name key fun entry => storedValue entry.item.valueType value

/-- What the reader carries from line to line: the values, and the section the
last header named, if there is one. -/
abbrev ConfigReading := ConfigParser × Option Text

def isComment (line : Text) : Bool :=
  [';'].isPrefixOf line || ['#'].isPrefixOf line || ['/', '/'].isPrefixOf line

/-- The body of the reader's loop. -/
def readLine (reading : ConfigReading) (buf : Text) : ConfigReading :=
  let (parser, current) := reading
  let line := trim buf
  if line.isEmpty then reading
  else if isComment line then reading
  else
    match search sectionTest (cStr line) with
    | some found =>
        let name := captured sectionTest found 1
        (parser, (parser.findSection name).map fun _ => name)
    | none =>
        match search valueTest (cStr line) with
        | some found =>
            let key := captured valueTest found 1
            let value := captured valueTest found 2
            (parser.setRead current key value, current)
        | none =>
            match search emptyTest (cStr line) with
            | some found => (parser.setRead current (captured emptyTest found 1) [], current)
            | none => reading

/-- `read`, from the contents of the file, if it exists. -/
def read (parser : ConfigParser) : Option Text → Bool × ConfigParser
  | none => (false, parser)
  | some contents => (true, ((getlines contents).foldl readLine (parser, none)).1)

/-! ### Writing -/

def endl : Text := ['\n']

def writeComment (comment : Text) : Text :=
  [';', ' '] ++ cStr comment ++ endl

def writeValue (entry : ConfigEntry) : Text :=
  cStr entry.key ++ [' ', '=', ' '] ++ cStr entry.value ++ endl

/-- The body of the writer's inner loop. -/
def writeItem (isFirst : Bool) (entry : ConfigEntry) : Text :=
  let comments := tokenize entry.item.description
  (if !comments.isEmpty && !isFirst then endl else []) ++
    comments.flatMap writeComment ++ writeValue entry

def writeItems : List ConfigEntry → Text
  | [] => []
  | first :: others => writeItem true first ++ others.flatMap (writeItem false)

/-- The body of the writer's outer loop. -/
def writeSection (node : ConfigSection) : Text :=
  ['['] ++ cStr node.name ++ [']'] ++ endl ++ writeItems node.entries ++ endl

/-- `write`, to a stream. -/
def write (parser : ConfigParser) : Text :=
  parser.sections.flatMap writeSection

end ConfigParser

end ThemeSrv
