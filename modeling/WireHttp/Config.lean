/-
The configuration of a server. Every field has a default, and a text
that configures nothing is as good as none. What a text may hold is
fixed: a field that is unknown, given twice or of the wrong kind makes
the whole text worthless.
-/
import WireHttp.Connection.Basic
import WireHttp.Text.Blank
import WireHttp.Text.Utf8
import WireHttp.Yaml.Node
import WireHttp.Yaml.Number
import WireHttp.Yaml.Token.Lexer

namespace WireHttp

/-- What is configured about connections. -/
structure ConnectionConfig where
  idleTimeoutMs : UInt64 := 5000
  maxHeaderBytes : UInt64 := 16384
  maxBodyBytes : UInt64 := 1048576
  maxPipelined : UInt64 := 16
  readBufferSize : UInt64 := 8192
  deriving DecidableEq, Repr

/-- The configuration of a server. -/
structure Config where
  /-- The address to listen on. -/
  listenAddr : String := "127.0.0.1:8080"
  connection : ConnectionConfig := {}
  deriving DecidableEq, Repr

/-- The settings of a connection under a configuration. -/
def ConnectionConfig.settings (c : ConnectionConfig) : Settings where
  idleTimeout := c.idleTimeoutMs.toNat
  limits := { maxHead := c.maxHeaderBytes.toNat, maxBody := c.maxBodyBytes }
  maxPipelined := c.maxPipelined.toNat
  readBuffer := c.readBufferSize.toNat

/-- Without a word about them, connections have the standard settings. -/
theorem ConnectionConfig.settings_default : ({} : ConnectionConfig).settings = {} :=
  rfl

-- ======================================================== validity

/-- What can be wrong with a configuration that can be read. -/
inductive ConfigFault
  | emptyListenAddr
  /-- A field of this name is zero, which makes no sense of it. -/
  | zero (field : String)
  deriving DecidableEq, Repr

/-- The text of a `ConfigFault`. -/
def ConfigFault.message : ConfigFault → String
  | emptyListenAddr => "server.listen_addr must not be empty"
  | zero field => "connection." ++ field ++ " must be greater than zero"

/-- The first thing wrong with a configuration. The body may be limited
to nothing. -/
def Config.fault? (c : Config) : Option ConfigFault :=
  if c.listenAddr.isEmpty then some .emptyListenAddr
  else if c.connection.idleTimeoutMs = 0 then some (.zero "idle_timeout_ms")
  else if c.connection.maxHeaderBytes = 0 then some (.zero "max_header_bytes")
  else if c.connection.maxPipelined = 0 then some (.zero "max_pipelined")
  else if c.connection.readBufferSize = 0 then some (.zero "read_buffer_size")
  else none

-- ========================================================= reading

namespace Config

open Yaml (Node)

/-- The entries of a section. One with nothing in it has none; `none` if
it is no section, or a name is no scalar or occurs twice. -/
def sectionEntries? : Node → Option (List (String × Node))
  | .scalar "" true => some []
  | .mapping entries => do
    let named ← entries.mapM fun (key, value) =>
      match key with
      | .scalar name _ => some (name, value)
      | .sequence _ | .mapping _ => none
    if (named.map (·.1)).Nodup then return named else none
  | .scalar _ _ | .sequence _ => none

/-- A whole number, which only a plain scalar can be. -/
def word? : Node → Option UInt64
  | .scalar text true => (Yaml.readNumber? text).map UInt64.ofNat
  | .scalar _ false | .sequence _ | .mapping _ => none

/-- The text of any scalar, as written. -/
def text? : Node → Option String
  | .scalar text _ => some text
  | .sequence _ | .mapping _ => none

/-- The configuration with one more field of the section on connections. -/
def setConnection (c : ConnectionConfig) (name : String) (value : Node) :
    Option ConnectionConfig :=
  match name with
  | "idle_timeout_ms" => (word? value).map fun n => { c with idleTimeoutMs := n }
  | "max_header_bytes" => (word? value).map fun n => { c with maxHeaderBytes := n }
  | "max_body_bytes" => (word? value).map fun n => { c with maxBodyBytes := n }
  | "max_pipelined" => (word? value).map fun n => { c with maxPipelined := n }
  | "read_buffer_size" => (word? value).map fun n => { c with readBufferSize := n }
  | _ => none

/-- The configuration with one more section. -/
def setSection (c : Config) (name : String) (value : Node) : Option Config :=
  match name with
  | "server" => do
    (← sectionEntries? value).foldlM
      (fun c (name, value) =>
        if name = "listen_addr" then (text? value).map fun addr => { c with listenAddr := addr }
        else none) c
  | "connection" => do
    let connection ← (← sectionEntries? value).foldlM
      (fun c (name, value) => setConnection c name value) c.connection
    return { c with connection }
  | _ => none

/-- The configuration that a document describes. -/
def ofNode? (n : Node) : Option Config := do
  (← sectionEntries? n).foldlM (fun c (name, value) => setSection c name value) {}

/-- The configuration that a text describes. A text that is blank, or
has no document in it, leaves everything at its default. -/
def ofYaml? (text : String) : Option Config :=
  if (Text.trim text.toList).isEmpty then some {}
  else do
    match ← Node.ofTokens? (← Yaml.tokens? text) with
    | none => return {}
    | some node => ofNode? node

end Config

-- ========================================================= loading

/-- The file that a configuration is read from. -/
structure ConfigFile where
  path : String
  /-- Its bytes; `none` if it cannot be read. -/
  content : Option Bytes
  deriving DecidableEq, Repr

/-- Why a configuration cannot be loaded. -/
inductive ConfigError
  | reading (path : String)
  | parsing (path : String)
  | invalid (fault : ConfigFault)
  deriving DecidableEq, Repr

/-- The text of a `ConfigError`. -/
def ConfigError.message : ConfigError → String
  | reading path => "reading config file " ++ path
  | parsing path => "parsing config file " ++ path
  | invalid fault => fault.message

/-- The configuration in a file. -/
def ConfigFile.load (file : ConfigFile) : Except ConfigError Config :=
  match file.content.bind Text.Utf8.decode? with
  | none => .error (.reading file.path)
  | some text =>
    match Config.ofYaml? text with
    | none => .error (.parsing file.path)
    | some config => .ok config

/-- The configuration of a server that may have been given a file and an
address to listen on. The address takes precedence over the file, unless
its bytes are no text; what comes out has to be valid. -/
def Config.load (file : Option ConfigFile) (listen : Option Bytes) :
    Except ConfigError Config := do
  let config ← match file with
    | none => pure {}
    | some file => file.load
  let config := match listen.bind Text.Utf8.decode? with
    | none => config
    | some addr => { config with listenAddr := addr }
  match config.fault? with
  | none => return config
  | some fault => .error (.invalid fault)

end WireHttp
