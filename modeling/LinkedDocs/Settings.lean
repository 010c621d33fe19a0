import LinkedDocs.Json.Printer
import LinkedDocs.Json.Reader
import LinkedDocs.Text.CodePoints

/-!
# Settings

The engine has six settings. They are read from JSON text, an object with a member for each or an
array of their values in order; what is missing has its default. Members of an object that are no
settings are ignored, whatever they hold, but no setting may be given twice. Variables of the
environment come on top; a variable that does not make sense leaves the setting as it is.
-/

namespace LinkedDocs

/-- How log lines are written. -/
inductive LogFormat where
  /-- One line of text. -/
  | compact
  /-- One JSON object per line. -/
  | json
  deriving DecidableEq

/-- The name of a log format. -/
def LogFormat.name : LogFormat → String
  | .compact => "compact"
  | .json => "json"

/-- The settings of the engine. -/
structure Settings where
  logLevel : String
  logFormat : LogFormat
  /-- How many store calls of one query may be on their way. -/
  maxConcurrentFetches : Nat
  /-- How many selectors are remembered. -/
  selectorCacheCapacity : Nat
  /-- How many notifications may wait. -/
  publishQueueCapacity : Nat
  /-- Where notifications are sent, if anywhere. -/
  redisUrl : Option String
  deriving DecidableEq

/-- Why settings cannot be used. -/
inductive SettingsFault where
  | noFetches
  | noQueue
  deriving DecidableEq

/-- Why settings could not be loaded. -/
inductive SettingsError where
  /-- The text does not hold settings. -/
  | malformed
  | invalid (fault : SettingsFault)
  deriving DecidableEq

/-- The text of a fault in settings. -/
def SettingsFault.message : SettingsFault → String
  | .noFetches => "Configuration error: max_concurrent_fetches must be at least 1"
  | .noQueue => "Configuration error: publish_queue_capacity must be at least 1"

namespace Settings

/-- The settings that hold where nothing else is said. -/
def default : Settings := ⟨"info", .compact, 16, 256, 1024, none⟩

instance : Inhabited Settings := ⟨default⟩

/-- The names of the settings, in the order in which they are written. -/
def names : List String :=
  ["log_level", "log_format", "max_concurrent_fetches", "selector_cache_capacity",
   "publish_queue_capacity", "redis_url"]

/-! ## Text -/

open Json (Literal)

/-- Reads a string. -/
def string? : Literal → Option String
  | .string units => Json.stringOfUnits? units
  | _ => none

/-- Reads a count. -/
def count? : Literal → Option Nat
  | .number n => n.number?.bind Number.count?
  | _ => none

/-- The log format of a name. -/
def formatNamed? : String → Option LogFormat
  | "compact" => some .compact
  | "json" => some .json
  | _ => none

/-- Reads a log format: its name, or an object with the name over `null`. -/
def format? : Literal → Option LogFormat
  | .string units => (Json.stringOfUnits? units).bind formatNamed?
  | .object [(units, .null)] => (Json.stringOfUnits? units).bind formatNamed?
  | _ => none

/-- Reads an address that may be `null`. -/
def address? : Literal → Option (Option String)
  | .null => some none
  | .string units => (Json.stringOfUnits? units).map some
  | _ => none

/-- Sets the setting of a name; another name changes nothing. -/
def set? (s : Settings) (name : String) (value : Literal) : Option Settings :=
  match name with
  | "log_level" => (string? value).map fun v => { s with logLevel := v }
  | "log_format" => (format? value).map fun v => { s with logFormat := v }
  | "max_concurrent_fetches" => (count? value).map fun v => { s with maxConcurrentFetches := v }
  | "selector_cache_capacity" => (count? value).map fun v => { s with selectorCacheCapacity := v }
  | "publish_queue_capacity" => (count? value).map fun v => { s with publishQueueCapacity := v }
  | "redis_url" => (address? value).map fun v => { s with redisUrl := v }
  | _ => some s

/-- Sets the settings that members name, none of them twice. -/
def setMembers? (s : Settings) (seen : List String) :
    List (List Json.StringUnit × Literal) → Option Settings
  | [] => some s
  | (units, value) :: members => do
    let name ← Json.stringOfUnits? units
    if names.contains name && seen.contains name then none
    else
      let s ← s.set? name value
      s.setMembers? (name :: seen) members

/-- Sets settings in order; there may be fewer values than names but not more. -/
def setInOrder? (s : Settings) : List String → List Literal → Option Settings
  | _, [] => some s
  | [], _ :: _ => none
  | name :: rest, value :: values => do
    let s ← s.set? name value
    s.setInOrder? rest values

/-- Reads settings. -/
def ofText? (text : String) : Option Settings := do
  match ← Literal.ofText? text with
  | .object members => default.setMembers? [] members
  | .array values => default.setInOrder? names values
  | _ => none

/-- The values of the settings, in the order of their names. -/
def values (s : Settings) : List Value :=
  [.string s.logLevel, .string s.logFormat.name, .ofInt s.maxConcurrentFetches,
   .ofInt s.selectorCacheCapacity, .ofInt s.publishQueueCapacity,
   match s.redisUrl with
   | some url => .string url
   | none => .null]

/-- The text of the settings, one to a line. -/
def text (s : Settings) : String :=
  let lines := (names.zip s.values).map fun (name, value) =>
    "  " ++ (Value.string name).text ++ ": " ++ value.text
  "\x7b\n" ++ ",\n".intercalate lines ++ "\n\x7d"

/-! ## Variables -/

/-- The text of a variable without white space around it, if anything is left. -/
def trimmed? (raw : String) : Option String :=
  let text := Text.trim raw.toList
  if text.isEmpty then none else some (String.ofList text)

/-- The log format that a variable names, in any case and with two more names. -/
def formatOfVariable? (raw : String) : Option LogFormat :=
  match String.ofList ((Text.trim raw.toList).map Char.toLower) with
  | "compact" => some .compact
  | "text" => some .compact
  | "json" => some .json
  | "jsonl" => some .json
  | _ => none

/-- The count in a variable: digits, perhaps after a plus sign, that fit 64 bits and are not zero.
-/
def countOfVariable? (raw : String) : Option Nat :=
  let digits :=
    match Text.trim raw.toList with
    | '+' :: rest => rest
    | text => text
  if digits.isEmpty || !digits.all Char.isDigit then none
  else
    let n := Json.ofDigits (digits.map fun c => c.toNat - '0'.toNat)
    if 0 < n ∧ n < Json.wordLimit then some n else none

/-- Puts the variables of the environment on top of settings. -/
def withVariables (s : Settings) (lookup : String → Option String) : Settings where
  logLevel := ((lookup "DOCGRAPH_LOG_LEVEL").bind trimmed?).getD s.logLevel
  logFormat := ((lookup "DOCGRAPH_LOG_FORMAT").bind formatOfVariable?).getD s.logFormat
  maxConcurrentFetches :=
    ((lookup "DOCGRAPH_MAX_CONCURRENT_FETCHES").bind countOfVariable?).getD s.maxConcurrentFetches
  selectorCacheCapacity := s.selectorCacheCapacity
  publishQueueCapacity := s.publishQueueCapacity
  redisUrl := ((lookup "DOCGRAPH_REDIS_URL").bind trimmed?).or s.redisUrl

/-- Why the settings cannot be used, if so. -/
def fault? (s : Settings) : Option SettingsFault :=
  if s.maxConcurrentFetches = 0 then some .noFetches
  else if s.publishQueueCapacity = 0 then some .noQueue
  else none

/-- Loads settings from a text, or the defaults without one, puts the variables on top and checks
the result. -/
def load (text : Option String) (lookup : String → Option String) : Except SettingsError Settings :=
  match (match text with
    | some text => ofText? text
    | none => some default) with
  | none => .error .malformed
  | some s =>
    let s := s.withVariables lookup
    match s.fault? with
    | some fault => .error (.invalid fault)
    | none => .ok s

end Settings

/-- How much is logged. -/
inductive LogLevel where
  | trace
  | debug
  | info
  | warn
  | error
  deriving DecidableEq

namespace LogLevel

/-- The name of a level. -/
def name : LogLevel → String
  | .trace => "TRACE"
  | .debug => "DEBUG"
  | .info => "INFO"
  | .warn => "WARN"
  | .error => "ERROR"

/-- The level that a text names, in any case; `info` if it names none. Folding ASCII letters is
enough, since outside ASCII no character turns into just one of the letters of these names. -/
def ofText (text : String) : LogLevel :=
  match String.ofList (text.toList.map Char.toLower) with
  | "trace" => .trace
  | "debug" => .debug
  | "info" => .info
  | "warn" => .warn
  | "warning" => .warn
  | "error" => .error
  | _ => .info

end LogLevel

end LinkedDocs
