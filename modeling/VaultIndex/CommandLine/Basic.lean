import VaultIndex.Text.Split
import VaultIndex.Text.Digits

/-!
# The command line

Options are given as arguments or, in their absence, by the environment. Each takes one value and
is given at most once. Where several things are wrong, the one that the reader meets first counts:
the value behind an option is looked at when the next option begins or the arguments end, the
environment after all arguments, and missing options last.
-/

namespace VaultIndex.CommandLine

/-- The options. -/
inductive Flag where
  | chainsConfig
  | vaultsSnapshot
  | output
  | startBlock
  | endBlock
  | maxConcurrency
  | intervalSecs
  | otelCollectorEndpoint
  | telegramBotToken
  | telegramChatId
deriving DecidableEq, Inhabited

/-- What the value of an option has to be. -/
inductive ValueKind where
  /-- A path, which is not empty. -/
  | path
  /-- A number of 64 bits. -/
  | number
  | text
deriving DecidableEq

namespace Flag

/-- The options in the order of their declaration. -/
def all : List Flag :=
  [chainsConfig, vaultsSnapshot, output, startBlock, endBlock, maxConcurrency, intervalSecs,
    otelCollectorEndpoint, telegramBotToken, telegramChatId]

/-- The name of an option among the arguments. -/
def name : Flag → String
  | chainsConfig => "chains-config"
  | vaultsSnapshot => "vaults-snapshot"
  | output => "output"
  | startBlock => "start-block"
  | endBlock => "end-block"
  | maxConcurrency => "max-concurrency"
  | intervalSecs => "interval-secs"
  | otelCollectorEndpoint => "otel-collector-endpoint"
  | telegramBotToken => "telegram-bot-token"
  | telegramChatId => "telegram-chat-id"

/-- The name of an option in the environment. -/
def variableName : Flag → String
  | chainsConfig => "CHAINS_CONFIG"
  | vaultsSnapshot => "VAULTS_SNAPSHOT"
  | output => "OUTPUT_PATH"
  | startBlock => "START_BLOCK"
  | endBlock => "END_BLOCK"
  | maxConcurrency => "MAX_CONCURRENCY"
  | intervalSecs => "INDEX_INTERVAL_SECS"
  | otelCollectorEndpoint => "OTEL_COLLECTOR_ENDPOINT"
  | telegramBotToken => "TELEGRAM_BOT"
  | telegramChatId => "TELEGRAM_CHAT"

def kind : Flag → ValueKind
  | chainsConfig | vaultsSnapshot | output => .path
  | startBlock | endBlock | maxConcurrency | intervalSecs => .number
  | otelCollectorEndpoint | telegramBotToken | telegramChatId => .text

/-- The option of a name. -/
def ofName? (name : String) : Option Flag := all.find? (·.name = name)

end Flag

/-- The options of a run. -/
structure Options where
  chainsConfig : String
  vaultsSnapshot : String
  output : Option String := none
  startBlock : UInt64 := 0
  endBlock : Option UInt64 := none
  maxConcurrency : Option UInt64 := none
  intervalSecs : Option UInt64 := none
  otelCollectorEndpoint : Option String := none
  telegramBotToken : Option String := none
  telegramChatId : Option String := none
deriving DecidableEq, Inhabited

/-- Why arguments make no run. -/
inductive Refusal where
  | missingRequired
  | valueValidation
  /-- An option without its value, or an empty path. -/
  | invalidValue
  /-- An option that is given twice. -/
  | conflict
  | unknownArgument
  | tooManyValues
  | displayHelp
  | displayVersion
deriving DecidableEq, Inhabited

/-- The exit code for arguments that make no run; to be asked for help is no failure. -/
def Refusal.exitCode : Refusal → Nat
  | displayHelp | displayVersion => 0
  | _ => 2

/-! ### Values -/

inductive Value where
  | text (s : String)
  | number (n : UInt64)
deriving DecidableEq, Inhabited

/-- Reads a number: digits behind an optional plus. -/
def readNumber? (s : String) : Option UInt64 := do
  let digits := match s.toList with
    | '+' :: rest => rest
    | cs => cs
  guard (!digits.isEmpty)
  let n ← Digits.read? 10 digits
  guard (n < UInt64.size)
  return UInt64.ofNat n

/-- The value that a text is for an option. -/
def Flag.read (flag : Flag) (s : String) : Except Refusal Value :=
  match flag.kind with
  | .path => if s.isEmpty then .error .invalidValue else .ok (.text s)
  | .number =>
    match readNumber? s with
    | some n => .ok (.number n)
    | none => .error .valueValidation
  | .text => .ok (.text s)

/-- The values of options, each under its option. -/
abbrev Values := List (Flag × Value)

/-- The value of an option. -/
def Values.get? (values : Values) (flag : Flag) : Option Value :=
  (values.find? (·.1 = flag)).map (·.2)

/-! ### Arguments -/

/-- What the arguments so far have come to. -/
structure Reading where
  values : Values := []
  /-- The option that was begun last, and its value once that has come. -/
  pending : Option (Flag × Option String) := none

namespace Reading

/-- Takes the value of an option, which must not have one yet. -/
def give (x : Reading) (flag : Flag) (s : String) : Except Refusal Reading :=
  if (x.values.get? flag).isSome then .error .conflict
  else do return { x with values := x.values ++ [(flag, ← flag.read s)] }

/-- Looks at the option that was begun last. -/
def settle (x : Reading) : Except Refusal Reading :=
  match x.pending with
  | none => .ok x
  | some (_, none) => .error .invalidValue
  | some (flag, some s) => { x with pending := none }.give flag s

/-- Refuses a run once the option that was begun last has been looked at. -/
def display (x : Reading) (refusal : Refusal) : Except Refusal Reading := do
  let _ ← x.settle
  throw refusal

/-- Reads what stands behind two dashes. -/
def readLong (x : Reading) (cs : List Char) : Except Refusal Reading :=
  let (name, value?) := cut '=' cs
  match Flag.ofName? (String.ofList name), value? with
  | some flag, some value => do (← x.settle).give flag (String.ofList value)
  | some flag, none => do return { ← x.settle with pending := some (flag, none) }
  | none, value? =>
    match String.ofList name, value? with
    | "help", none => x.display .displayHelp
    | "version", none => x.display .displayVersion
    | "help", some _ | "version", some _ => .error .tooManyValues
    | _, _ => .error .unknownArgument

/-- Reads what stands behind one dash; only its first letter counts. -/
def readShort (x : Reading) : List Char → Except Refusal Reading
  | 'h' :: _ => x.display .displayHelp
  | 'V' :: _ => x.display .displayVersion
  | _ => .error .unknownArgument

/-- Reads an argument that does not begin with a dash, or is one. -/
def readPlain (x : Reading) (s : String) : Except Refusal Reading :=
  match x.pending with
  | some (flag, none) => .ok { x with pending := some (flag, some s) }
  | _ => .error .unknownArgument

/-- Reads one argument. -/
def readArgument (x : Reading) (s : String) : Except Refusal Reading :=
  match s.toList with
  | '-' :: '-' :: rest => x.readLong rest
  | '-' :: c :: rest => x.readShort (c :: rest)
  | _ => x.readPlain s

/-- Reads arguments; nothing may follow two lone dashes. -/
def readArguments (x : Reading) : List String → Except Refusal Reading
  | [] => x.settle
  | s :: rest =>
    if s = "--" then if rest.isEmpty then x.settle else .error .unknownArgument
    else do (← x.readArgument s).readArguments rest

end Reading

/-! ### Environment -/

/-- Adds what the environment says about options that have not been given. -/
def readEnvironment (environment : List (String × String)) :
    List Flag → Values → Except Refusal Values
  | [], values => .ok values
  | flag :: rest, values =>
    match values.get? flag, environment.lookup flag.variableName with
    | none, some s => do
      let value ← flag.read s
      readEnvironment environment rest (values ++ [(flag, value)])
    | _, _ => readEnvironment environment rest values

/-! ### Options -/

/-- The text of an option. -/
def Values.text? (values : Values) (flag : Flag) : Option String :=
  match values.get? flag with
  | some (.text s) => some s
  | _ => none

/-- The number of an option. -/
def Values.number? (values : Values) (flag : Flag) : Option UInt64 :=
  match values.get? flag with
  | some (.number n) => some n
  | _ => none

/-- The options with the given values; two of them have to be there. -/
def Values.options (values : Values) : Except Refusal Options :=
  match values.text? .chainsConfig, values.text? .vaultsSnapshot with
  | some chainsConfig, some vaultsSnapshot =>
    .ok
      { chainsConfig, vaultsSnapshot
        output := values.text? .output
        startBlock := (values.number? .startBlock).getD 0
        endBlock := values.number? .endBlock
        maxConcurrency := values.number? .maxConcurrency
        intervalSecs := values.number? .intervalSecs
        otelCollectorEndpoint := values.text? .otelCollectorEndpoint
        telegramBotToken := values.text? .telegramBotToken
        telegramChatId := values.text? .telegramChatId }
  | _, _ => .error .missingRequired

/-- The options that arguments and environment give. -/
def read (arguments : List String) (environment : List (String × String)) :
    Except Refusal Options := do
  let x ← Reading.readArguments {} arguments
  let values ← readEnvironment environment Flag.all x.values
  values.options

end VaultIndex.CommandLine
