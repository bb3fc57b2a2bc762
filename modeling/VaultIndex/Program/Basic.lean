import VaultIndex.CommandLine.Basic
import VaultIndex.Index.Service
import VaultIndex.Program.File
import VaultIndex.Rpc.Source
import VaultIndex.Url.Endpoint

/-!
# The program

A run from its options to its end: the registry is read, then the snapshot, and the chains are
indexed until there is nothing more to do. Vaults are asked for one after the other, which keeps
within any bound on concurrency.
-/

namespace VaultIndex

/-- What the program needs of the machine it runs on. -/
structure Host (m : Type → Type) where
  readText : String → m (Except FileError String)
  writeText : String → String → m (Except FileError Unit)
  print : String → m Unit
  log : LogLine → m Unit
  /-- Sends a message to a chat. -/
  send : String → String → String → m Unit
  node : ChainConfig → RpcNode m
  isCancelled : m Bool
  now : m Timestamp
  pause : Duration → m Bool

namespace Program

/-- Why the program ends early. -/
inductive Failure where
  | telemetry
  | registryFile (cause : FileError)
  | registryText (cause : ChainRegistry.TextError)
  | snapshotFile (path : String) (cause : FileError)
  | snapshotText (cause : Json.ReadError)
  | report (path : String) (cause : FileError)
deriving DecidableEq

/-- What the program was doing. -/
def Failure.context : Failure → String
  | telemetry => "Could not init telemetry"
  | registryFile _ | registryText _ => "Failed to load chain config"
  | snapshotFile path _ => "Cannot read vault snapshot " ++ path
  | snapshotText _ => "Invalid vault snapshot"
  | report path _ => "Failed to write report to " ++ path

variable {m : Type → Type} [Monad m]

/-- The registry in a file. -/
def registryOf (file : Except FileError String) : Except Failure ChainRegistry := do
  let text ← file.mapError .registryFile
  (ChainRegistry.ofText text).mapError .registryText

/-- The snapshot in the file of a path. -/
def snapshotOf (path : String) (file : Except FileError String) : Except Failure VaultSnapshot := do
  let text ← file.mapError (.snapshotFile path)
  (VaultSnapshot.ofText text).mapError .snapshotText

/-- Writes a report to the file of a path, or prints it. -/
def publish (host : Host m) (output : Option String) (report : IndexReport) :
    m (Except Failure Unit) := do
  match output with
  | none =>
    host.print report.text
    return .ok ()
  | some path => return (← host.writeText path report.text).mapError (.report path)

/-- Sends a message where a notifier says. -/
def notify (host : Host m) (notifier : Notifier) (message : String) : m Unit := do
  (notifier.onMessage message).forM host.log
  match notifier with
  | .log => return
  | .chat token chatId => host.send token chatId message

/-- What an indexer has around it in the program. -/
def surroundings (host : Host m) (options : CommandLine.Options) (registry : ChainRegistry)
    (notifier : Notifier) : Surroundings m Failure where
  source := RpcNode.chainSource registry host.node
  isCancelled := host.isCancelled
  now := host.now
  notify := notify host notifier
  publish := publish host options.output
  pause := host.pause

/-- What is indexed with the given options. -/
def indexer (options : CommandLine.Options) (registry : ChainRegistry) (snapshot : VaultSnapshot) :
    Indexer where
  registry
  snapshot
  range := ⟨options.startBlock, options.endBlock⟩
  interval := options.intervalSecs.map fun n => .ofSeconds n.toNat

/-- Runs the program for at most `limit` passes; `none` if it would go on after them. -/
def run (host : Host m) (options : CommandLine.Options) (limit : Nat) :
    Activity m (Option (Except Failure Unit)) := do
  if options.otelCollectorEndpoint.any (!Endpoint.isValid ·) then return some (.error .telemetry)
  match registryOf (← Activity.outside (host.readText options.chainsConfig)) with
  | .error failure => return some (.error failure)
  | .ok registry =>
    let file ← Activity.outside (host.readText options.vaultsSnapshot)
    match snapshotOf options.vaultsSnapshot file with
    | .error failure => return some (.error failure)
    | .ok snapshot =>
      let notifier := Notifier.ofCredentials options.telegramBotToken options.telegramChatId
      Activity.outside (notifier.onChoice.forM host.log)
      (indexer options registry snapshot).run (surroundings host options registry notifier) limit

end Program

end VaultIndex
