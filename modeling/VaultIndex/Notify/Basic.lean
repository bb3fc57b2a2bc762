import VaultIndex.Evm.Word

/-!
# Notifications

Short texts for the operators. They go to a chat if its credentials are known, and to the log
otherwise.
-/

namespace VaultIndex

inductive LogLevel where
  | info
  | error
deriving DecidableEq, Inhabited

structure LogLine where
  level : LogLevel
  message : String
deriving DecidableEq, Inhabited

namespace LogLine

/-- A line of the log, with its level in front. -/
def text (l : LogLine) : String :=
  (match l.level with
    | .info => "INFO "
    | .error => "ERROR ") ++ l.message

end LogLine

/-- Where notifications go. -/
inductive Notifier where
  | log
  | chat (token chatId : String)
deriving DecidableEq, Inhabited

namespace Notifier

/-- The notifier for what is known of the credentials; an empty one is unknown. -/
def ofCredentials : Option String → Option String → Notifier
  | some token, some chatId => if token.isEmpty || chatId.isEmpty then log else chat token chatId
  | _, _ => log

/-- What is logged when a notifier is chosen. -/
def onChoice : Notifier → List LogLine
  | log => [⟨.info, "[Notifier] Telegram credentials missing, notifications go to the logs"⟩]
  | chat .. => []

/-- What is logged for a notification. -/
def onMessage (message : String) : Notifier → List LogLine
  | log => [⟨.info, "[LogNotifier] 📣 " ++ message⟩]
  | chat .. => []

end Notifier

/-- Why a chat did not take a message. -/
inductive NotifyError where
  | rejected (status : Nat) (description : String)
deriving DecidableEq, Inhabited

namespace NotifyError

def message : NotifyError → String
  | rejected status description =>
    "Telegram rejected the message (" ++ String.ofList (Digits.write 10 status) ++ "): " ++
      description

end NotifyError

/-! ### Announcing chains -/

/-- How many of the chains have been indexed for the first time. -/
structure InitializationTracker where
  total : Nat
  initialized : Nat := 0
deriving DecidableEq, Inhabited

namespace InitializationTracker

/-- The announcement of a chain, as the so many-th of all. -/
def announcement (chain : ChainId) (count total : Nat) : String :=
  let n := fun n : Nat => String.ofList (Digits.write 10 n)
  "✅ - yieldscope initialized for chain " ++ n chain.toNat ++ " (" ++ n count ++ "/" ++
    n total ++ ")"

/-- Counts a chain, and announces it. -/
def chainInitialized (t : InitializationTracker) (chain : ChainId) :
    InitializationTracker × String :=
  let t := { t with initialized := t.initialized + 1 }
  (t, announcement chain t.initialized t.total)

end InitializationTracker

end VaultIndex
