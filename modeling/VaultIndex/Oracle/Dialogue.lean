import VaultIndex.Chain.Source

/-!
# Dialogues with oracles

Work that needs the oracles of chains, one question at a time: a dialogue has come to its value, or
it puts a question and goes on by the answer. Where several are led at the same time, their
questions may come in any order.
-/

namespace VaultIndex

/-- A question about the oracle of a chain. -/
inductive OracleQuestion where
  /-- Whether the oracle can be reached. -/
  | connect (chain : ChainId) (oracle : Address)
  | call (chain : ChainId) (oracle : Address) (call : OracleCall)
deriving DecidableEq, Inhabited

/-- What can be the answer to a question. -/
def OracleQuestion.Answer : OracleQuestion → Type
  | connect .. => Except ChainError Unit
  | call .. => Except ChainError U256

inductive Dialogue (α : Type) where
  | done (value : α)
  | ask (question : OracleQuestion) (next : question.Answer → Dialogue α)

namespace Dialogue

variable {α β : Type}

/-- Goes on with a second dialogue by the value of the first one. -/
def bind : Dialogue α → (α → Dialogue β) → Dialogue β
  | done value, f => f value
  | ask question next, f => ask question fun answer => (next answer).bind f

instance : Monad Dialogue where
  pure := done
  bind := bind

/-- Puts a question. -/
def put (question : OracleQuestion) : Dialogue question.Answer := ask question done

/-- The value of a dialogue when questions are answered in the given way. -/
def value (answer : (q : OracleQuestion) → q.Answer) : Dialogue α → α
  | done value => value
  | ask question next => (next (answer question)).value answer

/-- Chains whose oracles are asked in dialogues; they have no event sources. -/
def chains : ChainSource Dialogue where
  eventSource chain := return .error (.unknownChain chain)
  aprOracle chain oracle := do
    let reached : Except ChainError Unit ← put (.connect chain oracle)
    return reached.map fun _ call => put (.call chain oracle call)

@[simp] theorem value_pure (answer : (q : OracleQuestion) → q.Answer) (a : α) :
    (pure a : Dialogue α).value answer = a := rfl

@[simp] theorem value_bind (answer : (q : OracleQuestion) → q.Answer) (d : Dialogue α)
    (f : α → Dialogue β) : (d >>= f).value answer = (f (d.value answer)).value answer := by
  induction d with
  | done a => rfl
  | ask question next ih => exact ih (answer question)

end Dialogue

/-- What the oracles of chains answer. An oracle that is not reached is never called. -/
def ChainSource.answers (source : ChainSource Id) : (q : OracleQuestion) → q.Answer
  | .connect chain oracle =>
    (source.aprOracle chain oracle : Except ChainError (AprOracle Id)).map fun _ => ()
  | .call chain oracle call =>
    match (source.aprOracle chain oracle : Except ChainError (AprOracle Id)) with
    | .ok ask => ask call
    | .error cause => .error cause

end VaultIndex
