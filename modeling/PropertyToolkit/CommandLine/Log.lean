import PropertyToolkit.Substitution.Source
import PropertyToolkit.Text.Quoted

/-!
The log of a run. A record tells where it comes from, how grave it is and what happened; records
below the level of the log are left out. A computation may carry the records of what it did, and
fail: what it comes to does not depend on them.
-/

set_option autoImplicit false

namespace PropertyToolkit.CommandLine

inductive Severity where
  | debug
  | info
  | warning
  | error
deriving DecidableEq

namespace Severity

def rank : Severity → Nat
  | debug => 0
  | info => 1
  | warning => 2
  | error => 3

def name : Severity → Text
  | debug => "DEBUG"
  | info => "INFO"
  | warning => "WARNING"
  | error => "ERROR"

end Severity

/-- The parts of the program that write to the log. -/
inductive Origin where
  | subst
  | matching
  | encode
  | pattern
  | propertyFile
  | substitution
deriving DecidableEq

def Origin.name : Origin → Text
  | subst => "propkit.cli.commands.subst"
  | matching => "propkit.cli.commands.match"
  | encode => "propkit.cli.commands.encode"
  | pattern => "propkit.filters.substring"
  | propertyFile => "propkit.loader"
  | substitution => "propkit.variables.substitution"

structure Record where
  origin : Origin
  severity : Severity
  message : Text
deriving DecidableEq

abbrev Log := List Record

def Record.line (record : Record) : Text :=
  record.origin.name ++ (" - " ++ (record.severity.name ++ (" - " ++ (record.message ++ "\n"))))

/-- The text of a log from a level on. -/
def Log.text (level : Severity) (log : Log) : Text :=
  (log.filter fun record => level.rank ≤ record.severity.rank).flatMap Record.line

/-- Surrogates are written as escapes where text has to be written in any case. -/
def escapeSurrogates (t : Text) : Text :=
  t.flatMap fun c => if c.isSurrogate then Text.hexEscape c else [c]

/-- The record of a resolved placeholder; nothing else in a journal is logged. -/
def Record.ofEvent? : Substitution.Event → Option Record
  | .asked .. => none
  | .resolved name value =>
    some ⟨.substitution, .debug, "Resolved $\x7b" ++ (name ++ ("\x7d -> " ++ value.quoted))⟩

def Log.ofJournal (journal : Substitution.Journal) : Log := journal.filterMap Record.ofEvent?

/-- A result with the records of what was done for it. -/
structure Logged (ε α : Type) where
  result : Except ε α
  log : Log

namespace Logged

variable {ε α β : Type}

def bind (first : Logged ε α) (next : α → Logged ε β) : Logged ε β :=
  match first.result with
  | .error fault => ⟨.error fault, first.log⟩
  | .ok a =>
    let second := next a
    ⟨second.result, first.log ++ second.log⟩

instance : Monad (Logged ε) where
  pure a := ⟨.ok a, []⟩
  bind := bind

def ofExcept (result : Except ε α) : Logged ε α := ⟨result, []⟩

/-- Writes a record. -/
def tell (record : Record) : Logged ε Unit := ⟨.ok (), [record]⟩

@[simp] theorem result_pure (a : α) : (pure a : Logged ε α).result = .ok a := rfl

@[simp] theorem result_tell (record : Record) : (tell record : Logged ε Unit).result = .ok () := rfl

@[simp] theorem result_ofExcept (result : Except ε α) : (ofExcept result).result = result := rfl

@[simp] theorem result_bind (first : Logged ε α) (next : α → Logged ε β) :
    (first >>= next).result = first.result >>= fun a => (next a).result := by
  change (first.bind next).result = _
  unfold bind
  cases first.result <;> rfl

end Logged

end PropertyToolkit.CommandLine
