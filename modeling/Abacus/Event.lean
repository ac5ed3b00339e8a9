import Abacus.Token
import Abacus.Value

/-!
# The log

What a session does is written down as events. An event has a level and a source, and this file
fixes both and the wording. A log is shown down to some level: whoever sees one level sees the more
important ones too (`Threshold.admits`).
-/

namespace Abacus

/-! ## 1. Levels -/

/-- How important an event is. -/
inductive Level where
  | error
  | warn
  | info
  | debug
  | trace
deriving DecidableEq

namespace Level

/-- The place of the level, the most important first. -/
def rank : Level → Nat
  | error => 1
  | warn => 2
  | info => 3
  | debug => 4
  | trace => 5

/-- The level's name. -/
def name : Level → String
  | error => "ERROR"
  | warn => "WARN"
  | info => "INFO"
  | debug => "DEBUG"
  | trace => "TRACE"

end Level

/-- The least important level that is shown, or none at all. -/
inductive Threshold where
  | off
  | upTo (level : Level)
deriving DecidableEq

namespace Threshold

/-- The level is shown. -/
def admits : Threshold → Level → Bool
  | off, _ => false
  | upTo least, level => decide (level.rank ≤ least.rank)

/-- The threshold with the given name, in letters of either case. -/
def ofName? (name : String) : Option Threshold :=
  match name.toLower with
  | "off" => some off
  | "error" => some (upTo .error)
  | "warn" => some (upTo .warn)
  | "info" => some (upTo .info)
  | "debug" => some (upTo .debug)
  | "trace" => some (upTo .trace)
  | _ => none

end Threshold

/-! ## 2. Events -/

/-- Something that a session did. -/
inductive Event where
  /-- A token was read. -/
  | token (t : Token)
  /-- A chunk was accepted: its top-level statements and its tokens. -/
  | parsed (statements tokens : Nat)
  /-- A chunk was run to its end: the number of printed values. -/
  | finished (printed : Nat)
  /-- A name was given a value. -/
  | assigned (x : String) (v : Value)
  /-- The value of a name was printed. -/
  | shown (x : String) (p : Printed)
  /-- An operation had no result. -/
  | failed (fault : Fault)
  /-- A scope was opened; the scopes that are open now. -/
  | opened (depth : Nat)
  /-- A scope was closed; the scopes that are open now. -/
  | closed (depth : Nat)
  /-- The prompt waits for an entry, and its input is no terminal. -/
  | awaited
  /-- An entry was read at the prompt. -/
  | entered (entry : String)
  /-- The input at the prompt could not be read. -/
  | unreadable (reason : String)
deriving DecidableEq

namespace Event

/-- How important the event is. -/
def level : Event → Level
  | token _ => .trace
  | parsed .. | finished _ | entered _ => .info
  | assigned .. | shown .. | failed _ | opened _ | closed _ | awaited => .debug
  | unreadable _ => .error

/-- The part of the program that the event comes from, as the log names it. -/
def source : Event → String
  | token _ => "scalc::lang::lexer"
  | parsed .. | finished _ => "scalc::lang::runtime"
  | assigned .. | shown .. | failed _ => "scalc::lang::eval"
  | opened _ | closed _ => "scalc::lang::variables"
  | awaited => "rustyline"
  | entered _ | unreadable _ => "scalc"

/-- The wording of the event. -/
def message : Event → String
  | token t => s!"token {t.kind.name} `{t.lexeme}` on line {t.line}"
  | parsed statements tokens => s!"parsed {statements} statements from {tokens} tokens"
  | finished printed => s!"printed {printed} values"
  | assigned x v => s!"assign {x} = {v.describe}"
  | shown x p => s!"print {x} -> {p.text}"
  | failed fault =>
    s!"`{fault.operator.symbol}` failed: {(RuntimeError.arithmetic fault).message}"
  | opened depth => s!"push scope, depth={depth}"
  | closed depth => s!"pop scope, depth={depth}"
  | awaited => "stdin is not a tty"
  | entered entry => s!"read: {entry}"
  | unreadable reason => s!"Unexpected error: {reason}"

end Event

/-- The events of a log that are shown. -/
def Threshold.select (threshold : Threshold) (log : Array Event) : List Event :=
  log.toList.filter fun event => threshold.admits event.level

end Abacus
