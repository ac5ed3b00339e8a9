import Abacus.Binary64.Arithmetic
import Abacus.Binary64.Basic
import Abacus.Binary64.OfInt
import Abacus.Binary64.Power
import Abacus.Binary64.Rounding
import Abacus.CommandLine
import Abacus.Decimal.Basic
import Abacus.Decimal.Layout
import Abacus.Decimal.Shortest
import Abacus.Error
import Abacus.Event
import Abacus.Grammar.Nesting
import Abacus.Grammar.Parser
import Abacus.Grammar.Rule
import Abacus.Main
import Abacus.Numeral
import Abacus.Operator
import Abacus.Program
import Abacus.Prompt
import Abacus.Scopes
import Abacus.Session
import Abacus.Text.Blank
import Abacus.Text.CharClass
import Abacus.Text.Erase
import Abacus.Text.Escape
import Abacus.Text.Extender
import Abacus.Text.Grapheme
import Abacus.Text.Grapheme.Conjunct
import Abacus.Text.Grapheme.Pictograph
import Abacus.Text.Grapheme.Role
import Abacus.Text.Grapheme.Spacing
import Abacus.Text.Invisible
import Abacus.Token
import Abacus.Token.Lexer
import Abacus.Value
import Abacus.Proofs.Grammar.Depth
import Abacus.Proofs.Grammar.Joining
import Abacus.Proofs.Grammar.Lines
import Abacus.Proofs.Grammar.Parsing
import Abacus.Proofs.Session.Balance
import Abacus.Proofs.Session.Environment
import Abacus.Proofs.Session.Joining
import Abacus.Proofs.Session.Recovery
import Abacus.Proofs.Session.Resolution
import Abacus.Proofs.Grammar.Stuck
import Abacus.Proofs.Session.Diagnosis
import Abacus.Proofs.Session.Finiteness
import Abacus.Proofs.Binary64.Whole
import Abacus.Proofs.Session.RoundTrip
import Abacus.Proofs.Grammar.Brackets
import Abacus.Proofs.Session.Independence
import Abacus.Proofs.Token.Pieces
import Abacus.Proofs.Grammar.Ends
import Abacus.Proofs.Prompt.Entries
import Abacus.Proofs.Numeral.Language
import Abacus.Proofs.Token.Extent
import Abacus.Proofs.Grammar.Unlimited
import Abacus.Proofs.Grammar.Walk
import Abacus.Proofs.Grammar.Calls
import Abacus.Proofs.Grammar.Viable
import Abacus.Proofs.Binary64.Integers
import Abacus.Proofs.Value.Powers
import Abacus.Proofs.Value.Printing
import Abacus.Proofs.Value.Routes
import Abacus.Proofs.Session.Exactness
import Abacus.Proofs.Binary64.Infinite
import Abacus.Proofs.Value.Saturation
import Abacus.Proofs.Grammar.Counting
import Abacus.Proofs.Session.History
import Abacus.Proofs.Decimal.Rational
import Abacus.Proofs.Decimal.Text
import Abacus.Proofs.Value.Display
import Abacus.Proofs.Session.Logging
