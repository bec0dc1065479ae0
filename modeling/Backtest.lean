import Backtest.Text.Blank
import Backtest.Text.Digit
import Backtest.Text.Printable
import Backtest.Text.CodePoint
import Backtest.Text.Lines
import Backtest.Text.Quoted
import Backtest.Decimal.Binary64
import Backtest.Decimal.Shortest
import Backtest.Decimal.Layout
import Backtest.Decimal.Reader
import Backtest.Calendar.Date
import Backtest.Formula.Error
import Backtest.Formula.Token
import Backtest.Formula.Chain
import Backtest.Formula.Eval
import Backtest.Document.Value
import Backtest.Fault
import Backtest.Document.Json
import Backtest.Document.Coerce
import Backtest.Sorting.Runs
import Backtest.Document.Order
import Backtest.Market.Observation
import Backtest.Ledger.Portfolio
import Backtest.Rules.Spec
import Backtest.Rules.Build
import Backtest.Rules.Condition
import Backtest.Ledger.Execute
import Backtest.Simulation.Journal
import Backtest.Simulation.Run
import Backtest.Market.Series
import Backtest.Csv
import Backtest.Market.PriceFile
import Backtest.Document.Yaml.Scalar
import Backtest.Text.Utf8
import Backtest.Document.Yaml.Mark
import Backtest.Document.Yaml.Depth
import Backtest.Document.Yaml.Token
import Backtest.Document.Yaml.Token.Scan
import Backtest.Document.Yaml.Event
import Backtest.Document.Yaml.Event.Parse
import Backtest.Document.Yaml.Node
import Backtest.Document.Yaml.Load
import Backtest.Digest.SipHash
import Backtest.Document.Hash
import Backtest.Document.KeyTable
import Backtest.Digest.Sha256
import Backtest.Calendar.Moment
import Backtest.Config.Strategy
import Backtest.Config.Folder
import Backtest.Config.Run
import Backtest.Proofs.Formula.Nesting
import Backtest.Proofs.Formula.Checks
import Backtest.Proofs.Ledger.Sizing
import Backtest.Proofs.Ledger.Fills
import Backtest.Proofs.Simulation.Accounting
import Backtest.Proofs.Binary64.Encoding
import Backtest.Proofs.Binary64.Rounding
import Backtest.Proofs.Binary64.Arithmetic
import Backtest.Proofs.Binary64.Order
import Backtest.Proofs.Binary64.Decode
import Backtest.Proofs.Ledger.Solvency
import Backtest.Proofs.Binary64.Nearest
import Backtest.Proofs.Decimal.Shortest
import Backtest.Proofs.Decimal.RoundTrip
import Backtest.Proofs.Formula.Grammar
import Backtest.Proofs.Formula.Flat
import Backtest.Proofs.Formula.Resolve
import Backtest.Proofs.Formula.Agreement
import Backtest.Proofs.Formula.Validity
import Backtest.Proofs.Formula.Grouping
import Backtest.Proofs.Formula.Cuts
import Backtest.Proofs.Formula.Precedence
import Backtest.Proofs.Rules.Rebuild
import Backtest.Proofs.Decimal.Fewest
import Backtest.Proofs.Decimal.PlainText
import Backtest.Proofs.Simulation.Orders
import Backtest.Proofs.Simulation.Audit
import Backtest.Proofs.Simulation.Outcome
import Backtest.Proofs.Simulation.Integrity
import Backtest.Proofs.Binary64.Extended
import Backtest.Proofs.Rules.Ranges
import Backtest.Proofs.Simulation.Idle
import Backtest.Proofs.Document.Probing
import Backtest.Proofs.Market.PriceRows
import Backtest.Proofs.Document.KeySets
import Backtest.Proofs.Rules.Outcomes
