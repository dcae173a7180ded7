import FormulaMarkup.Main
import FormulaMarkup.Token.Lookahead
import FormulaMarkup.Proofs.Bracketed
import FormulaMarkup.Proofs.Brackets.LoneBars
import FormulaMarkup.Proofs.Chains
import FormulaMarkup.Proofs.Concatenation
import FormulaMarkup.Proofs.Content
import FormulaMarkup.Proofs.Deepest
import FormulaMarkup.Proofs.OnDemand.Derivation
import FormulaMarkup.Proofs.Operands
import FormulaMarkup.Proofs.ReadingOrder
import FormulaMarkup.Proofs.RoundTrip
import FormulaMarkup.Proofs.Tags
import FormulaMarkup.Proofs.WellFormed
import FormulaMarkup.Proofs.Table.Matrix
import FormulaMarkup.Proofs.Token.Rules
import FormulaMarkup.Proofs.Grammar.Commas
import FormulaMarkup.Proofs.Fractions
import FormulaMarkup.Proofs.Token.Cursor
import FormulaMarkup.Proofs.Token.Verbatim
import FormulaMarkup.Proofs.Markup.Escaping
import FormulaMarkup.Proofs.Markup.Size
import FormulaMarkup.Proofs.Size
