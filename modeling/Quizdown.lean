import Quizdown.AnswerList
import Quizdown.Assembly.Log
import Quizdown.Command.Run
import Quizdown.Config.Load
import Quizdown.Converter
import Quizdown.Directive.Apply
import Quizdown.Directive.Extract
import Quizdown.Document.Reader
import Quizdown.Glob.Expand
import Quizdown.Html.PlainText
import Quizdown.Html.Reader
import Quizdown.Html.Writer
import Quizdown.Log.Filter
import Quizdown.Main
import Quizdown.Markdown.Reader
import Quizdown.Moodle
import Quizdown.Toml.Reader
import Quizdown.Xml.Writer
import Quizdown.Proofs.Assembly.Group
import Quizdown.Proofs.Assembly.State
import Quizdown.Proofs.Assembly.Language
import Quizdown.Proofs.Assembly.Questions
import Quizdown.Xml.Reader
import Quizdown.Proofs.Xml.RoundTrip
import Quizdown.Proofs.Html.Reading
import Quizdown.Proofs.Text.Trim
import Quizdown.Proofs.AnswerList.Shape
import Quizdown.Proofs.Assembly.WellFormed
import Quizdown.Proofs.Moodle.Lossless
import Quizdown.Proofs.Document.Nesting
import Quizdown.Proofs.Assembly.Agreement
import Quizdown.Proofs.Command.Acceptance
import Quizdown.Proofs.Directive.Strip
import Quizdown.Proofs.Html.WellFormed
import Quizdown.Proofs.Directive.Markup
import Quizdown.Proofs.Moodle.IdleKeys
import Quizdown.Proofs.Command.Kept
import Quizdown.Proofs.Html.Skeleton
import Quizdown.Proofs.Text.Escape
import Quizdown.Proofs.AnswerList.Separator
import Quizdown.Proofs.Xml.Grammar
import Quizdown.Proofs.Moodle.WellFormed
import Quizdown.Proofs.Command.Isolated
import Quizdown.Proofs.Assembly.Refusal
import Quizdown.Proofs.Directive.Places
import Quizdown.Proofs.Directive.Comments
import Quizdown.Proofs.Directive.Conservation
import Quizdown.Proofs.Directive.Words
import Quizdown.Proofs.Directive.PlainText
import Quizdown.Proofs.Assembly.Config
import Quizdown.Proofs.Text.OutsideTags
import Quizdown.Proofs.AnswerList.Decision
import Quizdown.Proofs.AnswerList.Score
import Quizdown.Proofs.Html.Hidden
import Quizdown.Proofs.Directive.Alone
import Quizdown.Proofs.Directive.Visible
import Quizdown.Proofs.Assembly.Description
import Quizdown.Proofs.Decimal.Nearest
import Quizdown.Proofs.Decimal.Reading
import Quizdown.Proofs.AnswerList.Number
import Quizdown.Proofs.AnswerList.Tolerance
import Quizdown.Proofs.Decimal.Precision
import Quizdown.Proofs.Moodle.Tolerance
import Quizdown.Proofs.Html.Characters
import Quizdown.Proofs.Html.Separation
import Quizdown.Proofs.Moodle.Tags
import Quizdown.Proofs.Document.Loose
import Quizdown.Proofs.Document.Comments
import Quizdown.Proofs.AnswerList.Halves
import Quizdown.Proofs.Assembly.Name
import Quizdown.Proofs.Decimal.Value
import Quizdown.Proofs.Decimal.Canonical
import Quizdown.Proofs.Command.Inputs
import Quizdown.Proofs.Config.Layers
import Quizdown.Proofs.Document.LineNumbers
import Quizdown.Proofs.Config.Discovery
