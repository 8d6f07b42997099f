import FormWiring.Action
import FormWiring.Calendar.Date
import FormWiring.Calendar.Format
import FormWiring.Calendar.Parts
import FormWiring.Calendar.Reader
import FormWiring.Check
import FormWiring.Check.Address
import FormWiring.Check.Document
import FormWiring.Check.Email
import FormWiring.Check.Number
import FormWiring.Check.Url
import FormWiring.Code.Grammar
import FormWiring.Code.Lexeme
import FormWiring.Code.Lexer
import FormWiring.Code.Literal
import FormWiring.Code.Token
import FormWiring.Command
import FormWiring.Command.Failure
import FormWiring.Command.Line
import FormWiring.Command.Run
import FormWiring.Datum
import FormWiring.Datum.Dialect
import FormWiring.Derive.Callbacks
import FormWiring.Derive.Error
import FormWiring.Derive.Field
import FormWiring.Derive.Form
import FormWiring.Derive.Options
import FormWiring.Descriptor
import FormWiring.Descriptor.Data
import FormWiring.Execution.Evaluator
import FormWiring.Execution.World
import FormWiring.Files
import FormWiring.Form
import FormWiring.Form.Data
import FormWiring.Host
import FormWiring.Host.Declaration
import FormWiring.Json.Parser
import FormWiring.Json.Printer
import FormWiring.Log
import FormWiring.Main
import FormWiring.Message
import FormWiring.Plan
import FormWiring.Plan.Data
import FormWiring.Proofs.Assembly
import FormWiring.Proofs.Contract
import FormWiring.Proofs.Evaluation
import FormWiring.Proofs.FieldReports
import FormWiring.Proofs.History
import FormWiring.Proofs.Meaning
import FormWiring.Proofs.Reporting
import FormWiring.Proofs.Shown
import FormWiring.Proofs.Wiring
import FormWiring.Regex.CharSet
import FormWiring.Regex.Parser
import FormWiring.Regex.Pattern
import FormWiring.Regex.Property
import FormWiring.Resolution
import FormWiring.Rule
import FormWiring.Screen
import FormWiring.Session
import FormWiring.Settings
import FormWiring.Settings.Environment
import FormWiring.Text.Blank
import FormWiring.Text.CaseFold
import FormWiring.Text.Category
import FormWiring.Text.Digit
import FormWiring.Text.Quoted
import FormWiring.Text.Script
import FormWiring.Toml.Parser
import FormWiring.Toml.Scalar
import FormWiring.Toml.Tree
import FormWiring.Validator
import FormWiring.ValidatorSet
import FormWiring.WiringUnit
import FormWiring.WiringUnit.Code
import FormWiring.WiringUnit.OfForm
import FormWiring.Proofs.Clicks
import FormWiring.Proofs.Actions
import FormWiring.Proofs.Decimal
import FormWiring.Proofs.WrittenOptions
import FormWiring.Proofs.WrittenFields
import FormWiring.Proofs.Derivation
import FormWiring.Proofs.CodeText
import FormWiring.Proofs.WellFormed
import FormWiring.Proofs.WrittenNames
import FormWiring.Proofs.ValidatorCode
import FormWiring.Proofs.FaithfulCode
import FormWiring.Proofs.Members
import FormWiring.Proofs.OwnErrors
import FormWiring.Proofs.Selection
import FormWiring.Proofs.Scanning
import FormWiring.Proofs.ModelSchema
import FormWiring.Proofs.ModelRoundTrip
import FormWiring.Proofs.ComparedIntegers
import FormWiring.Proofs.ResolvedFields
import FormWiring.Proofs.AllOrNothing
import FormWiring.Proofs.ReadingBounds
import FormWiring.Proofs.ReadingGroups
import FormWiring.Proofs.RegexMatching
import FormWiring.Proofs.WholeMatch
import FormWiring.Proofs.FieldOrder
import FormWiring.Proofs.OptionLists
import FormWiring.Proofs.CallbackOptions
import FormWiring.Proofs.GivenOptions
import FormWiring.Proofs.FieldAttributes
import FormWiring.Proofs.EmailGrammar
import FormWiring.Proofs.TaxpayerNumbers
import FormWiring.Proofs.CardNumbers
import FormWiring.Proofs.BookNumbers
import FormWiring.Proofs.CaseFolding
import FormWiring.Proofs.UrlGrammar
import FormWiring.Proofs.OptionalValues
import FormWiring.Proofs.Violations
import FormWiring.Proofs.JsonText
import FormWiring.Proofs.SettingLayers
import FormWiring.Proofs.PrintedPlans
import FormWiring.Proofs.PlanLines
