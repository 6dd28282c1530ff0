import ConfigModules.Check
import ConfigModules.Command
import ConfigModules.Conversion
import ConfigModules.Decoding
import ConfigModules.Double.Basic
import ConfigModules.Double.Nearest
import ConfigModules.Double.Shortest
import ConfigModules.Double.Text
import ConfigModules.Files.Basic
import ConfigModules.Files.Change
import ConfigModules.Files.Tree
import ConfigModules.Files.Walk
import ConfigModules.Loader.Basic
import ConfigModules.Loader.Chain
import ConfigModules.Loader.Rendering
import ConfigModules.Loader.Yaml
import ConfigModules.Log
import ConfigModules.Main
import ConfigModules.Mapping
import ConfigModules.Number
import ConfigModules.Script.Evaluation
import ConfigModules.Script.Expression
import ConfigModules.Script.Grammar.Basic
import ConfigModules.Script.Grammar.Expressions
import ConfigModules.Script.Grammar.Statements
import ConfigModules.Script.Literal
import ConfigModules.Script.Module
import ConfigModules.Script.NumberText
import ConfigModules.Script.StringText
import ConfigModules.Script.Token
import ConfigModules.Settings
import ConfigModules.Text.DecimalText
import ConfigModules.Text.Hex
import ConfigModules.Text.HiddenTable
import ConfigModules.Text.IdentifierTable
import ConfigModules.Text.Quotation
import ConfigModules.Text.Ranges
import ConfigModules.Text.Whitespace
import ConfigModules.Toml.Basic
import ConfigModules.Toml.Document
import ConfigModules.Toml.Scalar
import ConfigModules.Toml.Text
import ConfigModules.Value
import ConfigModules.Yaml.Cursor
import ConfigModules.Yaml.Document
import ConfigModules.Yaml.Event
import ConfigModules.Yaml.Fault
import ConfigModules.Yaml.LoadFault
import ConfigModules.Yaml.Merge
import ConfigModules.Yaml.Resolution
import ConfigModules.Yaml.Token.Basic
import ConfigModules.Yaml.Token.Block
import ConfigModules.Yaml.Token.Gap
import ConfigModules.Yaml.Token.Plain
import ConfigModules.Yaml.Token.Quoted
import ConfigModules.Yaml.Token.Scan
import ConfigModules.Yaml.Token.Tag
import ConfigModules.Yaml.Tree
import ConfigModules.Proofs.Double.Rounding
import ConfigModules.Proofs.Double.Shortest
import ConfigModules.Proofs.Double.Value
import ConfigModules.Proofs.Double.Shortness
import ConfigModules.Proofs.Double.Text
import ConfigModules.Proofs.Script.NumberText
import ConfigModules.Proofs.Script.Token
import ConfigModules.Proofs.Script.LiteralExpression
import ConfigModules.Proofs.Script.LiteralGrammar
import ConfigModules.Proofs.Script.RoundTrip
import ConfigModules.Proofs.Script.DataModule
import ConfigModules.Proofs.Check
import ConfigModules.Proofs.Suffixes
import ConfigModules.Proofs.Yaml.BlankText
import ConfigModules.Proofs.BlankSource
import ConfigModules.Proofs.Related
import ConfigModules.Proofs.Mapping
import ConfigModules.Proofs.Files.Path
import ConfigModules.Proofs.Files.Walk
import ConfigModules.Proofs.Files.Tree
import ConfigModules.Proofs.CheckDirectory
import ConfigModules.Proofs.Yaml.Tree
import ConfigModules.Proofs.Yaml.Document
import ConfigModules.Proofs.Conversion
import ConfigModules.Proofs.Yaml.Merge
import ConfigModules.Proofs.Yaml.MergedTree
import ConfigModules.Proofs.Yaml.MergeLoop
import ConfigModules.Proofs.DocumentTree
import ConfigModules.Proofs.Policies
import ConfigModules.Proofs.Position
import ConfigModules.Proofs.MergePrecedence
import ConfigModules.Proofs.MergeKeysLeft
import ConfigModules.Proofs.MergeOrder
import ConfigModules.Proofs.Arguments
import ConfigModules.Proofs.Program
import ConfigModules.Proofs.NumberKeys
import ConfigModules.Proofs.NormalForm
import ConfigModules.Proofs.FaultPath
import ConfigModules.Proofs.FirstFault
import ConfigModules.Proofs.Script.StringLiteral
import ConfigModules.Proofs.Script.StringValue
import ConfigModules.Proofs.Script.StringModule
import ConfigModules.Proofs.Yaml.Word
import ConfigModules.Proofs.Yaml.JsonNumber
import ConfigModules.Proofs.JsonNumber
import ConfigModules.Proofs.LoaderChain
import ConfigModules.Proofs.Script.OneLine
import ConfigModules.Proofs.MergeFree
import ConfigModules.Proofs.JsonText
import ConfigModules.Proofs.Rendering
