import ContractClients.Checks.Run
import ContractClients.Client.Assembly
import ContractClients.Client.ContractClient
import ContractClients.Client.Embedded
import ContractClients.Client.Entrypoint
import ContractClients.Client.Item
import ContractClients.Client.ModuleClient
import ContractClients.Conversion.Convert
import ContractClients.Conversion.Types
import ContractClients.Document.Basic
import ContractClients.Document.Verdict
import ContractClients.File.Path
import ContractClients.Main
import ContractClients.Module.Check
import ContractClients.Number.Binary64
import ContractClients.Number.Reading
import ContractClients.Schema.Basic
import ContractClients.Schema.Check
import ContractClients.Settings.Load
import ContractClients.Text.Lines
import ContractClients.Text.Printable
import ContractClients.TypeScript.Check
import ContractClients.TypeScript.Code
import ContractClients.TypeScript.Declaration
import ContractClients.TypeScript.Layout
import ContractClients.TypeScript.PascalCase
import ContractClients.TypeScript.Render
import ContractClients.Workflow.Generate
import ContractClients.Yaml.Atom
import ContractClients.Yaml.Composition
import ContractClients.Yaml.Cursor
import ContractClients.Yaml.Graph
import ContractClients.Yaml.Number
import ContractClients.Yaml.Scalar
import ContractClients.Yaml.Tag
import ContractClients.Yaml.Timestamp
import ContractClients.Yaml.Token
import ContractClients.Yaml.TokenStream
import ContractClients.Yaml.Value
import ContractClients.Proofs.Evaluation
import ContractClients.Proofs.ConvertShapes
import ContractClients.Proofs.Supply
import ContractClients.Proofs.TempNames
import ContractClients.Proofs.Representation
import ContractClients.Proofs.Simulation
import ContractClients.Proofs.RoundTrip
import ContractClients.Proofs.Scope
import ContractClients.Proofs.Session
import ContractClients.Proofs.ClientNames
import ContractClients.Proofs.Scanner
import ContractClients.Proofs.Printing
import ContractClients.Proofs.ConversionText
import ContractClients.Proofs.Dialogue
import ContractClients.Proofs.Building
import ContractClients.Proofs.PascalNames
import ContractClients.Proofs.PascalLaws
import ContractClients.Proofs.UnitNames
import ContractClients.Proofs.NameClashes
import ContractClients.Proofs.UsedNames
import ContractClients.Proofs.UnitClosure
import ContractClients.Proofs.UnitShapes
import ContractClients.Proofs.Base64
import ContractClients.Proofs.EmbeddedSchemas
import ContractClients.Proofs.GenerationRuns
import ContractClients.Proofs.Verdicts
import ContractClients.Proofs.Readings
import ContractClients.Proofs.NormalForms
import ContractClients.Proofs.Grammar
import ContractClients.Proofs.Diagnosis
import ContractClients.Proofs.SchemaGrammar
import ContractClients.Proofs.Margins
import ContractClients.Proofs.Indentation
import ContractClients.Proofs.InheritedNames
import ContractClients.Proofs.Elision
import ContractClients.Proofs.Numbering
import ContractClients.Proofs.Relocation
import ContractClients.Proofs.Alignment
import ContractClients.Proofs.Tokens
import ContractClients.Proofs.TypeGrammar
import ContractClients.Proofs.PrintableCode
import ContractClients.Proofs.TypeTrees
import ContractClients.Proofs.MappingKeys
import ContractClients.Proofs.Configurations
import ContractClients.Proofs.UnlistedEntries
import ContractClients.Proofs.UsableNames
import ContractClients.Proofs.WireForms
import ContractClients.Proofs.RenderedFiles
import ContractClients.Proofs.ProgressReports
import ContractClients.Proofs.DocComments
import ContractClients.Proofs.DocumentedUnits
import ContractClients.Proofs.DocumentedClients
import ContractClients.Proofs.FailingActions
import ContractClients.Proofs.ScannerFaults
import ContractClients.Proofs.CompositionFaults
import ContractClients.Proofs.ScalarFaults
import ContractClients.Proofs.DocumentFaults
import ContractClients.Proofs.ConfigurationFailures
import ContractClients.Proofs.CheckRuns
import ContractClients.Proofs.StringLiterals
import ContractClients.Proofs.PropertyNames
import ContractClients.Proofs.SdkImports
import ContractClients.Proofs.NestingLevels
import ContractClients.Proofs.ConversionRows
import ContractClients.Proofs.ClientRows
import ContractClients.Proofs.DefaultWidth
