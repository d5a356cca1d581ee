import TreeMarkup.Benchmark.Document
import TreeMarkup.Benchmark.Run
import TreeMarkup.Command.Argument
import TreeMarkup.Command.Basic
import TreeMarkup.Command.Run
import TreeMarkup.Declaration
import TreeMarkup.Digest.Sha256
import TreeMarkup.Double.Basic
import TreeMarkup.Double.Numeral
import TreeMarkup.Double.Reading
import TreeMarkup.Files.Tree
import TreeMarkup.Files.Workspace
import TreeMarkup.Json.Basic
import TreeMarkup.Json.Read
import TreeMarkup.Key.Basic
import TreeMarkup.Key.Scan
import TreeMarkup.Layout.Fill
import TreeMarkup.Main
import TreeMarkup.Markup.Entity
import TreeMarkup.Markup.Escape
import TreeMarkup.Markup.Pretty
import TreeMarkup.Markup.Token
import TreeMarkup.Node.Basic
import TreeMarkup.Proofs.AttributeMappings
import TreeMarkup.Proofs.AttributeReading
import TreeMarkup.Proofs.BuildInputs
import TreeMarkup.Proofs.BuildProgress
import TreeMarkup.Proofs.CanonicalTrees
import TreeMarkup.Proofs.CheckAgreement
import TreeMarkup.Proofs.Computations
import TreeMarkup.Proofs.ConvertedFiles
import TreeMarkup.Proofs.DeclarationForms
import TreeMarkup.Proofs.DirectoryMaking
import TreeMarkup.Proofs.DocumentParts
import TreeMarkup.Proofs.DoubleRounding
import TreeMarkup.Proofs.EscapedMarkup
import TreeMarkup.Proofs.EscapedTexts
import TreeMarkup.Proofs.ExplainedRefusals
import TreeMarkup.Proofs.FailedChecks
import TreeMarkup.Proofs.FileEffects
import TreeMarkup.Proofs.FileTrees
import TreeMarkup.Proofs.FlattenedSequences
import TreeMarkup.Proofs.FloatTexts
import TreeMarkup.Proofs.GeneratedDocuments
import TreeMarkup.Proofs.GivenOptions
import TreeMarkup.Proofs.IgnoredContent
import TreeMarkup.Proofs.KeptInputs
import TreeMarkup.Proofs.KeyNames
import TreeMarkup.Proofs.KeyParts
import TreeMarkup.Proofs.ManifestIntegrity
import TreeMarkup.Proofs.MarkupGrammar
import TreeMarkup.Proofs.MarkupReader
import TreeMarkup.Proofs.MarkupReading
import TreeMarkup.Proofs.MergedAttributes
import TreeMarkup.Proofs.MirroredWrites
import TreeMarkup.Proofs.NamedValues
import TreeMarkup.Proofs.NumeralForms
import TreeMarkup.Proofs.OpenTags
import TreeMarkup.Proofs.OrderedMembers
import TreeMarkup.Proofs.OutputContainment
import TreeMarkup.Proofs.PageOutputs
import TreeMarkup.Proofs.PageSetIssues
import TreeMarkup.Proofs.PageSettings
import TreeMarkup.Proofs.PathResolution
import TreeMarkup.Proofs.PlacedTexts
import TreeMarkup.Proofs.QuotedContent
import TreeMarkup.Proofs.QuotedLines
import TreeMarkup.Proofs.ReadNumerals
import TreeMarkup.Proofs.RecordReading
import TreeMarkup.Proofs.RelaxedNumerals
import TreeMarkup.Proofs.RenderedMarkup
import TreeMarkup.Proofs.RoundingBasins
import TreeMarkup.Proofs.ScaledQuotients
import TreeMarkup.Proofs.ScannedAttributes
import TreeMarkup.Proofs.SeparateReading
import TreeMarkup.Proofs.ShortestDecimals
import TreeMarkup.Proofs.SingleEntries
import TreeMarkup.Proofs.SiteWrites
import TreeMarkup.Proofs.StackRendering
import TreeMarkup.Proofs.StressRuns
import TreeMarkup.Proofs.TreePlacement
import TreeMarkup.Proofs.TreeReplacement
import TreeMarkup.Proofs.TrialBuilds
import TreeMarkup.Proofs.WorkingTrees
import TreeMarkup.Proofs.WrittenAtoms
import TreeMarkup.Proofs.WrittenKeys
import TreeMarkup.Proofs.WrittenSettings
import TreeMarkup.Proofs.WrittenTrees
import TreeMarkup.Render.Basic
import TreeMarkup.Render.Progress
import TreeMarkup.Settings.Basic
import TreeMarkup.Settings.Check
import TreeMarkup.Site.Build
import TreeMarkup.Site.Page
import TreeMarkup.Site.Plain
import TreeMarkup.Text.Basic
import TreeMarkup.Text.Digit
import TreeMarkup.Text.LowerCase
import TreeMarkup.Text.Quoted
import TreeMarkup.Value.Basic
import TreeMarkup.Value.Display
