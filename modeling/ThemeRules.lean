import ThemeRules.Naming
import ThemeRules.Token.Table
import ThemeRules.Theme.Collection
import ThemeRules.Style.Component
import ThemeRules.Config
import ThemeRules.Source.Resolve
import ThemeRules.Host
import ThemeRules.CommandLine.Run
import ThemeRules.Main
import ThemeRules.Proofs.Layering
import ThemeRules.Proofs.Rules
import ThemeRules.Proofs.Escaping
import ThemeRules.Proofs.Loading
import ThemeRules.Proofs.Resolution
import ThemeRules.Proofs.FilePaths
import ThemeRules.Proofs.FileTree
import ThemeRules.Proofs.GlobParsing
import ThemeRules.Proofs.GlobMatching
import ThemeRules.Proofs.Expansion
import ThemeRules.Proofs.ListingOrder
import ThemeRules.Proofs.Anchoring
import ThemeRules.Proofs.SamePath
import ThemeRules.Proofs.CommandLinePatterns
import ThemeRules.Proofs.LastWord
import ThemeRules.Proofs.UnknownProperties
import ThemeRules.Proofs.TokenPaths
import ThemeRules.Proofs.TokenSections
import ThemeRules.Proofs.HostHistory
import ThemeRules.Proofs.Locations
import ThemeRules.Proofs.LoadOrder
import ThemeRules.Proofs.MapHistory
import ThemeRules.Proofs.PresetLookup
import ThemeRules.Proofs.Documents
import ThemeRules.Proofs.PresetDocuments
import ThemeRules.Proofs.ConfigDocuments
import ThemeRules.Proofs.Placement
import ThemeRules.Proofs.Relocation
import ThemeRules.Proofs.Counterparts
import ThemeRules.Proofs.ThemeDocuments
import ThemeRules.Proofs.WordBoundaries
import ThemeRules.Proofs.LowerCasing
import ThemeRules.Proofs.KebabNames
import ThemeRules.Proofs.LabelSpellings
import ThemeRules.Proofs.DeclaredStyles
import ThemeRules.Proofs.JoinedNames
import ThemeRules.Proofs.OwnRules
import ThemeRules.Proofs.PhysicalSides
import ThemeRules.Proofs.TokenValues
import ThemeRules.Proofs.LayerLaws
import ThemeRules.Proofs.Selection
import ThemeRules.Proofs.PresetDirectories
import ThemeRules.Proofs.WrittenMaps
import ThemeRules.Proofs.StyleValues
import ThemeRules.Proofs.PresetArguments
