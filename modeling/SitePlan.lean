import SitePlan.Main
import SitePlan.Page.Memory
import SitePlan.Proofs.Nav.Acceptance
import SitePlan.Proofs.Nav.Mirror
import SitePlan.Proofs.Nav.PageTree
import SitePlan.Proofs.Nav.Generated
import SitePlan.Proofs.Environment.Replacement
import SitePlan.Proofs.Environment.Leftover
import SitePlan.Proofs.Nav.Grammar
import SitePlan.Proofs.Nav.Orphans
import SitePlan.Proofs.Nav.Repeats
import SitePlan.Proofs.Nav.Verdict
import SitePlan.Proofs.Files.Components
import SitePlan.Proofs.Page.Listing
import SitePlan.Proofs.Page.Confinement
import SitePlan.Proofs.Nav.Spelling
import SitePlan.Proofs.Config.Directories
import SitePlan.Proofs.Config.Rules
import SitePlan.Proofs.Config.Identifiers
import SitePlan.Proofs.Page.Replica
import SitePlan.Proofs.Nav.Redeclared
import SitePlan.Proofs.Nav.Agreement
import SitePlan.Proofs.Config.Highlighting
import SitePlan.Proofs.Config.Settings
import SitePlan.Proofs.Yaml.Equality
import SitePlan.Proofs.Config.Overrides
import SitePlan.Proofs.Yaml.Fields
import SitePlan.Proofs.Cli.Agreement
import SitePlan.Proofs.Environment.Dependence
import SitePlan.Proofs.Nav.SiblingTitles
import SitePlan.Proofs.Config.Printing
import SitePlan.Proofs.Cli.Printing
import SitePlan.Proofs.Config.KeyOrder
import SitePlan.Proofs.Nav.Occurrences
import SitePlan.Proofs.Nav.Arrangement
import SitePlan.Proofs.Environment.Refusals
import SitePlan.Proofs.Config.NamedEntries
import SitePlan.Proofs.Page.Address
import SitePlan.Proofs.Nav.Addresses
import SitePlan.Proofs.Yaml.Exchange
import SitePlan.Proofs.Theme.Shorthands
import SitePlan.Proofs.Json.Shape
import SitePlan.Proofs.Config.Rereading
import SitePlan.Proofs.Text.Blank
import SitePlan.Proofs.Page.FrontMatter
import SitePlan.Proofs.Page.Headings
import SitePlan.Proofs.Page.Titles
import SitePlan.Proofs.Nav.DerivedTitles
import SitePlan.Proofs.Nav.Outline
import SitePlan.Proofs.Page.Enumeration
import SitePlan.Proofs.Page.Closings
import SitePlan.Proofs.Text.LineEnds
import SitePlan.Proofs.Yaml.LineEnds.Cursor
import SitePlan.Proofs.Yaml.LineEnds.Scalar
import SitePlan.Proofs.Yaml.LineEnds.Block
import SitePlan.Proofs.Yaml.LineEnds.Tag
import SitePlan.Proofs.Yaml.LineEnds.Lexer
import SitePlan.Proofs.Page.LineEnds
import SitePlan.Proofs.Nav.TitlePaths
import SitePlan.Proofs.Files.Ascent
import SitePlan.Proofs.Config.Discovery
import SitePlan.Proofs.Config.DevelopmentAddress
import SitePlan.Proofs.Json.Unambiguous
import SitePlan.Proofs.Nav.JsonForm
import SitePlan.Proofs.Nav.SettledPaths
