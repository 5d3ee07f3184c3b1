import AppResources.Asset
import AppResources.Bag
import AppResources.Bag.Inherit
import AppResources.Bytes
import AppResources.Chunk
import AppResources.Chunk.Reader
import AppResources.Chunk.Walk
import AppResources.Command.Bag
import AppResources.Command.Config
import AppResources.Command.Dump
import AppResources.Command.FileTree
import AppResources.Command.Invocation
import AppResources.Command.Outcome
import AppResources.Command.Resolve
import AppResources.Config
import AppResources.Config.Axis
import AppResources.Config.Difference
import AppResources.Config.Matching
import AppResources.Config.Ranking
import AppResources.Config.Record
import AppResources.Config.Specificity
import AppResources.Decimal.Positional
import AppResources.Decimal.Shortest
import AppResources.Encoding.Chunk
import AppResources.Encoding.Document
import AppResources.Encoding.Idmap
import AppResources.Encoding.Package
import AppResources.Encoding.StringPool
import AppResources.Encoding.Table
import AppResources.Encoding.Variant
import AppResources.Json
import AppResources.LibraryTable
import AppResources.LoadError
import AppResources.Locale
import AppResources.Locale.RegionTree
import AppResources.Locale.Script
import AppResources.Locale.Subtag
import AppResources.Locale.Tag
import AppResources.Main
import AppResources.Manager
import AppResources.Overlay.Idmap
import AppResources.Qualifier.Parse
import AppResources.Qualifier.Print
import AppResources.Qualifier.Word
import AppResources.Report.Bag
import AppResources.Report.Package
import AppResources.Report.Value
import AppResources.ResourceId
import AppResources.ResourceId.Text
import AppResources.Resources
import AppResources.Resources.Group
import AppResources.Resources.Index
import AppResources.Resources.Name
import AppResources.Resources.Reference
import AppResources.Resources.Select
import AppResources.StringPool
import AppResources.StringPool.Lookup
import AppResources.Table
import AppResources.Table.Entry
import AppResources.Table.Library
import AppResources.Table.Package
import AppResources.Table.TypeSpec
import AppResources.Table.Variant
import AppResources.Text.Ascii
import AppResources.Text.Blank
import AppResources.Text.DecimalDigit
import AppResources.Text.Number
import AppResources.Text.Quoted
import AppResources.Text.SortedSet
import AppResources.Text.Unprintable
import AppResources.Text.Utf16
import AppResources.Text.Utf8
import AppResources.Theme
import AppResources.Theme.Attributes
import AppResources.Theme.Slots
import AppResources.Value
import AppResources.Value.Text
import AppResources.Xml
import AppResources.Xml.AttributeSet
import AppResources.Xml.Cursor
import AppResources.Xml.Node
import AppResources.Proofs.Preference
import AppResources.Proofs.PackedSubtag
import AppResources.Proofs.RegionOrder
import AppResources.Proofs.LocaleRanking
import AppResources.Proofs.ConfigRanking
import AppResources.Proofs.ConfigDifference
import AppResources.Proofs.Reconfiguration
import AppResources.Proofs.BagCache
import AppResources.Proofs.Selection
import AppResources.Proofs.BestVariant
import AppResources.Proofs.Origin
import AppResources.Proofs.Indifference
import AppResources.Proofs.ReportedAxes
import AppResources.Proofs.BagSession
import AppResources.Proofs.BagMerge
import AppResources.Proofs.BagOrder
import AppResources.Proofs.QualifierScript
import AppResources.Proofs.BagInvalidation
import AppResources.Proofs.RuntimeIds
import AppResources.Proofs.ExpressibleConfig
import AppResources.Proofs.QualifierToken
import AppResources.Proofs.QualifierRoundTrip
import AppResources.Proofs.SubtagWord
import AppResources.Proofs.LocaleWords
import AppResources.Proofs.PrintedTag
import AppResources.Proofs.TagRoundTrip
import AppResources.Proofs.CheckedRead
import AppResources.Proofs.RecordReads
import AppResources.Proofs.ChunkWalk
import AppResources.Proofs.LoadSafety
import AppResources.Proofs.FaultPolicy
import AppResources.Proofs.BytesInPlace
import AppResources.Proofs.WrittenChunks
import AppResources.Proofs.PoolRoundTrip
import AppResources.Proofs.WrittenRecords
import AppResources.Proofs.WrittenVariants
import AppResources.Proofs.NumberedLists
import AppResources.Proofs.WrittenTypes
import AppResources.Proofs.WrittenPackages
import AppResources.Proofs.TypeCalls
import AppResources.Proofs.PackageCalls
import AppResources.Proofs.TableRoundTrip
import AppResources.Proofs.DensityOverride
import AppResources.Proofs.BagInheritance
import AppResources.Proofs.ThemeStyles
import AppResources.Proofs.LoadedAssets
import AppResources.Proofs.LibraryReferences
import AppResources.Proofs.PackageIndex
import AppResources.Proofs.PoolIndex
import AppResources.Proofs.NameRoundTrip
import AppResources.Proofs.AttributeCascade
import AppResources.Proofs.AddedAssets
import AppResources.Proofs.AttributeProvenance
import AppResources.Proofs.BagFailure
import AppResources.Proofs.RenamedIds
import AppResources.Proofs.RenamedBags
import AppResources.Proofs.LibraryAssets
import AppResources.Proofs.AppAsLibrary
import AppResources.Proofs.PoolReads
import AppResources.Proofs.PoolSearch
import AppResources.Proofs.VariantLayouts
import AppResources.Proofs.RegionAncestors
import AppResources.Proofs.ExactMatch
import AppResources.Proofs.FilledScript
import AppResources.Proofs.ReferenceChain
import AppResources.Proofs.TagAlone
import AppResources.Proofs.AttributesInCode
import AppResources.Proofs.ThemeAxes
import AppResources.Proofs.AttributeChain
import AppResources.Proofs.DensityRanking
import AppResources.Proofs.SpecificityOrder
import AppResources.Proofs.ConfigOrder
import AppResources.Proofs.RecordSizes
import AppResources.Proofs.SubtagKinds
import AppResources.Proofs.TagVariants
import AppResources.Proofs.WordFields
import AppResources.Proofs.TagNormalForm
import AppResources.Proofs.WrittenMaps
import AppResources.Proofs.WrittenElements
import AppResources.Proofs.DocumentRoundTrip
import AppResources.Proofs.DeclaredTypes
import AppResources.Proofs.OverlaidTypes
import AppResources.Proofs.TypeNames
import AppResources.Proofs.NameParts
import AppResources.Proofs.PrintedIds
import AppResources.Proofs.AnyToken
