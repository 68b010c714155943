import ClassSchema.Main
import ClassSchema.Proofs.Acceptance
import ClassSchema.Proofs.Agreement
import ClassSchema.Proofs.Artifacts
import ClassSchema.Proofs.BlockNodes
import ClassSchema.Proofs.BlockQuoting
import ClassSchema.Proofs.BlockRoundTrip
import ClassSchema.Proofs.BlockScalars
import ClassSchema.Proofs.BlockTokens
import ClassSchema.Proofs.CheckedTexts
import ClassSchema.Proofs.ClosedReferences
import ClassSchema.Proofs.CoercionModes
import ClassSchema.Proofs.Conformance
import ClassSchema.Proofs.Conversion
import ClassSchema.Proofs.Covering
import ClassSchema.Proofs.Dates
import ClassSchema.Proofs.DecimalNotation
import ClassSchema.Proofs.DecimalRoundTrip
import ClassSchema.Proofs.DecimalText
import ClassSchema.Proofs.DeclaredAttributes
import ClassSchema.Proofs.Digits
import ClassSchema.Proofs.DocumentNames
import ClassSchema.Proofs.DotGraphs
import ClassSchema.Proofs.FaultReports
import ClassSchema.Proofs.FieldTables
import ClassSchema.Proofs.Fingerprints
import ClassSchema.Proofs.GraphLayouts
import ClassSchema.Proofs.ImportFrame
import ClassSchema.Proofs.ImportOrder
import ClassSchema.Proofs.ImportUnion
import ClassSchema.Proofs.InducedAttributes
import ClassSchema.Proofs.Inheritance
import ClassSchema.Proofs.IntegerNotation
import ClassSchema.Proofs.JsonNumbers
import ClassSchema.Proofs.JsonRoundTrip
import ClassSchema.Proofs.JsonText
import ClassSchema.Proofs.NumberLiterals
import ClassSchema.Proofs.ParentChains
import ClassSchema.Proofs.Rearrangements
import ClassSchema.Proofs.Reconstruction
import ClassSchema.Proofs.ReferencePaths
import ClassSchema.Proofs.References
import ClassSchema.Proofs.ResolutionCalls
import ClassSchema.Proofs.ResolutionRuns
import ClassSchema.Proofs.ResolvedImports
import ClassSchema.Proofs.ScalarVerdicts
import ClassSchema.Proofs.SourceEntries
import ClassSchema.Proofs.StructLines
import ClassSchema.Proofs.StructNames
import ClassSchema.Proofs.StructSizes
import ClassSchema.Proofs.Tables
import ClassSchema.Proofs.TokenSteps
import ClassSchema.Proofs.TurtleGraphs
import ClassSchema.Proofs.TypeKinds
import ClassSchema.Proofs.TypeRegistries
import ClassSchema.Proofs.TypedInstances
import ClassSchema.Proofs.WellFormedness
import ClassSchema.Settings.Text
