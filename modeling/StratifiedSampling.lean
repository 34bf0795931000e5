import StratifiedSampling.Backend.Script
import StratifiedSampling.Example
import StratifiedSampling.Json.Sampling
import StratifiedSampling.Json.Tables
import StratifiedSampling.Sampling.ConfigFile
import StratifiedSampling.Session.Basic
import StratifiedSampling.Proofs.Runs
import StratifiedSampling.Proofs.StagingNames
import StratifiedSampling.Proofs.SamplerRuns
import StratifiedSampling.Proofs.BackendCalls
import StratifiedSampling.Proofs.RunCleanup
import StratifiedSampling.Proofs.Validation
import StratifiedSampling.Proofs.CatalogRuns
import StratifiedSampling.Proofs.CatalogAtomicity
import StratifiedSampling.Proofs.ValueEquality
import StratifiedSampling.Proofs.ColumnCells
import StratifiedSampling.Proofs.TableEntries
import StratifiedSampling.Proofs.RowGroups
import StratifiedSampling.Proofs.JoinRows
import StratifiedSampling.Proofs.NearestRank
import StratifiedSampling.Proofs.StagedTables
import StratifiedSampling.Proofs.StratumSelection
import StratifiedSampling.Proofs.SampleTables
import StratifiedSampling.Proofs.ColumnNames
import StratifiedSampling.Proofs.PipelineRuns
import StratifiedSampling.Proofs.SampleContents
import StratifiedSampling.Proofs.ColumnStorage
import StratifiedSampling.Proofs.IntactTables
import StratifiedSampling.Proofs.CatalogIntegrity
import StratifiedSampling.Proofs.StagingSequences
import StratifiedSampling.Proofs.AcceptedSamples
import StratifiedSampling.Proofs.DoubleRounding
import StratifiedSampling.Proofs.ProportionOrder
import StratifiedSampling.Proofs.NestedSamples
import StratifiedSampling.Proofs.SmallestLabels
import StratifiedSampling.Proofs.DerivedSamples
import StratifiedSampling.Proofs.SeedReplay
import StratifiedSampling.Proofs.RowPushes
import StratifiedSampling.Proofs.SessionCounters
import StratifiedSampling.Proofs.ValueOrder
import StratifiedSampling.Proofs.RowOrder
import StratifiedSampling.Proofs.TableCells
import StratifiedSampling.Proofs.GroupPartition
import StratifiedSampling.Proofs.GroupQuantiles
import StratifiedSampling.Proofs.FirstRows
import StratifiedSampling.Proofs.NestedLoopJoin
import StratifiedSampling.Proofs.GroupDraws
import StratifiedSampling.Proofs.ExactDoubles
import StratifiedSampling.Proofs.MixedOrder
import StratifiedSampling.Proofs.CountBounds
import StratifiedSampling.Proofs.SnapTolerance
import StratifiedSampling.Proofs.RowBatches
import StratifiedSampling.Proofs.CellMarks
import StratifiedSampling.Proofs.TableAlgebra
import StratifiedSampling.Proofs.RowForm
import StratifiedSampling.Proofs.DrawDiscrepancies
import StratifiedSampling.Proofs.SlowRuns
import StratifiedSampling.Proofs.RequestChecks
import StratifiedSampling.Proofs.OutputColumns
import StratifiedSampling.Proofs.ColumnLists
import StratifiedSampling.Proofs.EqualityAgreement
import StratifiedSampling.Proofs.PackedBits
import StratifiedSampling.Proofs.FreshNames
import StratifiedSampling.Proofs.NameLists
