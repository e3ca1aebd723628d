import FactoryMigration.Main
import FactoryMigration.Report.Pipeline
import FactoryMigration.Proofs.Strictness
import FactoryMigration.Proofs.LenientFailure
import FactoryMigration.Proofs.NotebookPaths
import FactoryMigration.Proofs.History
import FactoryMigration.Proofs.TaskOrder
import FactoryMigration.Proofs.ChildDependencies
import FactoryMigration.Proofs.CopyArtifacts
import FactoryMigration.Proofs.KeylessPreparation
import FactoryMigration.Proofs.SecretLookups
import FactoryMigration.Proofs.DocumentKeys
import FactoryMigration.Proofs.Recording
import FactoryMigration.Proofs.OutcomeEdges
import FactoryMigration.Proofs.ArtifactReferences
import FactoryMigration.Proofs.ConditionOperands
import FactoryMigration.Proofs.ItemNotations
import FactoryMigration.Proofs.DelimiterLiterals
import FactoryMigration.Proofs.CronExpressions
import FactoryMigration.Proofs.JobTasks
import FactoryMigration.Proofs.ScriptLiterals
import FactoryMigration.Proofs.ScriptModes
import FactoryMigration.Proofs.WellFormedCopies
import FactoryMigration.Proofs.IndentedText
import FactoryMigration.Proofs.ScriptArguments
import FactoryMigration.Proofs.NotebookArguments
import FactoryMigration.Proofs.ConditionLanguage
import FactoryMigration.Proofs.TrailingText
import FactoryMigration.Proofs.ClockLists
import FactoryMigration.Proofs.DroppedBranches
import FactoryMigration.Proofs.PolicyRequests
import FactoryMigration.Proofs.DatasetOutcomes
import FactoryMigration.Proofs.ColumnReports
import FactoryMigration.Proofs.NotebookBodies
import FactoryMigration.Proofs.LocationParts
import FactoryMigration.Proofs.SegmentOrder
import FactoryMigration.Proofs.TimeoutLanguage
import FactoryMigration.Proofs.DependencyEntries
import FactoryMigration.Proofs.PolicyFields
import FactoryMigration.Proofs.Recurrences
import FactoryMigration.Proofs.LoopParameters
import FactoryMigration.Proofs.ParameterDefaults
import FactoryMigration.Proofs.ClusterIndependence
import FactoryMigration.Proofs.ColumnSelection
import FactoryMigration.Proofs.FlattenedTrees
import FactoryMigration.Proofs.QuotedLiterals
import FactoryMigration.Proofs.LiteralLists
import FactoryMigration.Proofs.ScriptNames
import FactoryMigration.Proofs.SecretKeys
