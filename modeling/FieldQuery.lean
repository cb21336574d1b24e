import FieldQuery.Main
import FieldQuery.Sample.Tree
import FieldQuery.Value.Conversion
import FieldQuery.Proofs.Query.OnePass
import FieldQuery.Proofs.Fallible
import FieldQuery.Proofs.Query.BlockAgreement
import FieldQuery.Proofs.Query.LevelEntries
import FieldQuery.Proofs.DepthLimit
import FieldQuery.Proofs.Query.OnePassAgreement
import FieldQuery.Proofs.Text.CharacterClasses
import FieldQuery.Proofs.Text.DecimalReading
import FieldQuery.Proofs.Entries
import FieldQuery.Proofs.Query.Canonical
import FieldQuery.Proofs.Query.ArgumentListReading
import FieldQuery.Proofs.Query.CanonicalReading
import FieldQuery.Proofs.Query.WellFormedness
import FieldQuery.Proofs.Query.CanonicalRoundTrip
import FieldQuery.Proofs.Execution.Outcome
import FieldQuery.Proofs.Execution.Repetition
import FieldQuery.Proofs.Execution.Shape
import FieldQuery.Proofs.Execution.Equations
import FieldQuery.Proofs.Execution.Filtering
import FieldQuery.Proofs.DataGraph.Observation
import FieldQuery.Proofs.Execution.Watching
import FieldQuery.Proofs.Execution.DepthFilter
import FieldQuery.Proofs.Query.Nesting
import FieldQuery.Proofs.Query.BlockOpenings
import FieldQuery.Proofs.Execution.DepthAgreement
import FieldQuery.Proofs.Query.StoppedReading
import FieldQuery.Proofs.Query.ErrorPlaces
import FieldQuery.Proofs.Query.ErrorPositions
import FieldQuery.Proofs.Query.ParseDepthFilter
import FieldQuery.Proofs.Execution.Carrying
import FieldQuery.Proofs.Execution.SharedPath
import FieldQuery.Proofs.Execution.Entries
import FieldQuery.Proofs.Execution.HookedGraphs
import FieldQuery.Proofs.Execution.Addresses
import FieldQuery.Proofs.Execution.CallOrder
import FieldQuery.Proofs.Execution.CallRecord
import FieldQuery.Proofs.Execution.Normalization
import FieldQuery.Proofs.Interchange.RoundTrip
import FieldQuery.Proofs.Execution.FailurePlaces
import FieldQuery.Proofs.Query.PlacelessReading
import FieldQuery.Proofs.Query.Spacing
import FieldQuery.Proofs.Query.LayoutChanges
import FieldQuery.Proofs.Interchange.DocumentedForm
import FieldQuery.Proofs.Execution.DepthMeasure
import FieldQuery.Proofs.Films.Details
import FieldQuery.Proofs.Films.Fields
import FieldQuery.Proofs.Films.PartNumbers
import FieldQuery.Proofs.Films.Refreshing
import FieldQuery.Proofs.Films.SeededFilms
import FieldQuery.Proofs.Query.NamelessBraces
import FieldQuery.Proofs.Execution.Reordering
import FieldQuery.Proofs.Query.BlockBalance
import FieldQuery.Proofs.Interchange.FirstOffence
import FieldQuery.Proofs.Interchange.SharedPath
import FieldQuery.Proofs.Query.ArgumentGrammar
import FieldQuery.Proofs.Query.ArgumentLanguage
import FieldQuery.Proofs.Execution.Sequencing
import FieldQuery.Proofs.DataGraph.Projection
import FieldQuery.Proofs.Execution.PlainGraphs
import FieldQuery.Proofs.Query.Concatenation
import FieldQuery.Proofs.Query.Enclosing
import FieldQuery.Proofs.Query.NameRuns
import FieldQuery.Proofs.Query.Mentions
import FieldQuery.Proofs.Execution.Determined
import FieldQuery.Proofs.Films.SecondExecution
import FieldQuery.Proofs.Films.RequestOrder
import FieldQuery.Proofs.Films.PartRequests
import FieldQuery.Proofs.Films.CheckedSums
import FieldQuery.Proofs.Query.Words
import FieldQuery.Proofs.Query.BareValues
import FieldQuery.Proofs.Numeric.LargeIntegers
import FieldQuery.Proofs.Value.Induction
import FieldQuery.Proofs.Value.Conversion
import FieldQuery.Proofs.Text.ByteOrder
import FieldQuery.Proofs.Value.Writing
import FieldQuery.Proofs.DataGraph.TableCalls
import FieldQuery.Proofs.Execution.TableGraphs
import FieldQuery.Proofs.Query.ArgumentRegisters
import FieldQuery.Proofs.Query.RegisterReading
