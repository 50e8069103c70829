import CallChart.Main
import CallChart.Request
import CallChart.Proofs.Searches
import CallChart.Proofs.Cycles
import CallChart.Proofs.Survivors
import CallChart.Proofs.Connection
import CallChart.Proofs.Acceptance
import CallChart.Proofs.Reading
import CallChart.Proofs.RoundTrip
import CallChart.Proofs.Histories
import CallChart.Proofs.Rearrangement
import CallChart.Proofs.Unreachable
import CallChart.Proofs.Serving
import CallChart.Proofs.Discovery
import CallChart.Proofs.Duplication
import CallChart.Proofs.Places
import CallChart.Proofs.Batches
import CallChart.Proofs.Numbering
import CallChart.Proofs.Directions
import CallChart.Proofs.TreeTelling
import CallChart.Proofs.Nesting
import CallChart.Proofs.CallerLists
import CallChart.Proofs.ChartLines
