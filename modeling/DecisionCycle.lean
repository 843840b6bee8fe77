import DecisionCycle.Cycle.Run
import DecisionCycle.Main
import DecisionCycle.Proofs.Timestamp.RoundTrip
import DecisionCycle.Proofs.Summary.RoundTrip
import DecisionCycle.Proofs.Cycle.Step
import DecisionCycle.Proofs.Cycle.Stored
import DecisionCycle.Proofs.Cycle.Reachable
import DecisionCycle.Proofs.Cycle.Frame
import DecisionCycle.Proofs.Cycle.Frontier
import DecisionCycle.Proofs.Matrix.Dominance
import DecisionCycle.Proofs.Matrix.Tension
import DecisionCycle.Proofs.Cycle.Reload
import DecisionCycle.Proofs.Cycle.LastRecord
import DecisionCycle.Proofs.Matrix.Score
import DecisionCycle.Proofs.Matrix.Entry
import DecisionCycle.Proofs.Matrix.Trail
import DecisionCycle.Proofs.Report.Consequences
import DecisionCycle.Proofs.Cycle.Restore
import DecisionCycle.Proofs.Matrix.Undominated
import DecisionCycle.Proofs.Matrix.Ranking
import DecisionCycle.Proofs.Matrix.Relevant
import DecisionCycle.Proofs.Matrix.Raised
import DecisionCycle.Proofs.Matrix.Reordered
import DecisionCycle.Proofs.Matrix.Alike
import DecisionCycle.Proofs.Report.Visible
import DecisionCycle.Proofs.Matrix.Joined
import DecisionCycle.Proofs.Matrix.Builder
import DecisionCycle.Proofs.Rating
import DecisionCycle.Proofs.Matrix.Told
import DecisionCycle.Proofs.Matrix.Refusal
import DecisionCycle.Proofs.Report.Quality
import DecisionCycle.Proofs.Report.Reread
import DecisionCycle.Proofs.Cycle.AuditTrail
import DecisionCycle.Proofs.Settings.Cache
import DecisionCycle.Proofs.Settings.Fallback
import DecisionCycle.Proofs.CommandLine.Exit
import DecisionCycle.Proofs.Matrix.Outdone
import DecisionCycle.Proofs.Matrix.Extremes
import DecisionCycle.Proofs.Cycle.Acceptance
import DecisionCycle.Proofs.Text.Trim
import DecisionCycle.Proofs.Summary.Spelling
import DecisionCycle.Proofs.Number.Text
import DecisionCycle.Proofs.Phase.Names
import DecisionCycle.Proofs.Phase.Recognized
import DecisionCycle.Proofs.Text.Numeral
import DecisionCycle.Proofs.Number.Value
import DecisionCycle.Proofs.Rating.Reading
import DecisionCycle.Proofs.Matrix.Flattened
import DecisionCycle.Proofs.Matrix.Best
import DecisionCycle.Proofs.FirstLeast
import DecisionCycle.Proofs.Tension
import DecisionCycle.Proofs.Quality.Combined
import DecisionCycle.Proofs.Quality.Clamped
