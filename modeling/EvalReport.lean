import EvalReport.Config.File
import EvalReport.Proofs.Bounds
import EvalReport.Proofs.ReporterRun
import EvalReport.Report.Codec
import EvalReport.Startup
import EvalReport.Proofs.Alignment
import EvalReport.Proofs.Slices
import EvalReport.Proofs.Batching
import EvalReport.Proofs.MemoryMode
import EvalReport.Proofs.ScoreOrder
import EvalReport.Proofs.Runs
import EvalReport.Proofs.OrderFree
import EvalReport.Proofs.Exact
import EvalReport.Proofs.PairCount
import EvalReport.Proofs.Cuts
import EvalReport.Proofs.AveragePrecision
import EvalReport.Proofs.OperatingPoint
import EvalReport.Proofs.Tally
import EvalReport.Proofs.Conservation
import EvalReport.Proofs.Availability
import EvalReport.Proofs.ContextColumns
import EvalReport.Proofs.PassEnd
import EvalReport.Proofs.Acceptance
import EvalReport.Proofs.Candidates
import EvalReport.Proofs.Doubles
import EvalReport.Proofs.PairedRuns
import EvalReport.Proofs.PredictionTable
import EvalReport.Proofs.WiderCandidates
import EvalReport.Proofs.TopOne
import EvalReport.Proofs.Independence
import EvalReport.Proofs.Ties
import EvalReport.Proofs.Projections
import EvalReport.Proofs.LabelSets
import EvalReport.Proofs.CandidateOrder
import EvalReport.Proofs.TiedCandidates
import EvalReport.Proofs.ScoreWidths
import EvalReport.Proofs.BinaryTable
import EvalReport.Proofs.RawRows
import EvalReport.Proofs.Construction
import EvalReport.Proofs.Numerals
import EvalReport.Proofs.Perfection
import EvalReport.Proofs.JsonText
import EvalReport.Proofs.SettingsFile
import EvalReport.Proofs.TrackerScores
import EvalReport.Proofs.Positions
import EvalReport.Proofs.RunEnds
import EvalReport.Proofs.TieRuns
import EvalReport.Proofs.ContextTensors
