import BasRelief.Main
import BasRelief.Job.Queue
import BasRelief.Toolpath.Codec
import BasRelief.Proofs.Toolpath.Bracket
import BasRelief.Proofs.Toolpath.Clearance
import BasRelief.Proofs.Toolpath.Envelope
import BasRelief.Proofs.Toolpath.PassCuts
import BasRelief.Proofs.Toolpath.PositiveWords
import BasRelief.Proofs.Toolpath.DistinctCells
import BasRelief.Proofs.Gcode.ProgramReplay
import BasRelief.Proofs.Job.GenerateAnalyze
import BasRelief.Proofs.Job.DiskEffects
import BasRelief.Proofs.Analysis.Silence
import BasRelief.Proofs.Analysis.Concatenation
import BasRelief.Proofs.Analysis.Consistency
import BasRelief.Proofs.Config.Agreement
import BasRelief.Proofs.Config.SaveLoad
import BasRelief.Proofs.Job.Schedule
import BasRelief.Proofs.Job.Service
import BasRelief.Proofs.Job.Commutation
import BasRelief.Proofs.Number.Overflow
import BasRelief.Proofs.Analysis.SeriesRange
import BasRelief.Proofs.Analysis.FiniteReport
import BasRelief.Proofs.Analysis.ModerateWords
import BasRelief.Proofs.Document.Json.ReadableDoubles
import BasRelief.Proofs.Analysis.ReportDocument
import BasRelief.Proofs.Analysis.ProgramSize
import BasRelief.Proofs.Analysis.PrintedReport
import BasRelief.Proofs.Pipeline.History
import BasRelief.Proofs.Config.FailedSave
import BasRelief.Proofs.Field.GridSides
import BasRelief.Proofs.Field.Cells
import BasRelief.Proofs.Pipeline.Admission
import BasRelief.Proofs.Toolpath.PassRuns
import BasRelief.Proofs.Toolpath.ListedPasses
import BasRelief.Proofs.Gcode.WordGrammar
import BasRelief.Proofs.Analysis.LetterCase
import BasRelief.Proofs.Gcode.LineParts
import BasRelief.Proofs.Machine.TokenRuns
import BasRelief.Proofs.Analysis.TrajectoryLimit
import BasRelief.Proofs.Analysis.RecordedSeries
import BasRelief.Proofs.Analysis.TopWords
import BasRelief.Proofs.Field.MaskRows
import BasRelief.Proofs.Field.GridRange
import BasRelief.Proofs.Field.CellAccess
import BasRelief.Proofs.Field.SideResolution
import BasRelief.Proofs.Field.PixelCells
import BasRelief.Proofs.Field.NearestColor
import BasRelief.Proofs.Gcode.StepLines
import BasRelief.Proofs.Config.Loading
import BasRelief.Proofs.Config.LevelWords
import BasRelief.Proofs.Field.Contrast
