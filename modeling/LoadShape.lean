import LoadShape.Proofs.Pacing.ConstantPhase
import LoadShape.Proofs.Pacing.ConstantRun
import LoadShape.Proofs.Pacing.EarlyHits
import LoadShape.Proofs.Pacing.RampRange
import LoadShape.Proofs.Pacing.ScheduleRange
import LoadShape.Proofs.Pacing.HeldCap
import LoadShape.Proofs.Pacing.HitsIntegral
import LoadShape.Proofs.Pacing.KeptPlan
import LoadShape.Proofs.Schedule.DocumentEdits
import LoadShape.Proofs.Schedule.LineAsSteps
import LoadShape.Proofs.Schedule.WrittenProfile
import LoadShape.Proofs.Workers.BackPressure
import LoadShape.Proofs.Workers.CountOverflow
import LoadShape.Proofs.Workers.SlowConsumer
import LoadShape.Proofs.Workers.StreamHistory
import LoadShape.Proofs.Workers.WorkerCount
import LoadShape.Proofs.Pacing.CrossingSearch
import LoadShape.Proofs.Time.WaitEnd
import LoadShape.Time.RunClock
import LoadShape.Workers.TickerCall
import LoadShape.Proofs.Pacing.FirstPeriod
import LoadShape.Proofs.Schedule.Acceptance
import LoadShape.Proofs.Pacing.ReachedRate
import LoadShape.Number.Checked
import LoadShape.Pacing.CheckedPacer
import LoadShape.Proofs.Number.RoundedRange
import LoadShape.Proofs.Pacing.NoOverflow
