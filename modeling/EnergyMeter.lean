import EnergyMeter.Timing.NominalPeriod
import EnergyMeter.Sampling.SlotSchedule
import EnergyMeter.Pipeline.Round
import EnergyMeter.Pipeline.Schedule
import EnergyMeter.Proofs.Events
import EnergyMeter.Proofs.Operations
import EnergyMeter.Proofs.Conservation
import EnergyMeter.Proofs.CycleArithmetic
import EnergyMeter.Proofs.BillingTotals
import EnergyMeter.Proofs.StoredPlan
import EnergyMeter.Proofs.StageHistory
import EnergyMeter.Proofs.ScheduleIndependence
import EnergyMeter.Proofs.LoadValues
import EnergyMeter.Proofs.OffsetMoves
import EnergyMeter.Proofs.TimerInStep
import EnergyMeter.Proofs.BillingIsolation
import EnergyMeter.Proofs.WindowContents
import EnergyMeter.Proofs.Rounds
import EnergyMeter.Proofs.Lockstep
import EnergyMeter.Proofs.LogRecords
import EnergyMeter.Proofs.PacedRounds
import EnergyMeter.Proofs.SlotHistory
import EnergyMeter.Proofs.CycleExactness
import EnergyMeter.Proofs.PublishedPower
import EnergyMeter.Proofs.InterruptPeriod
import EnergyMeter.Proofs.NewtonRoot
import EnergyMeter.Proofs.WindowSums
import EnergyMeter.Proofs.RunningRoot
import EnergyMeter.Proofs.CrossingLoop
import EnergyMeter.Proofs.RootAccuracy
import EnergyMeter.Proofs.ReadSegments
import EnergyMeter.Proofs.SteadyWave
import EnergyMeter.Proofs.WordRoots
import EnergyMeter.Proofs.TunedPeriods
import EnergyMeter.Proofs.StartChecks
import EnergyMeter.Proofs.EventRecords
import EnergyMeter.Proofs.RecordCounts
import EnergyMeter.Proofs.AuditTrail
