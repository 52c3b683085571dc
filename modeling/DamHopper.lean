import DamHopper.Pty.Scrollback
import DamHopper.Pty.ReplayGate
import DamHopper.Pty.ShellTrust
import DamHopper.Pty.ShellChunking
import DamHopper.Pty.FleetMembership
import DamHopper.PortForward.Ansi
import DamHopper.AgentStatus.Blockers
import DamHopper.AgentStatus.Fences
import DamHopper.AgentStatus.Discipline
import DamHopper.AgentStatus.ReporterRuns
import DamHopper.Os.Lossless
import DamHopper.Os.LaunchSafety
import DamHopper.Os.DockOps
import DamHopper.System.Incidents
import DamHopper.System.ResourceIncidents
import DamHopper.System.ResourceTargets
import DamHopper.IdleSuspend.PresenceStatus
import DamHopper.IdleSuspend.HandoffEvidence
import DamHopper.Api.TransferIntegrity
import DamHopper.Fs.MediaAuthority
import DamHopper.Fs.ReplaceAll
import DamHopper.Git.SquashExact
import DamHopper.Git.ConflictSnapshot
import DamHopper.Git.ConflictSummary
import DamHopper.Git.ConflictResult
import DamHopper.SessionChanges.Accounting
import DamHopper.SessionChanges.FirstTouch
import DamHopper.SessionChanges.FilePages
import DamHopper.SessionChanges.SettledTurns
import DamHopper.Workflow.EventPages
import DamHopper.Workflow.Hierarchy
import DamHopper.LinuxRelease.Backups
import DamHopper.LinuxRelease.Retention
