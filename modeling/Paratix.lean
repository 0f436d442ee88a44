import Paratix.Foundation.Columns
import Paratix.Foundation.ReplaceAll
import Paratix.Foundation.ReplaceCut
import Paratix.Masking.Secrets
import Paratix.Masking.StreamMasker
import Paratix.Archive.Member
import Paratix.Archive.SymlinkResolverSound
import Paratix.Archive.SymlinkResolverComplete
import Paratix.Archive.LinkValidation
import Paratix.Archive.Containment
import Paratix.Foundation.Separator
import Paratix.Archive.TarRendering
import Paratix.Foundation.Utf8
import Paratix.Archive.TarListingExact
import Paratix.Foundation.Run
import Paratix.Lock.MutexLock
import Paratix.Lock.Heartbeat
import Paratix.Foundation.Sieve
import Paratix.Masking.TerminalSanitizer
import Paratix.Masking.DiagnosticSecrets
import Paratix.Foundation.Tally
import Paratix.Masking.SecretSink
import Paratix.Foundation.Effect
import Paratix.Orchestration.Environment
import Paratix.Orchestration.Runner
import Paratix.Orchestration.DryRunAggregation
import Paratix.Orchestration.Rows
import Paratix.Orchestration.GuardMemo
import Paratix.Foundation.Memo
import Paratix.Orchestration.Discipline
import Paratix.Orchestration.Delivery
import Paratix.Orchestration.Resolution
import Paratix.Orchestration.ResolvedOnce
import Paratix.Foundation.LinePattern
import Paratix.Firewall.Lockout
import Paratix.Foundation.Lines
import Paratix.Foundation.Base64
import Paratix.Foundation.Words
import Paratix.Keys.PublicKey
import Paratix.Keys.AuthorizedKeys
import Paratix.Keys.KeepsKeys
import Paratix.Keys.KnownHostsLines
import Paratix.Keys.VerifierSound
import Paratix.Keys.AppendHostKey
import Paratix.Keys.RsyncTrustSound
import Paratix.Keys.ReconnectBinding
import Paratix.Upgrade.DebianUpgrade
import Paratix.Upgrade.SourcesKept
import Paratix.Foundation.Remote
import Paratix.Sshd.Config
import Paratix.Sshd.ConfigLive
import Paratix.Sshd.Port
import Paratix.Sshd.PortUndone
import Paratix.Sshd.CertificateFilesSound
import Paratix.Sshd.TrustPhases
import Paratix.Sshd.TrustKept
import Paratix.Foundation.Chain
import Paratix.Masking.Output
import Paratix.Masking.OutputControlled
import Paratix.Keys.HostPatternsExact
import Paratix.Foundation.Octets
import Paratix.Totp.TotpExact
import Paratix.Orchestration.ModuleFilter
import Paratix.Dotenv.DotEnvironment
import Paratix.Keys.RevokedCertificate
import Paratix.Foundation.Result
import Paratix.Template.Template
import Paratix.Template.SinglePass
import Paratix.Template.ModifiersClosed
import Paratix.Template.Base64Exact
import Paratix.Foundation.Semaphore
import Paratix.Transport.SessionChannels
import Paratix.Foundation.EditScript
import Paratix.Diff.UnifiedDiff
import Paratix.Diff.UnifiedDiffExact
import Paratix.Foundation.Settings
import Paratix.Mount.FstabExact
import Paratix.Mount.BindRemount
import Paratix.Foundation.LineEdit
import Paratix.Foundation.DirectlyBelow
import Paratix.Cron.CronConverges
import Paratix.Cron.CronFrame
import Paratix.Cron.CronRestores
import Paratix.Firewall.UfwRuleAgreement
import Paratix.Keys.KeyLineExact
import Paratix.Foundation.Cursor
import Paratix.HostCertificate.Faithful
import Paratix.Network.HostsLines
import Paratix.Network.HostsExact
import Paratix.Foundation.UnitFile
import Paratix.Timer.TimerUnitsRead
import Paratix.Foundation.Json
import Paratix.Archive.ContainmentFailSafe
import Paratix.Upgrade.SuitePatterns
import Paratix.Upgrade.AptReading
import Paratix.Upgrade.SuitesReplaced
import Paratix.Keys.AdminKeyExact
import Paratix.Keys.HostKeyBlobExact
import Paratix.Quadlet.ContainerSettings
import Paratix.Quadlet.ContainerRead
import Paratix.Files.BlockSets
import Paratix.Foundation.MarkedBlock
import Paratix.Files.Metadata
import Paratix.Files.LineConverges
import Paratix.Files.ReplaceIdempotent
import Paratix.Foundation.CutText
import Paratix.Swap.AbsentUndone
import Paratix.Foundation.Records
import Paratix.Keys.KnownHostsCaRecords
import Paratix.Keys.KnownHostsCaExact
import Paratix.Sysctl.SetUndone
import Paratix.Foundation.FileModes
import Paratix.Compose.Checks
import Paratix.Compose.SystemdUndone
import Paratix.Timer.AbsentUndone
