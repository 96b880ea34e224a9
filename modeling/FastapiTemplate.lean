import FastapiTemplate.SessionRevocation
import FastapiTemplate.SessionAtomicity
import FastapiTemplate.SchedulableTasks
import FastapiTemplate.ExactSignatures
import FastapiTemplate.StalePrivileges
import FastapiTemplate.PasswordChange
import FastapiTemplate.ImpersonationSudo
import FastapiTemplate.SecondFactorGate
import FastapiTemplate.TwoFactorChanges
import FastapiTemplate.RefreshReplay
import FastapiTemplate.BackupCodeRaces
import FastapiTemplate.TotpReplay
import FastapiTemplate.SingleUse
import FastapiTemplate.Deactivation
import FastapiTemplate.AdminSessions
import FastapiTemplate.HandledOnce
import FastapiTemplate.IdempotentIsolation
import FastapiTemplate.IdempotentReplay
import FastapiTemplate.WriteRouting
import FastapiTemplate.AuditTrail
import FastapiTemplate.WriteRetries
import FastapiTemplate.EventDelivery
import FastapiTemplate.EventDispatch
import FastapiTemplate.DeadLetterSelection
import FastapiTemplate.BeatRuns
import FastapiTemplate.SchedulePropagation
import FastapiTemplate.MigrationChanges
import FastapiTemplate.VersionCache
import FastapiTemplate.MfaPolicy
import FastapiTemplate.ApiKeyAcceptance
import FastapiTemplate.ApiKeyRevocation
import FastapiTemplate.WebSocketSubscriptions
import FastapiTemplate.CacheTransparency
import FastapiTemplate.MultiStatementWrites
import FastapiTemplate.SpecificMigrations
import FastapiTemplate.ConcurrentMigrations
import FastapiTemplate.AuditRollback
import FastapiTemplate.ReadPoolLabels
import FastapiTemplate.HealthChecks
import FastapiTemplate.MigrationRecords
import FastapiTemplate.SudoTokens
import FastapiTemplate.OauthLinking
import FastapiTemplate.CursorPagination
import FastapiTemplate.InboundLogging
import FastapiTemplate.WebhookUrls
import FastapiTemplate.WebhookFanOut
import FastapiTemplate.BackupCodeSequences
import FastapiTemplate.RoleAdminForm
import FastapiTemplate.GeneratedUsernames
import FastapiTemplate.LocaleFiles
import FastapiTemplate.WebSocketBroadcast
import FastapiTemplate.WebhookHeaderForms
import FastapiTemplate.DeadLetterCounts
import FastapiTemplate.WebhookLogPages
import FastapiTemplate.AuditLogFilters
import FastapiTemplate.PushBroadcast
import FastapiTemplate.RegionMiddleware
import FastapiTemplate.SafeSerialization
import FastapiTemplate.NotificationStreams
import FastapiTemplate.DeviceRegistry
import FastapiTemplate.DeadLetterExport
import FastapiTemplate.DeadLetterStatistics
import FastapiTemplate.RemovedAccounts
import FastapiTemplate.DefaultAdmin
import FastapiTemplate.RetriggerRequests
import FastapiTemplate.PasswordHistory
import FastapiTemplate.RedisKeySpace
import FastapiTemplate.VersionChecks
