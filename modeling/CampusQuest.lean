import CampusQuest.Tables
import CampusQuest.Runs
import CampusQuest.Slots
import CampusQuest.Leases
import CampusQuest.Locking
import CampusQuest.Transactions
import CampusQuest.Sessions
import CampusQuest.Vocabulary
import CampusQuest.PointRows
import CampusQuest.PointStatements
import CampusQuest.PointErrors
import CampusQuest.Ledger
import CampusQuest.Redemptions
import CampusQuest.PointAdministration
import CampusQuest.PointService
import CampusQuest.WalletProjection
import CampusQuest.RewardOnce
import CampusQuest.Freezes
import CampusQuest.Stock
import CampusQuest.Guards
import CampusQuest.LifecycleRows
import CampusQuest.LifecycleErrors
import CampusQuest.Deadlines
import CampusQuest.Allocation
import CampusQuest.Uploads
import CampusQuest.Validation
import CampusQuest.RewardLock
import CampusQuest.Review
import CampusQuest.LifecycleSystem
import CampusQuest.Moves
import CampusQuest.ClaimInvariants
import CampusQuest.ObjectKeys
import CampusQuest.CleanupRepository
import CampusQuest.CleanupWorkers
import CampusQuest.CleanupSystem
import CampusQuest.CleanupFacts
import CampusQuest.CleanupFencing
import CampusQuest.OrphanIntents
import CampusQuest.CleanupExclusion
import CampusQuest.SingleFinalize
import CampusQuest.Occupancy
import CampusQuest.ValidationTwins
import CampusQuest.Redelivery
import CampusQuest.PayableReward
import CampusQuest.FirstLock
import CampusQuest.WedgedClaims
import CampusQuest.Epochs
import CampusQuest.DeliveryRows
import CampusQuest.DeliveryService
import CampusQuest.DeliverySystem
import CampusQuest.DeliveryFacts
import CampusQuest.DeliveryOwnership
import CampusQuest.DeliveryAttempts
import CampusQuest.ExpiryWindow
import CampusQuest.AdjustmentOnce
import CampusQuest.WallClock
import CampusQuest.BusinessDay
import CampusQuest.AbandonStatements
import CampusQuest.AbandonCap
import CampusQuest.BulkStatements
import CampusQuest.CrashPoints
import CampusQuest.IdentityRows
import CampusQuest.AdminKick
import CampusQuest.Generations
import CampusQuest.SessionService
import CampusQuest.SessionLineage
import CampusQuest.SessionLogout
import CampusQuest.StaffService
import CampusQuest.StaffInvitations
import CampusQuest.AccountGovernance
import CampusQuest.LastAdmin
import CampusQuest.TwoProcesses
import CampusQuest.EmailVerification
import CampusQuest.SessionRevocation
import CampusQuest.LoginCodes
import CampusQuest.SingleUseCodes
import CampusQuest.AttemptMeter
import CampusQuest.LoginAttempts
import CampusQuest.PhoneOtp
import CampusQuest.CredentialReset
import CampusQuest.SecondFactor
import CampusQuest.SecondFactorLockout
import CampusQuest.FailureCounters
import CampusQuest.StuckRecovery
import CampusQuest.ChangeLogs
import CampusQuest.Json
import CampusQuest.SystemSettings
import CampusQuest.SettingWrites
import CampusQuest.NetworkPolicy
import CampusQuest.ClaimQuota
import CampusQuest.SubmissionSchema
import CampusQuest.TaskRows
import CampusQuest.TaskService
import CampusQuest.CompletableTasks
import CampusQuest.Placeholders
import CampusQuest.NotificationTemplates
import CampusQuest.NotificationPort
import CampusQuest.AdminCopy
import CampusQuest.RankingRepository
import CampusQuest.HonorService
import CampusQuest.HonorGrants
import CampusQuest.HonorHealing
import CampusQuest.Calendar
import CampusQuest.RankingPeriods
import CampusQuest.RankingProjection
import CampusQuest.RankingJobs
import CampusQuest.ClaimWindow
import CampusQuest.RecoveryCodes
import CampusQuest.PhoneProofs
import CampusQuest.CommunityRows
import CampusQuest.ReportQueue
import CampusQuest.KeyedRows
import CampusQuest.CommunityVotes
import CampusQuest.Forests
import CampusQuest.CommentListing
import CampusQuest.CommentService
import CampusQuest.HardHide
import CampusQuest.Passages
import CampusQuest.ImportPreview
import CampusQuest.ImportConfirm
import CampusQuest.TaskLifecycle
import CampusQuest.ReportListing
import CampusQuest.Anonymity
import CampusQuest.ReviewRows
import CampusQuest.ReviewService
import CampusQuest.EvidenceService
import CampusQuest.ReviewLedger
import CampusQuest.ReviewSystem
import CampusQuest.ReviewWorkflow
import CampusQuest.ReviewerExclusivity
import CampusQuest.EvidenceFreeze
import CampusQuest.Receipts
import CampusQuest.RecruitmentService
import CampusQuest.RecruitmentSystem
import CampusQuest.RecruitmentLifecycle
import CampusQuest.RecruitmentVisibility
import CampusQuest.RecruitmentReminders
import CampusQuest.TalentService
import CampusQuest.TalentSystem
import CampusQuest.CommandReceipts
import CampusQuest.TalentFences
import CampusQuest.TalentReads
import CampusQuest.AccessToken
import CampusQuest.CookieOrder
import CampusQuest.ContextReset
import CampusQuest.LoginFences
import CampusQuest.PendingLogin
import CampusQuest.ProofConsumers
import CampusQuest.Handoff
import CampusQuest.RefreshProgress
import CampusQuest.RequestReplay
import CampusQuest.HandoffChannel
import CampusQuest.HandoffSecrecy
import CampusQuest.RowScan
import CampusQuest.XlsxScan
import CampusQuest.WorksheetBounds
import CampusQuest.CsvScan
import CampusQuest.ScanAgreement
import CampusQuest.Doubles
import CampusQuest.UniqueKeys
import CampusQuest.RefreshWave
import CampusQuest.OneRotation
import CampusQuest.WaveOutcome
import CampusQuest.CleanScan
import CampusQuest.SqliteScan
import CampusQuest.ZipPreflight
import CampusQuest.UploadReports
import CampusQuest.DayTiling
import CampusQuest.BusinessPeriods
import CampusQuest.CommentThreads
import CampusQuest.ZipRoles
import CampusQuest.Tallies
import CampusQuest.UniqueTracking
import CampusQuest.DataCache
import CampusQuest.ImportParsing
import CampusQuest.Trails
import CampusQuest.LockHistory
import CampusQuest.Reminders
import CampusQuest.ReminderRuns
import CampusQuest.Histories
import CampusQuest.UploadFlow
import CampusQuest.ExpiringCounters
import CampusQuest.RateLimits
import CampusQuest.Collaborators
import CampusQuest.OperatorRepair
import CampusQuest.RepairRuns
import CampusQuest.SortedSets
import CampusQuest.RankingReads
import CampusQuest.GrowthMonths
import CampusQuest.Groups
import CampusQuest.PublicListings
import CampusQuest.PublicProjects
import CampusQuest.TaskRatings
import CampusQuest.RememberedDevices
import CampusQuest.PointHistory
import CampusQuest.StandingFacts
import CampusQuest.QualifiedOwners
