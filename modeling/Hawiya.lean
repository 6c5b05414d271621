import Hawiya.MrzRoundTrip
import Hawiya.ArabicNames
import Hawiya.Lib.Interaction
import Hawiya.Lib.Pool
import Hawiya.Models
import Hawiya.Tables
import Hawiya.Database
import Hawiya.DatabaseInvariants
import Hawiya.DocumentClassifier
import Hawiya.Repositories
import Hawiya.Services
import Hawiya.Transactions
import Hawiya.Matching
import Hawiya.ServiceSpecs
import Hawiya.ExtractionLink
import Hawiya.Api
import Hawiya.CommittedCalls
import Hawiya.Requests
import Hawiya.RegistryRuns
import Hawiya.RegisteredPassport
import Hawiya.CreateGuard
import Hawiya.Lib.RelyGuarantee
import Hawiya.ConcurrentSessions
import Hawiya.ConcurrentResolve
import Hawiya.Asgi
import Hawiya.Idempotency
import Hawiya.Lib.ExpiringMap
import Hawiya.Server
import Hawiya.IdempotencyRuns
import Hawiya.IdempotencyMap
import Hawiya.Traffic
import Hawiya.Provenance
import Hawiya.SingleFlight
import Hawiya.RateLimit
import Hawiya.Tenancy
import Hawiya.Unauthenticated
import Hawiya.Lib.TokenBucket
import Hawiya.RateWindow
import Hawiya.Lib.CheckDigit
import Hawiya.MrzChecks
import Hawiya.MrzContract
import Hawiya.MrzCorruption
import Hawiya.MrzRepair
import Hawiya.OcrText
import Hawiya.FieldCleaning
import Hawiya.BodyBuffering
import Hawiya.ExtractionAudit
import Hawiya.Lib.TwoRuns
import Hawiya.TenantView
import Hawiya.TenantCoupling
import Hawiya.TenantServices
import Hawiya.TenantIsolation
import Hawiya.ReportedPersons
import Hawiya.Application
import Hawiya.Acknowledgement
import Hawiya.CommittedAnswers
import Hawiya.RetryAfter
import Hawiya.RateIsolation
import Hawiya.LimiterAnswers
import Hawiya.BirthDates
import Hawiya.Lib.Observations
import Hawiya.DecisionRecords
import Hawiya.LatinPrefixes
import Hawiya.PhoneticKeys
import Hawiya.ColumnLengths
import Hawiya.Lib.Json
import Hawiya.ConflictAnswers
import Hawiya.Lib.Regex
import Hawiya.Lib.Masking
import Hawiya.Pii
import Hawiya.PiiPatterns
import Hawiya.RedactedValues
import Hawiya.RedactedMatches
import Hawiya.Lib.Composition
import Hawiya.CanonicalNames
import Hawiya.Lib.Knowledge
import Hawiya.Lib.Ranking
import Hawiya.PersonSearch
import Hawiya.RowSecurity
import Hawiya.ApiCalls
import Hawiya.Cohesion
import Hawiya.SessionAccounts
import Hawiya.SessionInvariants
import Hawiya.SessionCalls
import Hawiya.SessionAnswers
import Hawiya.Lib.Simulation
import Hawiya.TenantErasure
import Hawiya.Policies
import Hawiya.PlainSessions
import Hawiya.SearchRuns
import Hawiya.PassportPhotos
import Hawiya.PassportRecords
import Hawiya.GuardedCalls
import Hawiya.Lib.Progress
import Hawiya.LockOrder
import Hawiya.OrderedCalls
import Hawiya.Progress
