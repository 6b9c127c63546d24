import LanguageGuru.Backend.AccountStore
import LanguageGuru.Backend.Accounts
import LanguageGuru.Backend.Answering
import LanguageGuru.Backend.App
import LanguageGuru.Backend.Authentication
import LanguageGuru.Backend.Blame
import LanguageGuru.Backend.Clocks
import LanguageGuru.Backend.Content
import LanguageGuru.Backend.Http
import LanguageGuru.Backend.Interleavings
import LanguageGuru.Backend.LessonFilters
import LanguageGuru.Backend.LessonService
import LanguageGuru.Backend.Logins
import LanguageGuru.Backend.MemoryRuns
import LanguageGuru.Backend.MemoryStore
import LanguageGuru.Backend.Middlewares
import LanguageGuru.Backend.MongoInterleavings
import LanguageGuru.Backend.MongoLives
import LanguageGuru.Backend.MongoLogins
import LanguageGuru.Backend.MongoProgress
import LanguageGuru.Backend.MongoRegistration
import LanguageGuru.Backend.MongoRuns
import LanguageGuru.Backend.MongoStore
import LanguageGuru.Backend.Noninterference
import LanguageGuru.Backend.Passwords
import LanguageGuru.Backend.PlainPlatform
import LanguageGuru.Backend.Platform
import LanguageGuru.Backend.Presentation
import LanguageGuru.Backend.ProgressMap
import LanguageGuru.Backend.ProgressViews
import LanguageGuru.Backend.RateLimit
import LanguageGuru.Backend.Registration
import LanguageGuru.Backend.Routes
import LanguageGuru.Backend.Schemas
import LanguageGuru.Backend.Seeding
import LanguageGuru.Backend.Store
import LanguageGuru.Backend.StoreEquivalence
import LanguageGuru.Backend.StoreRelation
import LanguageGuru.Backend.TrackStats
import LanguageGuru.Backend.UserRecords
import LanguageGuru.Data.Doubles
import LanguageGuru.Data.Keyed
import LanguageGuru.Data.OrderedMap
import LanguageGuru.Frontend.AuthSlice
import LanguageGuru.Frontend.BaseUrls
import LanguageGuru.Frontend.ClientServer
import LanguageGuru.Frontend.Convergence
import LanguageGuru.Frontend.GradedText
import LanguageGuru.Frontend.LoadingFlags
import LanguageGuru.Frontend.LoginScreen
import LanguageGuru.Frontend.Metrics
import LanguageGuru.Frontend.Navigation
import LanguageGuru.Frontend.Quiz
import LanguageGuru.Frontend.Redux
import LanguageGuru.Frontend.RestoredSession
import LanguageGuru.Frontend.Rounds
import LanguageGuru.Frontend.SessionLists
import LanguageGuru.Frontend.Simulation
import LanguageGuru.Frontend.SimulationProgress
import LanguageGuru.Frontend.StarMonotone
import LanguageGuru.Frontend.StarResponse
import LanguageGuru.Frontend.StarScores
import LanguageGuru.Frontend.SuggestedAnswers
import LanguageGuru.Frontend.Thunks
import LanguageGuru.Frontend.UserText
import LanguageGuru.Process.FixedWindow
import LanguageGuru.Process.Linear
import LanguageGuru.Process.Pool
import LanguageGuru.Process.Program
import LanguageGuru.Process.Transition
