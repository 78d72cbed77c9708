import UnifiedSearch.Lib.Ranking
import UnifiedSearch.Lib.Runs
import UnifiedSearch.Lib.OrdMap
import UnifiedSearch.Lib.Table
import UnifiedSearch.Lib.Text
import UnifiedSearch.Lib.Heap
import UnifiedSearch.Lib.Lifetime
import UnifiedSearch.Lib.Journal
import UnifiedSearch.Lib.Handles
import UnifiedSearch.Core.JValue
import UnifiedSearch.Core.Category
import UnifiedSearch.Core.LunaClient
import UnifiedSearch.Core.BusClient
import UnifiedSearch.Core.BusHistory
import UnifiedSearch.Core.BusRuns
import UnifiedSearch.Core.BusRequests
import UnifiedSearch.Core.Startup
import UnifiedSearch.Base.Tables
import UnifiedSearch.Base.Database
import UnifiedSearch.Base.Items
import UnifiedSearch.Base.ItemText
import UnifiedSearch.Base.CategoryTable
import UnifiedSearch.Base.CategoryOrder
import UnifiedSearch.Base.CategoryRuns
import UnifiedSearch.Base.Menu
import UnifiedSearch.Base.UpdateFaults
import UnifiedSearch.Base.SearchManager
import UnifiedSearch.Base.Registration
import UnifiedSearch.Base.RegistrationRuns
import UnifiedSearch.Clients.Applications
import UnifiedSearch.Clients.AppContents
import UnifiedSearch.Clients.Indexing
import UnifiedSearch.Clients.Reindexing
import UnifiedSearch.Bus.SettingService
import UnifiedSearch.Clients.Titles
import UnifiedSearch.Bus.Methods
import UnifiedSearch.Bus.Results
import UnifiedSearch.Bus.UpdateRequest
import UnifiedSearch.Bus.RegistryRuns
import UnifiedSearch.Bus.Sam
import UnifiedSearch.Bus.FullList
import UnifiedSearch.Bus.Refresh
import UnifiedSearch.Bus.AppItems
import UnifiedSearch.Bus.CategoryNames
import UnifiedSearch.Bus.RemovedApps
import UnifiedSearch.Media.Session
import UnifiedSearch.Media.DB8Source
import UnifiedSearch.Media.Finds
import UnifiedSearch.Media.MediaPlugin
import UnifiedSearch.Media.LostResults
import UnifiedSearch.Media.Databases
import UnifiedSearch.Media.Matches
import UnifiedSearch.Bus.System
import UnifiedSearch.Bus.Subscriptions
import UnifiedSearch.Bus.Messages
import UnifiedSearch.Bus.Flags
import UnifiedSearch.Bus.AppSearch
import UnifiedSearch.Bus.ContentSearch
import UnifiedSearch.Bus.Offers
import UnifiedSearch.Bus.Restart
import UnifiedSearch.Bus.Menu
import UnifiedSearch.Bus.Front
import UnifiedSearch.Bus.Interleaving
import UnifiedSearch.Bus.Lifetimes
import UnifiedSearch.Media.Answers
import UnifiedSearch.Media.Queries
