import Rooti.Access.Caregivers
import Rooti.Access.Effects
import Rooti.Access.Identities
import Rooti.Access.Keeping
import Rooti.Access.LifeCycles
import Rooti.Access.Ownership
import Rooti.Access.Registration
import Rooti.Access.Requests
import Rooti.Access.Standing
import Rooti.Access.Tenants
import Rooti.Access.Tokens
import Rooti.Access.Usernames
import Rooti.Accounts.Emails
import Rooti.Accounts.Login
import Rooti.Accounts.Throttling
import Rooti.Api.Deps
import Rooti.Api.Documents
import Rooti.Api.Endpoints
import Rooti.Api.Requests
import Rooti.Auth.Payloads
import Rooti.Auth.Tokens
import Rooti.Boards.Drafts
import Rooti.Boards.Rounds
import Rooti.Caching.Companies
import Rooti.Caching.RoundTrip
import Rooti.Caching.Standards
import Rooti.Companies.Names
import Rooti.Companies.References
import Rooti.Connections.Brackets
import Rooti.Connections.MakeUrl
import Rooti.Connections.ParseUrl
import Rooti.Connections.Urls
import Rooti.Core.Cache
import Rooti.Core.Config
import Rooti.Core.Database
import Rooti.Core.Decimal
import Rooti.Core.Exceptions
import Rooti.Core.Faults
import Rooti.Core.Floats
import Rooti.Core.Footprints
import Rooti.Core.Holding
import Rooti.Core.Numbering
import Rooti.Core.Pagination
import Rooti.Core.Pathlib
import Rooti.Core.Principals
import Rooti.Core.ProblemDetail
import Rooti.Core.Python
import Rooti.Core.RateLimit
import Rooti.Core.Reading
import Rooti.Core.Response
import Rooti.Core.RowInvariants
import Rooti.Core.Security
import Rooti.Core.Session
import Rooti.Core.Tenant
import Rooti.Core.Transactions
import Rooti.Core.UploadValidation
import Rooti.Core.Values
import Rooti.Core.Visible
import Rooti.Documents.Files
import Rooti.Documents.Gate
import Rooti.Documents.LedgerDisk
import Rooti.Documents.Log
import Rooti.Documents.Objects
import Rooti.Documents.Steps
import Rooti.Employment.Assignments
import Rooti.Employment.Hiring
import Rooti.Employment.Retirement
import Rooti.Integrations.LocalDisk
import Rooti.Integrations.Storage
import Rooti.Journals.Bulk
import Rooti.Journals.Jobs
import Rooti.Journals.Markup
import Rooti.Journals.NextRun
import Rooti.Journals.Preview
import Rooti.Journals.Runner
import Rooti.Journals.Schedules
import Rooti.Journals.Updates
import Rooti.Leaves.Concurrent
import Rooti.Leaves.LifeCycle
import Rooti.Lib.Batch
import Rooti.Lib.Cascade
import Rooti.Lib.Catalog
import Rooti.Lib.Chase
import Rooti.Lib.Codec
import Rooti.Lib.Escaping
import Rooti.Lib.FileTree
import Rooti.Lib.FixedWindow
import Rooti.Lib.Hoare
import Rooti.Lib.Html.Pieces
import Rooti.Lib.Html.Template
import Rooti.Lib.Html.Text
import Rooti.Lib.Html.Tokenizer
import Rooti.Lib.Html.Weight
import Rooti.Lib.Interference
import Rooti.Lib.Joined
import Rooti.Lib.Json
import Rooti.Lib.KeyValue
import Rooti.Lib.LifeCycle
import Rooti.Lib.Like
import Rooti.Lib.Obedience
import Rooti.Lib.Ownership
import Rooti.Lib.Paging
import Rooti.Lib.Paths
import Rooti.Lib.Percent
import Rooti.Lib.Pool
import Rooti.Lib.Program
import Rooti.Lib.Protocol
import Rooti.Lib.Quoting
import Rooti.Lib.Races
import Rooti.Lib.Runs
import Rooti.Lib.Splitting
import Rooti.Lib.Table
import Rooti.Lib.Trim
import Rooti.Listings.Collect
import Rooti.Listings.DateWindows
import Rooti.Listings.Keywords
import Rooti.Listings.LeaveDates
import Rooti.Listings.Pages
import Rooti.Listings.Traversal
import Rooti.Models.Enums
import Rooti.Models.Rows
import Rooti.Models.Schema
import Rooti.Problems.Fields
import Rooti.Problems.ReadOnly
import Rooti.ReadOnly.Companies
import Rooti.ReadOnly.Outcomes
import Rooti.ReadOnly.Requests
import Rooti.ReadOnly.Schedules
import Rooti.ReadOnly.Workers
import Rooti.RefreshTokens.Concurrent
import Rooti.RefreshTokens.History
import Rooti.RefreshTokens.Operations
import Rooti.RefreshTokens.Protocol
import Rooti.RefreshTokens.Rotation
import Rooti.Schemas.Company
import Rooti.Schemas.Job
import Rooti.Services.Auth
import Rooti.Services.Board
import Rooti.Services.Caregiver
import Rooti.Services.Charger
import Rooti.Services.Company
import Rooti.Services.Document
import Rooti.Services.Job
import Rooti.Services.JournalSchedule
import Rooti.Services.Kiosk
import Rooti.Services.Leave
import Rooti.Services.Schedule
import Rooti.Services.User
import Rooti.Services.WorkJournal
import Rooti.Services.WorkRecord
import Rooti.Services.Worker
import Rooti.Standards.Accepts
import Rooti.Standards.Exact
import Rooti.Standards.Responses
import Rooti.Standards.Sync
import Rooti.Storage.Confinement
import Rooti.Storage.FileNames
import Rooti.Storage.StoredObjects
import Rooti.Tenancy.Endpoints
import Rooti.Tenancy.Isolation
import Rooti.Tenancy.Requests
import Rooti.Tenancy.Scopes
import Rooti.WorkRecords.Batches
import Rooti.WorkRecords.Closing
import Rooti.WorkRecords.Concurrent
import Rooti.WorkRecords.Processes
import Rooti.WorkRecords.Shifts
import Rooti.WorkRecords.Times
