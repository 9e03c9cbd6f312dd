import CompanyRegistry.Log.Filter
import CompanyRegistry.Main
import CompanyRegistry.Proofs.Event.Shutdown
import CompanyRegistry.Proofs.Rpc.Turns
import CompanyRegistry.Proofs.Store.Commands
import CompanyRegistry.Proofs.Store.Uniqueness
import CompanyRegistry.Proofs.Store.History
import CompanyRegistry.Proofs.Text.Digits
import CompanyRegistry.Proofs.Json.Scalars
import CompanyRegistry.Proofs.Json.RoundTrip
import CompanyRegistry.Proofs.Company.Records
import CompanyRegistry.Proofs.Rpc.Payloads
import CompanyRegistry.Proofs.Rest.Requests
import CompanyRegistry.Proofs.Rest.Refinement
import CompanyRegistry.Proofs.Rpc.Messages
import CompanyRegistry.Proofs.Text.Base64
import CompanyRegistry.Proofs.Access.Claims
import CompanyRegistry.Proofs.Access.Queries
import CompanyRegistry.Proofs.Access.Tokens
import CompanyRegistry.Proofs.Access.Decisions
import CompanyRegistry.Proofs.Event.Templates
import CompanyRegistry.Proofs.Rest.Listing
import CompanyRegistry.Proofs.Rest.ReadBack
import CompanyRegistry.Proofs.Event.Dispatch
import CompanyRegistry.Proofs.Rpc.Isolation
import CompanyRegistry.Proofs.Rpc.Logins
import CompanyRegistry.Proofs.Cli.ConfigFile
import CompanyRegistry.Proofs.Event.Bounds
import CompanyRegistry.Proofs.Event.Publishing
import CompanyRegistry.Proofs.Store.Probes
import CompanyRegistry.Proofs.Access.Expiry
import CompanyRegistry.Proofs.Store.Refusals
import CompanyRegistry.Proofs.Store.UnknownColumns
import CompanyRegistry.Proofs.Event.Loads
import CompanyRegistry.Proofs.Event.Keys
import CompanyRegistry.Proofs.Event.Defects
import CompanyRegistry.Proofs.Access.PasswordFields
import CompanyRegistry.Proofs.Store.Independence
import CompanyRegistry.Proofs.Rpc.Identifiers
import CompanyRegistry.Proofs.Rpc.Internals
import CompanyRegistry.Proofs.Port.Routing
import CompanyRegistry.Proofs.Rpc.Databases
