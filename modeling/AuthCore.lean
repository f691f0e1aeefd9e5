import AuthCore.Main
import AuthCore.Permission.Management
import AuthCore.User.Document
import AuthCore.Proofs.OrderedMap
import AuthCore.Proofs.Cache.Live
import AuthCore.Proofs.Cache.TtlMap
import AuthCore.Proofs.Action
import AuthCore.Proofs.Json.Text
import AuthCore.Proofs.Text.Base64
import AuthCore.Proofs.Text.Integer
import AuthCore.Proofs.Token.Refresh
import AuthCore.Proofs.Run
import AuthCore.Proofs.Account.Frame
import AuthCore.Proofs.Account.Inward
import AuthCore.Proofs.Cache.Frame
import AuthCore.Proofs.Cache.Conversation
import AuthCore.Proofs.Token.Exchange
import AuthCore.Proofs.Store.Keyed
import AuthCore.Proofs.Token.Ledger
import AuthCore.Proofs.Token.Origin
import AuthCore.Proofs.Otp.Codes
import AuthCore.Proofs.Otp.Lifecycle
import AuthCore.Proofs.Otp.Delivery
import AuthCore.Proofs.Cache.Remote
import AuthCore.Proofs.Time.Calendar
import AuthCore.Proofs.Time.Text
import AuthCore.Proofs.Json.Decode
import AuthCore.Proofs.RuleSet
import AuthCore.Proofs.Store.Row
import AuthCore.Proofs.Store.Mirror
import AuthCore.Proofs.Store.Seed
import AuthCore.Proofs.Store.Migration
import AuthCore.Proofs.Store.Twins
import AuthCore.Proofs.Store.Users
import AuthCore.Proofs.Store.Sound
import AuthCore.Proofs.Account.Users
import AuthCore.Proofs.Account.Failure
import AuthCore.Proofs.Account.SignedOut
import AuthCore.Proofs.Store.Rows
import AuthCore.Proofs.Account.Writes
import AuthCore.Proofs.Account.Channels
import AuthCore.Proofs.Account.Standing
import AuthCore.Proofs.Account.Identity
import AuthCore.Proofs.Account.Profile
import AuthCore.Proofs.Json.Document
import AuthCore.Proofs.Token.Access
import AuthCore.Proofs.Account.Access
import AuthCore.Proofs.Store.Groups
import AuthCore.Proofs.Permission.Union
import AuthCore.Proofs.Permission.Catalog
import AuthCore.Proofs.Permission.Deletion
import AuthCore.Proofs.Store.Faults
import AuthCore.Proofs.Cache.Entries
import AuthCore.Proofs.Account.Faults
import AuthCore.Proofs.Cache.Faults
import AuthCore.Proofs.Token.Separation
import AuthCore.Proofs.Token.Grammar
import AuthCore.Proofs.Text.Lowercase
import AuthCore.Proofs.Text.Trim
import AuthCore.Proofs.Username
import AuthCore.Proofs.Cache.Confined
import AuthCore.Proofs.Account.Isolation
import AuthCore.Proofs.Account.Limited
import AuthCore.Proofs.Account.Presenter
import AuthCore.Proofs.Account.WrongPassword
import AuthCore.Proofs.Account.History
import AuthCore.Proofs.Account.Unverified
import AuthCore.Proofs.Text.Order
import AuthCore.Proofs.Json.Shape
import AuthCore.Proofs.Json.Record
import AuthCore.Proofs.Json.Forms
import AuthCore.Proofs.Text.Size
import AuthCore.Proofs.Session
import AuthCore.Proofs.Log.Shown
import AuthCore.Proofs.Log.Actions
import AuthCore.Proofs.Log.Told
import AuthCore.Proofs.Log.Tokens
import AuthCore.Proofs.Secret.Store
import AuthCore.Proofs.Secret.Cache
import AuthCore.Proofs.Secret.Actions
import AuthCore.Proofs.Secret.Operations
import AuthCore.Proofs.Secret.Log
import AuthCore.Proofs.Files.Tree
import AuthCore.Proofs.Startup
import AuthCore.Proofs.Store.Opening
import AuthCore.Proofs.Config.Document
import AuthCore.Proofs.Config.Source
import AuthCore.Proofs.Config.Accepted
