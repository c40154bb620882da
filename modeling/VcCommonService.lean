import VcCommonService.Lib.Run
import VcCommonService.Lib.Noninterference
import VcCommonService.Lib.Js
import VcCommonService.Lib.Table
import VcCommonService.Lib.Select
import VcCommonService.Lib.Transaction
import VcCommonService.Lib.Number
import VcCommonService.Lib.Rounding
import VcCommonService.Lib.Json
import VcCommonService.Lib.JsonText
import VcCommonService.Lib.Stringify
import VcCommonService.Lib.NumberText
import VcCommonService.Lib.ShortestNumber
import VcCommonService.Lib.JsonRoundTrip
import VcCommonService.Lib.Pretty
import VcCommonService.Lib.Base64
import VcCommonService.Lib.Utf8
import VcCommonService.Lib.Hex
import VcCommonService.Lib.Uuid
import VcCommonService.Lib.Csv
import VcCommonService.Lib.Words
import VcCommonService.Lib.Uri
import VcCommonService.Lib.UriEncode
import VcCommonService.Lib.Decimal
import VcCommonService.Lib.Calendar
import VcCommonService.Lib.Timestamptz
import VcCommonService.Lib.Paging
import VcCommonService.Lib.Scan
import VcCommonService.Common
import VcCommonService.Auth.Scopes
import VcCommonService.Auth.JwksCache
import VcCommonService.TenantUser.Model
import VcCommonService.TenantUser.LastOwner
import VcCommonService.TenantUser.Service
import VcCommonService.TenantUser.ActiveOwner
import VcCommonService.TenantUser.MembershipGuard
import VcCommonService.TenantUser.Constraints
import VcCommonService.TenantUser.ClaimRace
import VcCommonService.RoleScope.Service
import VcCommonService.RoleScope.Mapping
import VcCommonService.RoleScope.Records
import VcCommonService.RoleScope.Idempotence
import VcCommonService.RoleScope.Atomicity
import VcCommonService.RoleScope.Resolution
import VcCommonService.OAuthClient.Service
import VcCommonService.OAuthClient.Effects
import VcCommonService.OAuthClient.Revocation
import VcCommonService.OAuthClient.Escalation
import VcCommonService.OAuthClient.WellFormed
import VcCommonService.OAuthClient.Interleaving
import VcCommonService.OAuthClient.SaveRace
import VcCommonService.Oidc.AccountSession
import VcCommonService.Oidc.Grant
import VcCommonService.Oidc.UpstreamInteraction
import VcCommonService.Oidc.Login
import VcCommonService.Oidc.LoginEffects
import VcCommonService.Oidc.BrowserBinding
import VcCommonService.Oidc.GrantScopes
import VcCommonService.Oidc.Consent
import VcCommonService.Oidc.SwitchTenant
import VcCommonService.Oidc.ScopeCeiling
import VcCommonService.Oidc.ForceLogout
import VcCommonService.Oidc.FirstLogin
import VcCommonService.Oidc.SingleUse
import VcCommonService.Oidc.UpstreamSession
import VcCommonService.Oidc.ModelAdapter
import VcCommonService.Oidc.RefreshChain
import VcCommonService.Oidc.Purge
import VcCommonService.Oidc.PurgeDrain
import VcCommonService.Oidc.PurgeLogout
import VcCommonService.Oidc.SessionLimit
import VcCommonService.Oidc.SessionCap
import VcCommonService.Oidc.SavedGrant
import VcCommonService.Oidc.SessionGrants
import VcCommonService.Oidc.SwitchFaults
import VcCommonService.Tenant.Model
import VcCommonService.Tenant.Lifecycle
import VcCommonService.Tenant.Cascade
import VcCommonService.Tenant.Convergence
import VcCommonService.Tenant.ReservedConfig
import VcCommonService.Tenant.ConfigMerge
import VcCommonService.Operation.Ttl
import VcCommonService.Operation.Calls
import VcCommonService.Operation.Views
import VcCommonService.Operation.Expiry
import VcCommonService.Operation.Purge
import VcCommonService.Operation.PurgeExact
import VcCommonService.Operation.PurgeProgress
import VcCommonService.Operation.Listing
import VcCommonService.Operation.ExpiryRange
import VcCommonService.Connector.Service
import VcCommonService.Connector.Rotation
import VcCommonService.Connector.Registry
import VcCommonService.Connector.Siblings
import VcCommonService.Connector.SafeUrl
import VcCommonService.Connector.KeyRing
import VcCommonService.Connector.Tokens
import VcCommonService.Connector.Encryption
import VcCommonService.Credential.Validators
import VcCommonService.Credential.ExactAttributes
import VcCommonService.Credential.Offers
import VcCommonService.Credential.Definitions
import VcCommonService.Credential.Registration
import VcCommonService.Credential.Deactivation
import VcCommonService.Credential.Actions
import VcCommonService.Credential.Revocation
import VcCommonService.Paging.Cursor
import VcCommonService.Paging.OldestFirst
import VcCommonService.Audit.Partitions
import VcCommonService.Audit.PartitionWorker
import VcCommonService.Audit.Log
import VcCommonService.Audit.Export
import VcCommonService.Audit.WriteWorker
import VcCommonService.Audit.Trail
import VcCommonService.RateLimit.Storage
import VcCommonService.RateLimit.Quota
import VcCommonService.RateLimit.Keys
import VcCommonService.Ui.AuthClient
import VcCommonService.Ui.SignOut
import VcCommonService.Ui.SwitchRenew
import VcCommonService.Ui.ApiClient
import VcCommonService.Auth.Token
import VcCommonService.OAuthClient.Authentication
import VcCommonService.Auth.MintedTokens
import VcCommonService.RateLimit.TenantQuota
import VcCommonService.RateLimit.QuotaStatus
import VcCommonService.RateLimit.QuotaRuns
import VcCommonService.Oidc.SigningKeys
import VcCommonService.Oidc.KeyRotation
import VcCommonService.Connection.Service
import VcCommonService.Connection.Placement
import VcCommonService.Connection.Isolation
import VcCommonService.Lib.SingleFlight
import VcCommonService.Jobs.Queues
import VcCommonService.Oidc.KeyLoading
import VcCommonService.TenantUser.DevSeed
import VcCommonService.Oidc.Callbacks
import VcCommonService.Oidc.TenantList
import VcCommonService.Bootstrap.Service
import VcCommonService.Bootstrap.Secret
import VcCommonService.Bootstrap.Recovery
