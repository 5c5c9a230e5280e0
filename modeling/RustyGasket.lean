import RustyGasket.Wakeup
import RustyGasket.LoadOnce
import RustyGasket.ForwardedFor
import RustyGasket.AuthMiddleware
import RustyGasket.Server
import RustyGasket.JwtClaims
import RustyGasket.InflightMap
import RustyGasket.ExpiredRead
import RustyGasket.ConfigDocument
import RustyGasket.KeyLoad
import RustyGasket.KeyOrder
import RustyGasket.NamedAuth
import RustyGasket.NoStore
import RustyGasket.VaryKey
import RustyGasket.CacheTtl
import RustyGasket.PointwiseMerge
import RustyGasket.SelfEdge
import RustyGasket.DatabaseUrl
import RustyGasket.CookieToken
import RustyGasket.FailureText
import RustyGasket.LengthCap
import RustyGasket.Pagination
import RustyGasket.CacheConfig
import RustyGasket.Transactions
import RustyGasket.SchemeChain
import RustyGasket.Guards
import RustyGasket.ObjectCache
import RustyGasket.Scheduler
import RustyGasket.ShardedLog
import RustyGasket.ErrorDerive
import RustyGasket.ErrorBody
import RustyGasket.S3Listing
import RustyGasket.TokenScopes
import RustyGasket.Health
import RustyGasket.RequestTrail
import RustyGasket.Actions
import RustyGasket.Mediation
import RustyGasket.Extractors
import RustyGasket.KeyFamily
import RustyGasket.RateLimit
