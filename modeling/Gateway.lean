import Gateway.RequestHead
import Gateway.BodyFraming
import Gateway.VerifyJwt
import Gateway.IdentityHeaders
import Gateway.UpstreamRequest
import Gateway.UpstreamTimeouts
import Gateway.UpstreamResponse
import Gateway.AuthorizationGate
import Gateway.PeerDisconnect
import Gateway.Shutdown
import Gateway.Library.FixedWindow
import Gateway.RateLimiter
import Gateway.RateLimits
import Gateway.HeadGrammar
import Gateway.FramingHeaders
import Gateway.Library.Handles
import Gateway.Library.Monitor
import Gateway.HandlerRules
import Gateway.SocketDiscipline
import Gateway.Routing
import Gateway.HeadLimit
import Gateway.Startup
import Gateway.ClientLimit
import Gateway.Library.JsonText
import Gateway.LimiterMemory
import Gateway.JsonBodies
import Gateway.UpstreamUrl
import Gateway.ResponseStream
import Gateway.ClientResponse
import Gateway.DescriptorTable
import Gateway.DescriptorLimit
import Gateway.Library.Accounts
import Gateway.Library.Delimiters
import Gateway.FindToken
import Gateway.SendAll
import Gateway.Library.Positions
import Gateway.Library.Fallible
import Gateway.CheckedParsers
import Gateway.CheckedProxy
import Gateway.CheckedHandler
import Gateway.Library.Results
import Gateway.Library.OrderedMap
import Gateway.Library.Threads
import Gateway.Jwt.Base
import Gateway.Picojson
import Gateway.Picojson.Values
import Gateway.Picojson.RoundTrip
import Gateway.Jwt.Token
import Gateway.Jwt.Verification
import Gateway.Jwt.Signing
import Gateway.Deployment
import Gateway.Authentication
import Gateway.DescriptorOwners
import Gateway.ForwardLimits
import Gateway.Library.Notes
import Gateway.Logger
import Gateway.LoggedHandler
import Gateway.Jwt.Texts
import Gateway.LogText
import Gateway.TokenSecrecy
import Gateway.Library.Liveness
import Gateway.Liveness
import Gateway.Launch
import Gateway.Secrets
import Gateway.Library.Costs
import Gateway.Buffers
import Gateway.ClientAnswers
import Gateway.ClientAnswers
