import CMXSafe.Lib.Strings
import CMXSafe.Lib.Stores
import CMXSafe.Lib.Tokens
import CMXSafe.Lib.Tables
import CMXSafe.Lib.Machines
import CMXSafe.Lib.Interleavings
import CMXSafe.Lib.GoSlices
import CMXSafe.Lib.Awk
import CMXSafe.Lib.Globs
import CMXSafe.Lib.Inet6
import CMXSafe.Lib.Streams
import CMXSafe.Kube.Objects
import CMXSafe.Kube.Names
import CMXSafe.Kube.Api
import CMXSafe.Kube.Watch
import CMXSafe.Client.Caches
import CMXSafe.Client.Informers
import CMXSafe.Client.Services
import CMXSafe.Client.Main
import CMXSafe.Client.InPlace
import CMXSafe.Client.Goroutines
import CMXSafe.Client.Deliveries
import CMXSafe.Gateway.Init
import CMXSafe.Gateway.Accounts
import CMXSafe.Gateway.SshdConfig
import CMXSafe.Gateway.Endpoints
import CMXSafe.OpenSSH.Misc
import CMXSafe.OpenSSH.Match
import CMXSafe.OpenSSH.Servconf
import CMXSafe.OpenSSH.Channels
import CMXSafe.OpenSSH.Session
import CMXSafe.OpenSSH.Pod
import CMXSafe.OpenSSH.Readconf
import CMXSafe.OpenSSH.Agent
import CMXSafe.OpenSSH.Mesh
import CMXSafe.OpenSSH.Nchan
import CMXSafe.Proofs.ServiceCache
import CMXSafe.Proofs.CacheExact
import CMXSafe.Proofs.Calls
import CMXSafe.Proofs.NorthSouth
import CMXSafe.Proofs.InPlace
import CMXSafe.Proofs.Establish
import CMXSafe.Proofs.Routes
import CMXSafe.Proofs.Events
import CMXSafe.Proofs.Labels
import CMXSafe.Proofs.LastWriter
import CMXSafe.Proofs.Isolation
import CMXSafe.Proofs.Patches
import CMXSafe.Proofs.Steps
import CMXSafe.Proofs.PodRoutes
import CMXSafe.Proofs.Split
import CMXSafe.Proofs.Deletions
import CMXSafe.Proofs.References
import CMXSafe.Proofs.Owners
import CMXSafe.Proofs.Recovery
import CMXSafe.Proofs.Sets
import CMXSafe.Proofs.Linearization
import CMXSafe.Proofs.Twins
import CMXSafe.Proofs.StartUp
import CMXSafe.Proofs.Names
import CMXSafe.Proofs.Addresses
import CMXSafe.Proofs.Accounts
import CMXSafe.Proofs.Vips
import CMXSafe.Proofs.Patterns
import CMXSafe.Proofs.Forwarding
import CMXSafe.Proofs.Config
import CMXSafe.Proofs.Sessions
import CMXSafe.Proofs.Entries
import CMXSafe.Proofs.Deployment
import CMXSafe.Proofs.Pods
import CMXSafe.Proofs.Specs
import CMXSafe.Proofs.Tunnels
import CMXSafe.Proofs.Delivery
import CMXSafe.Proofs.Mesh
import CMXSafe.Proofs.Channels
