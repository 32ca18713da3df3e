import WgMesh.Dht.Advertising
import WgMesh.Dht.Connection
import WgMesh.Dht.Control
import WgMesh.Dht.Crash
import WgMesh.Dht.Dialing
import WgMesh.Dht.Identity
import WgMesh.Dht.Merging
import WgMesh.Dht.Nearest
import WgMesh.Dht.Plans
import WgMesh.Meshd.Clearing
import WgMesh.Meshd.Discovery
import WgMesh.Meshd.Fallback
import WgMesh.Meshd.Gossip
import WgMesh.Meshd.Pacing
import WgMesh.Meshd.Priority
import WgMesh.Meshd.Punch
import WgMesh.Meshd.Registry
import WgMesh.Meshd.Relay
import WgMesh.Meshd.Rendezvous
import WgMesh.Meshd.Route
import WgMesh.Meshd.Schedule
import WgMesh.Meshd.Seeds
import WgMesh.Meshd.Shutdown
import WgMesh.Meshd.Silence
import WgMesh.Meshd.Spacing
import WgMesh.Meshd.Startup
import WgMesh.Meshd.Sweep
import WgMesh.Meshd.Tracing
import WgMesh.Pex.Protocol
import WgMesh.Traversal.Coherence
import WgMesh.Traversal.Extrapolation
import WgMesh.Traversal.Probing
import WgMesh.Traversal.Response
import WgMesh.Traversal.Rotation
import WgMesh.Uapi.Fast
