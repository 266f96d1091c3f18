import OicKeyio.Python
import OicKeyio.Key
import OicKeyio.KeyBundle
import OicKeyio.KeyJar
import OicKeyio.Refresh
import OicKeyio.Resolution
import OicKeyio.Revocation
import OicKeyio.Registration
import OicKeyio.Publish
import OicKeyio.Cache
import OicKeyio.Merge
import OicKeyio.Dedup
import OicKeyio.Paths
import OicKeyio.Lifecycle
import OicKeyio.Lookup
import OicKeyio.JarRuns
import OicKeyio.Reload
import OicKeyio.Objects
