import OxidRelay.Ticks
import OxidRelay.Blocking
import OxidRelay.Limits
import OxidRelay.BadRow
import OxidRelay.ParallelTick
import OxidRelay.Isolation
import OxidRelay.Instances
import OxidRelay.Subject
import OxidRelay.Credentials
import OxidRelay.Addresses
import OxidRelay.Backoff
import OxidRelay.PluginSettings
import OxidRelay.PluginIsolation
import OxidRelay.Replies
import OxidRelay.Wiring
import OxidRelay.QueueSpec
import OxidRelay.Exchanges
import OxidRelay.Overtaking
import OxidRelay.Machine
import OxidRelay.Resends
import OxidRelay.Settles
