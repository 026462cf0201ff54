import XdpDdos.Kern.PortFilter
import XdpDdos.Kern.Tagging
import XdpDdos.Kern.Fragments
import XdpDdos.Kern.Accounting
import XdpDdos.Firewall.Simulation
import XdpDdos.Firewall.DropCount
import XdpDdos.Firewall.Placement
import XdpDdos.Firewall.AddrCount
import XdpDdos.Firewall.TrafficCounts
import XdpDdos.Control.Concurrent
import XdpDdos.Control.PortEffects
import XdpDdos.Tool.PortArgument
import XdpDdos.Tool.ListPorts
import XdpDdos.Tool.StatsDeltas
import XdpDdos.Tool.PossibleCpus
import XdpDdos.Tool.ConcurrentListing
import XdpDdos.Loader.LoadObject
import XdpDdos.Loader.Controllable
import XdpDdos.Loader.SectionNames
import XdpDdos.Loader.MapSizes
import XdpDdos.Loader.MapReferences
import XdpDdos.Loader.MapLimits
import XdpDdos.Loader.ReusedMaps
import XdpDdos.Loader.Divisions
import XdpDdos.Loader.InRange
import XdpDdos.Loader.Netlink
import XdpDdos.Loader.Kallsyms
import XdpDdos.Device.Blocking
import XdpDdos.Device.Orphans
import XdpDdos.Tcpdump.Capture
import XdpDdos.Device.Restore
