import TriadSim.Datatree.Removal
import TriadSim.Datatree.Table
import TriadSim.Gnmi.Streams
import TriadSim.L2.Storm
import TriadSim.Netconf.Covered
import TriadSim.Netconf.Framing
import TriadSim.Radio.Acm
import TriadSim.Restconf.Encode
import TriadSim.Restconf.Segments
import TriadSim.Restconf.Write
import TriadSim.Snmp.Alone
import TriadSim.Snmp.Bulk
import TriadSim.Snmp.ErrorIndex
import TriadSim.Snmp.Traps
import TriadSim.Startup
import TriadSim.Store.AtomicWrite
import TriadSim.Store.Patch
import TriadSim.System.ConfirmTimeout
import TriadSim.System.ConfirmedCommits
import TriadSim.System.Frames
import TriadSim.System.HoldoverExpiry
import TriadSim.System.SpanningTree
import TriadSim.System.Validity
