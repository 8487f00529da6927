import BasicSim.Apps.Correctness.DistributedRuns
import BasicSim.Apps.Correctness.ResultStatistics
import BasicSim.Apps.Correctness.ScheduleFormats
import BasicSim.Apps.Correctness.TcpFlowClient
import BasicSim.Apps.Correctness.TcpFlowResults
import BasicSim.Apps.Correctness.UdpBurstPackets
import BasicSim.Apps.Correctness.UdpBurstTimetable
import BasicSim.Apps.Correctness.UdpPingFinish
import BasicSim.Apps.Correctness.UdpPingReplies
import BasicSim.Core.Correctness.EcmpTables
import BasicSim.Core.Correctness.FiveTupleHash
import BasicSim.Core.Correctness.GlobalValues
import BasicSim.Core.Correctness.Ipv4ArbiterRouting
import BasicSim.Core.Correctness.LinkLookups
import BasicSim.Core.Correctness.NetworkForwarding
import BasicSim.Core.Correctness.ReadOuts
import BasicSim.Core.Correctness.Splitting
import BasicSim.Core.Correctness.TopologyFiles
import BasicSim.Core.Correctness.UtilizationResults
import BasicSim.Tools.Correctness.BurstPlots
import BasicSim.Tools.Correctness.PingPlots
import BasicSim.Tools.Correctness.OutOfOrder
import BasicSim.Tools.Correctness.LinkPlots
import BasicSim.Tools.Correctness.Plotting
import BasicSim.Tools.Correctness.TestedRuns
