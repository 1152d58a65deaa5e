import UrConnect.Transfer.QueueBudget
import UrConnect.Transfer.ReceiveContracts
import UrConnect.Wire.PackRoundTrip
import UrConnect.Wire.FilteredAgreement
import UrConnect.Ip.TcpAcks
import UrConnect.Ip.TcpSplice
import UrConnect.Contracts.Escrow
import UrConnect.Transfer.FlightLedger
import UrConnect.Transfer.DestinationSilence
import UrConnect.Security.InspectionLaws
import UrConnect.Encrypt.CertPinning
import UrConnect.Transfer.GapWake
import UrConnect.Transfer.CommittedPrefix
import UrConnect.Transfer.CapacityWaiters
import UrConnect.Transport.H3Hybrid
import UrConnect.Provider.AuditRing
import UrConnect.Extender.FamilyBalance
import UrConnect.Blocker.BlockHost
import UrConnect.Encrypt.IdentityVerdict
import UrConnect.Encrypt.RegistryBound
import UrConnect.Metrics.ProxyHealth
import UrConnect.Ip.ExtensionHeaders
import UrConnect.Ip.FlowSessions
import UrConnect.Ip.IcmpFlowLimit
import UrConnect.Transport.WriteBatch
import UrConnect.Transport.ClientLimit
import UrConnect.Transfer.RouteBookkeeping
import UrConnect.Transfer.RouteWaiting
import UrConnect.Tui.Diff
import UrConnect.DurableVolume.Owner
import UrConnect.DurableVolume.Coverage
import UrConnect.DurableVolume.Declaration
import UrConnect.DurableVolume.CohortQuiet
import UrConnect.DurableVolume.JournalRecovery
import UrConnect.Vless.Vision
