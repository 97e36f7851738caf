import KeaDhcp.Hooks.CalloutManager
import KeaDhcp.Dhcpsrv.HostBackends
import KeaDhcp.Properties.Refusals4
import KeaDhcp.Properties.Overlooked4
import KeaDhcp.Properties.Recount4
import KeaDhcp.Properties.Reservations6
import KeaDhcp.Properties.Accounting6
import KeaDhcp.Properties.SingleQuery
import KeaDhcp.Properties.Coverage4
import KeaDhcp.Properties.NameChanges4
import KeaDhcp.Properties.Pools
import KeaDhcp.Properties.ServedScopes
import KeaDhcp.Properties.ServiceDisabled
import KeaDhcp.Properties.ParkedQueries
import KeaDhcp.Properties.PartnerDown
import KeaDhcp.Properties.LeaseFileCleanup
import KeaDhcp.Properties.LeaseExchange
import KeaDhcp.Properties.LeaseMerge
import KeaDhcp.Dhcp.OptionDataTypes
import KeaDhcp.DhcpDdns.NcrIo
import KeaDhcp.Properties.NonreservedLeases
import KeaDhcp.Properties.Expiry
import KeaDhcp.Properties.SubnetGuards
import KeaDhcp.Dhcp4.VendorOptions
import KeaDhcp.Dhcp6.RequestedOptions
import KeaDhcp.Properties.PacketSafety
import KeaDhcp.Properties.Options4
import KeaDhcp.Properties.EvalMeaning
import KeaDhcp.Properties.NameText
import KeaDhcp.Properties.NameCompression
import KeaDhcp.Properties.JsonRoundtrip
import KeaDhcp.Properties.HttpRequests
import KeaDhcp.Properties.Dhcp4o6
import KeaDhcp.Properties.LeasePages
