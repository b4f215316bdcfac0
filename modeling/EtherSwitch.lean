import EtherSwitch.Proofs.ScriptedBuses
import EtherSwitch.Device.Bench
import EtherSwitch.Document
import EtherSwitch.Linux.StandIn
import EtherSwitch.Proofs.Applying
import EtherSwitch.Proofs.Retry
import EtherSwitch.Proofs.Sharing
import EtherSwitch.Register.Bank
import EtherSwitch.Simulation.Shared
import EtherSwitch.Transport.Handle
import EtherSwitch.Proofs.Operations
import EtherSwitch.Proofs.Identity
import EtherSwitch.Proofs.History
import EtherSwitch.Proofs.Overwriting
import EtherSwitch.Proofs.Interrupting
import EtherSwitch.Proofs.Erasing
import EtherSwitch.Proofs.Resuming
import EtherSwitch.Proofs.Repeating
import EtherSwitch.Proofs.Aborted
import EtherSwitch.Proofs.Discovery
import EtherSwitch.Proofs.Confinement
import EtherSwitch.Proofs.Transparency
import EtherSwitch.Proofs.Traffic
import EtherSwitch.Proofs.MdioProtocol
import EtherSwitch.Proofs.SpiProtocol
import EtherSwitch.Proofs.Opening
import EtherSwitch.Proofs.Membership
import EtherSwitch.Proofs.Refusals
import EtherSwitch.Proofs.Guarded
import EtherSwitch.Proofs.Bounds
import EtherSwitch.Proofs.Atomicity
import EtherSwitch.Proofs.Resetting
import EtherSwitch.Proofs.Links
import EtherSwitch.Proofs.LinkChanges
import EtherSwitch.Proofs.Resolving
import EtherSwitch.Proofs.Identification
import EtherSwitch.Proofs.EntryWrites
import EtherSwitch.Proofs.OptionLists
import EtherSwitch.Proofs.SpidevOptions
import EtherSwitch.Proofs.TransportText
import EtherSwitch.Proofs.Numerals
import EtherSwitch.Proofs.SpidevSettings
import EtherSwitch.Proofs.MiiOptions
import EtherSwitch.Proofs.InterfaceNames
import EtherSwitch.Proofs.EntryCodecs
