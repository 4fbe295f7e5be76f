import BusMap.Bus.Reading
import BusMap.Bus.Resolve
import BusMap.PolicyReading
import BusMap.Proofs.Bus.Acceptance
import BusMap.Proofs.Bus.Grants
import BusMap.Proofs.Bus.RegisterSlave
import BusMap.Proofs.Diagnostics.ErrorPaths
import BusMap.Proofs.Machine.CeilLog
import BusMap.Proofs.Machine.Intervals
import BusMap.Proofs.Naming.Offenders
import BusMap.Proofs.Naming.Usable
import BusMap.Proofs.Placement.Stability
import BusMap.Proofs.Policy.Strictness
import BusMap.Proofs.Register.Acceptance
import BusMap.Proofs.Register.Alignment
import BusMap.Proofs.Register.FieldCodec
import BusMap.Proofs.Register.FieldIsolation
import BusMap.Proofs.Register.Rebase
import BusMap.Proofs.Register.ResetWord
import BusMap.Proofs.Register.RoundTrip
import BusMap.Proofs.Register.Shadow
import BusMap.Proofs.Register.WalkFaults
import BusMap.Proofs.Register.Warnings
import BusMap.Proofs.Register.WordShift
import BusMap.Proofs.Text.Addresses
import BusMap.Proofs.Text.Defaults
import BusMap.Register.Reading
import BusMap.Register.Resolve
