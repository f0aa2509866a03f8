import LateBinding.Main
import LateBinding.Native.HeaderArray
import LateBinding.Native.PointerArray
import LateBinding.Options
import LateBinding.Proofs.Callback.Finality
import LateBinding.Proofs.Callback.Retirement
import LateBinding.Proofs.Client.FailFast
import LateBinding.Proofs.Client.KeyVerifier
import LateBinding.Proofs.Client.Refusal
import LateBinding.Proofs.Client.ResponseHeaders
import LateBinding.Proofs.Client.Timestamps
import LateBinding.Proofs.CommandLine.SymbolReport
import LateBinding.Proofs.Config.Saving
import LateBinding.Proofs.Config.Walk
import LateBinding.Proofs.Load.Candidates
import LateBinding.Proofs.Load.Diagnosis
import LateBinding.Proofs.Load.Found
import LateBinding.Proofs.Load.Outcome
import LateBinding.Proofs.Load.Progress
import LateBinding.Proofs.Native.HeaderMemory
import LateBinding.Proofs.Native.Scan
import LateBinding.Proofs.Options.Editing
import LateBinding.Proofs.Pin.Bundle
import LateBinding.Proofs.Pin.Canonical
import LateBinding.Proofs.Simulation.Faithfulness
import LateBinding.Proofs.Symbol.Agreement
import LateBinding.Proofs.ThreadPin.Counting
import LateBinding.ThreadPin
import LateBinding.Proofs.Simulation.Commands
