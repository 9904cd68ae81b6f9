import FixedSupply.Main
import FixedSupply.Machine
import FixedSupply.Json.Ledger
import FixedSupply.Proofs.AmountEncoding
import FixedSupply.Proofs.AmountOrder
import FixedSupply.Proofs.SignedArguments
import FixedSupply.Proofs.Balances
import FixedSupply.Proofs.Deeds
import FixedSupply.Proofs.EntryPointRuns
import FixedSupply.Proofs.Clients
import FixedSupply.Proofs.Conservation
import FixedSupply.Proofs.Atomicity
import FixedSupply.Proofs.UntrustedHosts
import FixedSupply.Proofs.MachineRefinement
import FixedSupply.Proofs.EffectOrder
import FixedSupply.Proofs.EventReplay
import FixedSupply.Proofs.EventCodec
import FixedSupply.Proofs.StorageContents
import FixedSupply.Proofs.LastWrites
import FixedSupply.Proofs.BinaryForms
import FixedSupply.Proofs.SnapshotGrammar
import FixedSupply.Proofs.SnapshotTransfer
import FixedSupply.Proofs.CallTrees
import FixedSupply.Proofs.CallTreeLogs
import FixedSupply.Proofs.CallContexts
import FixedSupply.Proofs.SingleMint
import FixedSupply.Proofs.StoredForm
import FixedSupply.Proofs.WriteHistory
import FixedSupply.Proofs.ScenarioRuns
import FixedSupply.Proofs.ScenarioComposition
import FixedSupply.Proofs.FirstFaults
import FixedSupply.Proofs.HexSpellings
import FixedSupply.Proofs.ScenarioTexts
import FixedSupply.Proofs.FileLaws
import FixedSupply.Proofs.SessionRuns
import FixedSupply.Proofs.Resumption
import FixedSupply.Proofs.TransferEffect
import FixedSupply.Proofs.DispatchTable
import FixedSupply.Proofs.Spending
import FixedSupply.Proofs.TransferRuns
import FixedSupply.Proofs.TransferOrder
import FixedSupply.Proofs.TransferReversal
import FixedSupply.Proofs.CommandLines
import FixedSupply.Proofs.RunnerFailures
import FixedSupply.Proofs.RunnerReports
import FixedSupply.Proofs.JsonTexts
import FixedSupply.Proofs.JsonTokens
import FixedSupply.Proofs.JsonScalars
import FixedSupply.Proofs.JsonCollections
import FixedSupply.Proofs.JsonRoundTrip
import FixedSupply.Proofs.JsonValues
import FixedSupply.Proofs.JsonAdherence
import FixedSupply.Proofs.ScenarioGrammar
import FixedSupply.Proofs.JsonLines
import FixedSupply.Proofs.ScenarioRenderings
