import ArkadeVault.Application.Psbt
import ArkadeVault.Library.Bytes
import ArkadeVault.Library.Checks
import ArkadeVault.Library.Encoding
import ArkadeVault.Library.Interleaving
import ArkadeVault.Library.Keyed
import ArkadeVault.Library.MachineInt
import ArkadeVault.Policy.LedgerRuns
import ArkadeVault.Policy.LedgerSteps
import ArkadeVault.Policy.RecoverySession
import ArkadeVault.Policy.VtxoLedger
import ArkadeVault.Policy.VtxoRecord
import ArkadeVault.Application.VtxoVerify
import ArkadeVault.Application.SpendShape
import ArkadeVault.Application.Requests
import ArkadeVault.Application.Selection
import ArkadeVault.Application.Signing
import ArkadeVault.Application.Spend
import ArkadeVault.Application.World
import ArkadeVault.Policy.VtxoLifecycle
import ArkadeVault.Library.Budget
import ArkadeVault.Application.Lifecycle
import ArkadeVault.Application.WorldSteps
import ArkadeVault.Application.Discipline
import ArkadeVault.Application.Replies
import ArkadeVault.Application.Endpoints
import ArkadeVault.Application.Releases
import ArkadeVault.Application.Allowance
import ArkadeVault.Application.Signatures
import ArkadeVault.Application.Operations
import ArkadeVault.Policy.SessionReplay
import ArkadeVault.Application.Cosigning
import ArkadeVault.Application.Transition
import ArkadeVault.Application.Coherence
import ArkadeVault.Policy.VaultBoardRecord
import ArkadeVault.Policy.VaultBoardLedger
import ArkadeVault.Policy.VaultBoardSteps
import ArkadeVault.Policy.VaultBoardSound
import ArkadeVault.Policy.VaultBoardRuns
import ArkadeVault.Policy.VaultBoardGate
import ArkadeVault.Application.VaultBoardStatus
import ArkadeVault.Library.Transaction
import ArkadeVault.Policy.SignCounts
import ArkadeVault.Policy.Monotonic
import ArkadeVault.Policy.Sequence
import ArkadeVault.Library.Trace
import ArkadeVault.Application.VaultBoardHandle
import ArkadeVault.Application.VaultBoardVerify
import ArkadeVault.Application.VaultBoardPhases
import ArkadeVault.Library.Framing
import ArkadeVault.Policy.TenantRecord
import ArkadeVault.Policy.RecordPayloads
import ArkadeVault.Policy.VaultMap
import ArkadeVault.Policy.AuthenticRows
import ArkadeVault.Policy.SignedReplay
import ArkadeVault.Application.FeeSolver
import ArkadeVault.Application.SelectionOrder
import ArkadeVault.Application.SignerResponse
import ArkadeVault.Application.SavingsFamily
import ArkadeVault.Application.TransitionTrees
import ArkadeVault.Policy.Enrollment
import ArkadeVault.Application.Enroll
import ArkadeVault.Application.ArkIndexer
import ArkadeVault.Application.Settlement
import ArkadeVault.Application.PasskeyChallenges
import ArkadeVault.Webauthn.Cbor
import ArkadeVault.Webauthn.Create
import ArkadeVault.Policy.BundleDigest
import ArkadeVault.Application.VaultBoardDigest
import ArkadeVault.Application.AddedSignatures
import ArkadeVault.Library.Slice
import ArkadeVault.Library.Window
import ArkadeVault.Application.TransitionRate
import ArkadeVault.Application.ScriptConvergence
import ArkadeVault.Application.EnrollmentLimits
import ArkadeVault.Application.VaultBoardWorld
import ArkadeVault.Application.VaultBoardProtocol
import ArkadeVault.Application.VaultBoardCalls
import ArkadeVault.Application.VaultBoardTruth
import ArkadeVault.Application.VaultBoardStale
import ArkadeVault.Application.VaultBoardValue
