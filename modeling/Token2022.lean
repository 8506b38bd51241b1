import Token2022.Error
import Token2022.Address
import Token2022.Confidential.Scalar
import Token2022.Confidential.Proof
import Token2022.Lib.Pedersen
import Token2022.Confidential.Group
import Token2022.Lib.Fallible
import Token2022.Lib.Avoids
import Token2022.Lib.SetLoop
import Token2022.Lib.KeyedList
import Token2022.Lib.LabelledRun
import Token2022.Lib.LeastPreimage
import Token2022.Lib.Levy
import Token2022.Lib.DelayedSlots
import Token2022.Lib.ScheduledValue
import Token2022.Lib.WeightedSum
import Token2022.Lib.Accumulator
import Token2022.Lib.Threshold
import Token2022.Lib.Decimal
import Token2022.Lib.RunningAverage
import Token2022.Extension.Types
import Token2022.State
import Token2022.Runtime
import Token2022.Processor.Initialize
import Token2022.Processor.Token
import Token2022.Extension.TransferFee
import Token2022.Extension.AccountLen
import Token2022.Processor.TransferFee
import Token2022.Processor.MintConfig
import Token2022.Processor.AccountConfig
import Token2022.Processor.Metadata
import Token2022.Processor.ConfidentialTransfer
import Token2022.Processor.ConfidentialTransferFee
import Token2022.Processor.ConfidentialMintBurn
import Token2022.Instruction
import Token2022.System
import Token2022.Environment
import Token2022.Abstract.Book
import Token2022.Abstract.Effect
import Token2022.Abstract.Reading
import Token2022.Abstract.SlotStep
import Token2022.Abstract.Amounts
import Token2022.Refinement.Initialize
import Token2022.Refinement.Transfer
import Token2022.Refinement.Authority
import Token2022.Refinement.Supply
import Token2022.Refinement.Settings
import Token2022.Refinement.Fee
import Token2022.Refinement.Confidential
import Token2022.Refinement.Program
import Token2022.Refinement.NoOverflow
import Token2022.Abstract.Change
import Token2022.Abstract.Write
import Token2022.Writes.Initialize
import Token2022.Writes.Token
import Token2022.Writes.Settings
import Token2022.Writes.Confidential
import Token2022.Writes.Program
import Token2022.Invariant.Rule
import Token2022.Invariant.WellFormed
import Token2022.Invariant.Conservation
import Token2022.Invariant.Demands
import Token2022.Invariant.Layout
import Token2022.Invariant.MintExtension
import Token2022.Invariant.FeeBound
import Token2022.Property.Reading
import Token2022.Property.Supply
import Token2022.Property.Authorization
import Token2022.Property.Native
import Token2022.Property.Delegation
import Token2022.Property.CpiGuard
import Token2022.Property.NonTransferable
import Token2022.Property.UncheckedTransfer
import Token2022.Property.Pause
import Token2022.Property.Renounced
import Token2022.Property.FeeSchedule
import Token2022.Property.MultiplierSchedule
import Token2022.Property.InterestRate
import Token2022.Property.DefaultState
import Token2022.Property.WithheldFees
import Token2022.Property.Overflow
import Token2022.Property.TransferEffect
import Token2022.Confidential.Client
import Token2022.Property.PendingBalance
import Token2022.Property.PendingCredits
import Token2022.Batch
import Token2022.Lib.Bytes
import Token2022.Lib.Codec
import Token2022.Interface.Encoding
import Token2022.Interface.Instruction
import Token2022.Interface.RoundTrip
import Token2022.Interface.BatchSerialization
import Token2022.Interface.State
import Token2022.Interface.PodInstruction
import Token2022.Interface.Tlv
import Token2022.Lib.SliceProgram
import Token2022.Interface.TlvRow
import Token2022.Interface.TlvBounds
import Token2022.Interface.Readers
import Token2022.Interface.Agreement
import Token2022.Interface.Exclusion
import Token2022.Interface.TlvWrite
import Token2022.Interface.TlvFrame
import Token2022.Interface.AllocAndSerialize
import Token2022.Interface.Layout
import Token2022.Interface.AccountLen
import Token2022.Property.Layout
import Token2022.Property.AccountLen
import Token2022.Property.GroupMembers
import Token2022.Property.Transferring
import Token2022.Property.TypeConfusion
import Token2022.Property.Multisig
import Token2022.UiAmount
import Token2022.Property.UiAmount
import Token2022.Confidential.Soundness
import Token2022.Confidential.Generation
import Token2022.Confidential.Splitting
import Token2022.Confidential.Agreement
import Token2022.Confidential.FeeAmounts
import Token2022.Confidential.CiphertextArithmetic
import Token2022.Property.PendingRange
import Token2022.Interface.Reallocate
import Token2022.Property.Reallocate
import Token2022.Property.Identity
import Token2022.Property.Closing
import Token2022.Property.MintSettings
import Token2022.Property.PermissionedBurn
import Token2022.Property.ClientSession
import Token2022.Property.SupplyClient
import Token2022.Property.Custody
import Token2022.Property.Signatures
import Token2022.Interface.Store
import Token2022.Property.Store
import Token2022.Interface.StoreWrite
import Token2022.Property.StoreWrite
