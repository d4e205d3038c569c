import Bedrock.Proofs.KmallocRuns
import Bedrock.Proofs.StorageRoundTrip
import Bedrock.Proofs.PageMap
import Bedrock.Proofs.KernelHalf
import Bedrock.Proofs.TaskFileDecode
import Bedrock.Proofs.AtaRange
import Bedrock.Proofs.WriteErrors
import Bedrock.Proofs.ReadErrors
import Bedrock.Proofs.PathLookup
import Bedrock.Proofs.DirectoryBounds
import Bedrock.Proofs.InodeAddress
import Bedrock.Proofs.LineEditing
import Bedrock.Proofs.WaitRuns
import Bedrock.Proofs.InterruptFrames
import Bedrock.Proofs.ScreenBounds
import Bedrock.Proofs.ClearedPages
import Bedrock.Proofs.DeviceViews
import Bedrock.Proofs.FailedReads
import Bedrock.Proofs.Mounting
import Bedrock.Proofs.SuperblockChecks
import Bedrock.Proofs.BootCheck
import Bedrock.Proofs.FoundInodes
import Bedrock.Proofs.PrintNumbers
import Bedrock.Proofs.SplitWalk
import Bedrock.Proofs.SectorReads
import Bedrock.Proofs.ScratchPages
import Bedrock.Proofs.PageBalance
import Bedrock.Proofs.StringOrder
import Bedrock.Proofs.SleepTicks
import Bedrock.Proofs.PacketTransfers
import Bedrock.Proofs.DriveVolumes
import Bedrock.Proofs.DeviceTable
import Bedrock.Cpu.Gdt
import Bedrock.Cpu.Idt
import Bedrock.Kernel.Main
import Bedrock.Proofs.InterruptDelivery
import Bedrock.Proofs.InterruptRuns
import Bedrock.Proofs.DrivelessBoot
import Bedrock.Proofs.DriveMounts
