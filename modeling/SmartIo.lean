import SmartIo.ThrottleControl
import SmartIo.ThrottleClasses
import SmartIo.DeadlinePriority
import SmartIo.DeadlineBalance
import SmartIo.DeadlineDepth
import SmartIo.DirtyrateLimiter
import SmartIo.IoLifetime
import SmartIo.IoInFlight
import SmartIo.ModelInput
import SmartIo.ThrottleInstall
import SmartIo.ThrottleSwitch
import SmartIo.ThrottleTimer
import SmartIo.RatioRounding
import SmartIo.DirtyrateWait
import SmartIo.DeadlineWork
import SmartIo.DeadlineFifo
import SmartIo.ThrottleIndex
import SmartIo.ThrottleWindow
import SmartIo.UidConservation
import SmartIo.WindowPercentiles
import SmartIo.IoRemapLife
import SmartIo.DeviceBusy
import SmartIo.IoWaiting
import SmartIo.HotInodes
import SmartIo.PageBudgetBound
import SmartIo.Aarch64
import SmartIo.ModelFp32Asm
import SmartIo.ModelPredict
import SmartIo.FilemapCustody
import SmartIo.ThrottleCustody
import SmartIo.ProcFsConfig
