import GeminiLinux.Lib.Bytes
import GeminiLinux.Lib.Framing
import GeminiLinux.Lib.Prog
import GeminiLinux.Kernel.Errno
import GeminiLinux.Kernel.InputMt
import GeminiLinux.Consys.Btif
import GeminiLinux.Consys.Wmt
import GeminiLinux.Consys.WmtPush
import GeminiLinux.Consys.WmtAck
import GeminiLinux.Scripts.PackBootImg
import GeminiLinux.Touch.Ssd2092
import GeminiLinux.Touch.Frames
import GeminiLinux.Touch.Contacts
import GeminiLinux.Touch.Transfers
import GeminiLinux.Touch.AckedAway
import GeminiLinux.Touch.RunState
import GeminiLinux.Consys.Power
import GeminiLinux.Kernel.Regmap
import GeminiLinux.Lib.Runs
import GeminiLinux.Gpio.Aw9523b
import GeminiLinux.Gpio.Aw9523bLines
import GeminiLinux.Gpio.Aw9523bIrq
import GeminiLinux.Regulator.Mt6351
import GeminiLinux.Consys.Balance
import GeminiLinux.Kernel.DelayedWork
import GeminiLinux.Display.DsiPower
import GeminiLinux.Keypad.MatrixKeypad
import GeminiLinux.Display.DsiHost
import GeminiLinux.Display.Panel
import GeminiLinux.Display.PanelCycles
import GeminiLinux.Phy.MipiTx
import GeminiLinux.Phy.PllSequence
import GeminiLinux.Lib.Utf8
import GeminiLinux.Phy.PllRate
import GeminiLinux.Scripts.PatchVendorCmdline
import GeminiLinux.Scripts.Toolchain
import GeminiLinux.Scripts.HeaderPage
import GeminiLinux.Pmdomain.Scpsys
import GeminiLinux.Touch.Range
import GeminiLinux.Touch.Slots
import GeminiLinux.Touch.Redelivery
import GeminiLinux.Scripts.RunOnce
import GeminiLinux.Scripts.SerialSession
import GeminiLinux.Lib.Folds
import GeminiLinux.Touch.Checksum
import GeminiLinux.Touch.Snl
import GeminiLinux.Consys.FirmwarePush
import GeminiLinux.Consys.Rollback
import GeminiLinux.Consys.EmiRemap
import GeminiLinux.Lib.Search
import GeminiLinux.Scripts.BuildPack
import GeminiLinux.Lib.LossyUtf8
import GeminiLinux.Scripts.TriageBootLog
import GeminiLinux.Scripts.PrintkStamps
import GeminiLinux.Scripts.BatteryMonitor
import GeminiLinux.Lib.Flash
import GeminiLinux.Touch.Firmware
import GeminiLinux.Touch.Seeprom
import GeminiLinux.Touch.SeepromUpdate
import GeminiLinux.Touch.SeepromHealthy
import GeminiLinux.Touch.SeepromBoot
import GeminiLinux.Lib.Digits
import GeminiLinux.Touch.FwFile
import GeminiLinux.Touch.FwFormat
import GeminiLinux.Touch.FwFileUpdate
import GeminiLinux.Lib.Ring
import GeminiLinux.Touch.RawQueue
import GeminiLinux.Baremetal.Uart
import GeminiLinux.Baremetal.Heartbeat
import GeminiLinux.Lib.Memory
import GeminiLinux.Baremetal.Vectors
import GeminiLinux.Usb.Fusb301
import GeminiLinux.Touch.VendorReport
import GeminiLinux.Touch.VendorKeys
import GeminiLinux.Touch.VendorContacts
import GeminiLinux.Touch.VendorPoints
import GeminiLinux.Touch.Ported
import GeminiLinux.Lib.Tally
import GeminiLinux.Touch.WorkLock
import GeminiLinux.Touch.WorkProcedure
import GeminiLinux.Touch.RawWork
import GeminiLinux.Touch.RawFrames
import GeminiLinux.Lib.Batches
import GeminiLinux.Touch.MpTest
