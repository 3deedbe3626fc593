import PistormAtari.Foundation.Run
import PistormAtari.Foundation.WhileLoop
import PistormAtari.Foundation.BitScan
import PistormAtari.Foundation.PriorityArbiter
import PistormAtari.Foundation.BlockMemory
import PistormAtari.Foundation.Separators
import PistormAtari.Foundation.FirstFree
import PistormAtari.Foundation.PathTree
import PistormAtari.Foundation.SlotTable
import PistormAtari.Foundation.CText
import PistormAtari.Foundation.TextLines
import PistormAtari.Foundation.SectionEdit
import PistormAtari.Foundation.FrameSplit
import PistormAtari.Foundation.OpenFile
import PistormAtari.Foundation.PacketRing
import PistormAtari.Foundation.MailSlot
import PistormAtari.Foundation.CNumber
import PistormAtari.Foundation.BlockTable
import PistormAtari.Foundation.CheckedInt
import PistormAtari.Foundation.RowCopy
import PistormAtari.Foundation.WrapRing
import PistormAtari.Foundation.SessionRing
import PistormAtari.Foundation.RecordStream
import PistormAtari.Foundation.MirrorWindow
import PistormAtari.Foundation.SegmentCut
import PistormAtari.Foundation.BoundingBox
import PistormAtari.Foundation.EscapedRuns
import PistormAtari.Foundation.FileCells
import PistormAtari.Foundation.CyclicCount
import PistormAtari.Foundation.AddressRun
import PistormAtari.Foundation.Prescaler
import PistormAtari.Foundation.GapRing
import PistormAtari.Foundation.StrideCounter
import PistormAtari.Foundation.RunWindow
import PistormAtari.Foundation.AddressSteps
import PistormAtari.Foundation.PartialSpec
import PistormAtari.Foundation.BitCells
import PistormAtari.Foundation.UpwardCopy
import PistormAtari.Foundation.BrokenDownTime
import PistormAtari.Blitter.RegisterFile
import PistormAtari.Blitter.StBlitter
import PistormAtari.Blitter.StboxBlit
import PistormAtari.Blitter.SliceRefinement
import PistormAtari.Mfp.Hub
import PistormAtari.Mfp.Arbitration
import PistormAtari.Mfp.StboxMfp
import PistormAtari.Mfp.EventCount
import PistormAtari.Acsi.Target
import PistormAtari.Acsi.Command
import PistormAtari.Acsi.Handshake
import PistormAtari.Acsi.Framing
import PistormAtari.Acsi.StatusHistory
import PistormAtari.Acsi.CdbTransfer
import PistormAtari.Acsi.SectorImage
import PistormAtari.Acsi.RoundTrip
import PistormAtari.Acsi.DmaTrace
import PistormAtari.Acsi.DmaChunks
import PistormAtari.Hostdos.Names
import PistormAtari.Hostdos.HostFs
import PistormAtari.Hostdos.FsChange
import PistormAtari.Hostdos.DirMap
import PistormAtari.Hostdos.Paths
import PistormAtari.Hostdos.Engine
import PistormAtari.Hostdos.Calls
import PistormAtari.Hostdos.Effects
import PistormAtari.Hostdos.NameMap
import PistormAtari.Hostdos.CreatedNames
import PistormAtari.Hostdos.Untouched
import PistormAtari.Hostdos.Session
import PistormAtari.Hostdos.Confinement
import PistormAtari.Hostdos.ReadOnly
import PistormAtari.Hostdos.GuestMemory
import PistormAtari.Hostdos.Searches
import PistormAtari.Hostdos.ProgramLoad
import PistormAtari.Config.EmulatorConfig
import PistormAtari.Floppy.Drive
import PistormAtari.Psctrl.State
import PistormAtari.Psctrl.Items
import PistormAtari.Psctrl.Keys
import PistormAtari.Config.Save
import PistormAtari.Config.RenderedLines
import PistormAtari.Config.LineEditor
import PistormAtari.Config.SavedText
import PistormAtari.Config.FaithfulSave
import PistormAtari.Config.Tokens
import PistormAtari.Config.LineValues
import PistormAtari.Config.Loader
import PistormAtari.Config.QuietLines
import PistormAtari.Config.InertLines
import PistormAtari.Psctrl.SettingsCall
import PistormAtari.Psctrl.Rejections
import PistormAtari.Floppy.MsaDecode
import PistormAtari.Floppy.MsaArchive
import PistormAtari.Floppy.Fdc
import PistormAtari.Floppy.DriveSelect
import PistormAtari.Floppy.DriveState
import PistormAtari.Floppy.BlockStore
import PistormAtari.Floppy.DmaCounter
import PistormAtari.Ikbd.CommandFraming
import PistormAtari.Ikbd.RawDivert
import PistormAtari.Ikbd.UsbKeys
import PistormAtari.Ikbd.JoyUsb
import PistormAtari.Ikbd.Merge
import PistormAtari.Ikbd.AciaRescue
import PistormAtari.Ikbd.InjectionRing
import PistormAtari.Ikbd.MouseFlush
import PistormAtari.Ikbd.NativeMouse
import PistormAtari.Ikbd.AbsoluteButtons
import PistormAtari.Ide.Driver
import PistormAtari.Ide.Moves
import PistormAtari.Ide.Transfer
import PistormAtari.Ide.InRange
import PistormAtari.Ide.ByteOrder
import PistormAtari.Ide.SwappedImage
import PistormAtari.Ide.DataPhase
import PistormAtari.Network.PistormNet
import PistormAtari.Network.ReceiveSlot
import PistormAtari.Network.WindowReads
import PistormAtari.Setup.SetupCfg
import PistormAtari.Setup.SetupEnums
import PistormAtari.Setup.Values
import PistormAtari.Setup.SetupPage
import PistormAtari.Setup.PageLoop
import PistormAtari.Setup.IdlePolls
import PistormAtari.Setup.CfgLaws
import PistormAtari.Setup.SectionRemoval
import PistormAtari.Setup.JitRules
import PistormAtari.Setup.JitFollow
import PistormAtari.Setup.MapLaws
import PistormAtari.Setup.ReadBack
import PistormAtari.Setup.ShifterScreen
import PistormAtari.Setup.TextCells
import PistormAtari.Setup.ScreenFlush
import PistormAtari.Psvidel.VideoRam
import PistormAtari.Psvidel.Snapshot
import PistormAtari.Psvidel.SuperBlitter
import PistormAtari.Psvidel.BlitOverlap
import PistormAtari.Falcon.DspState
import PistormAtari.Falcon.HostPort
import PistormAtari.Falcon.HostFifos
import PistormAtari.Falcon.HostWords
import PistormAtari.Falcon.WholeWords
import PistormAtari.Falcon.HostCommands
import PistormAtari.Falcon.HostReset
import PistormAtari.Falcon.ResetEngine
import PistormAtari.Falcon.ResetRuns
import PistormAtari.Falcon.SoundDma
import PistormAtari.Falcon.RecordPass
import PistormAtari.Falcon.PlayPass
import PistormAtari.Falcon.Rtc
import PistormAtari.Falcon.RtcSettings
import PistormAtari.Dsp.State
import PistormAtari.Dsp.Registers
import PistormAtari.Dsp.AddressGeneration
import PistormAtari.Dsp.ModuloBuffers
import PistormAtari.Dsp.Alu
import PistormAtari.Dsp.Moves
import PistormAtari.Dsp.Execute
import PistormAtari.Dsp.Run
import PistormAtari.Dsp.AluRules
import PistormAtari.Dsp.DecoderRules
import PistormAtari.Dsp.Division
import PistormAtari.Dsp.Loads
import PistormAtari.Dsp.Representation
import PistormAtari.Dsp.LoopEnds
import PistormAtari.Dsp.LoopStack
import PistormAtari.Dsp.LoopInterrupts
import PistormAtari.Dsp.HardwareLoops
import PistormAtari.Services.SurfaceFetch
import PistormAtari.Services.DosClient
import PistormAtari.Services.Sessions
import PistormAtari.Services.Psdos
import PistormAtari.Services.KeysLetGo
import PistormAtari.Services.FrameHandover
import PistormAtari.Services.CommandStream
import PistormAtari.Natmem.BankTable
import PistormAtari.Natmem.HostPointers
import PistormAtari.Natmem.CodePages
import PistormAtari.Natmem.VideoRegs
import PistormAtari.Natmem.StRam
import PistormAtari.Natmem.StaleCode
import PistormAtari.Natmem.ShadowScreen
import PistormAtari.Natmem.FvdiDirty
import PistormAtari.Natmem.StramMmu
import PistormAtari.Natmem.StramPaths
import PistormAtari.Stbox.Timers
import PistormAtari.Stbox.Keyboard
import PistormAtari.Stbox.SerialLine
import PistormAtari.Stbox.KeyPackets
import PistormAtari.Stbox.Beam
import PistormAtari.Stbox.RamMap
import PistormAtari.Stbox.VideoCounter
import PistormAtari.Stbox.Fdc
import PistormAtari.Stbox.FdcWindow
import PistormAtari.Stbox.Pacing
import PistormAtari.Blitter.MaskedWrites
import PistormAtari.Gpio.PsProtocol
import PistormAtari.Cookies.MachineCookie
