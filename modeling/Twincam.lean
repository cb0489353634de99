import Twincam.Lib.Machine
import Twincam.Lib.Fifo
import Twincam.Lib.Numeral
import Twincam.Lib.Search
import Twincam.Lib.OpenFile
import Twincam.Lib.CString
import Twincam.Lib.StdString
import Twincam.Lib.Ledger
import Twincam.Lib.CallLog
import Twincam.Lib.Progress
import Twincam.Lib.HandleTable
import Twincam.Lib.CountLoop
import Twincam.Lib.Custody
import Twincam.Lib.Handoff
import Twincam.Errno
import Twincam.TwncmStdio
import Twincam.EventLoop
import Twincam.CamApp
import Twincam.PidFile
import Twincam.Udev
import Twincam.Libcamera
import Twincam.Drm
import Twincam.DrmResources
import Twincam.DrmListing
import Twincam.OpenCard
import Twincam.Options
import Twincam.DrmFrameBuffer
import Twincam.DrmAtomic
import Twincam.KmsSink
import Twincam.KmsMapBuffer
import Twincam.KmsPipeline
import Twincam.KmsRun
import Twincam.KmsScanout
import Twincam.KmsConfigure
import Twincam.KmsStop
import Twincam.KmsEnable
import Twincam.KmsFramebuffers
import Twincam.CameraAcquire
import Twincam.CameraSession
import Twincam.CaptureCycle
import Twincam.CaptureDrain
import Twincam.CaptureHistory
import Twincam.StartCapture
import Twincam.FirstFrame
import Twincam.FirstFrameDevice
import Twincam.Image
import Twincam.ImageMaps
import Twincam.FileSink
import Twincam.SdlSink
import Twincam.MappedBuffers
import Twincam.SyncCapture
import Twincam.SdlTextureMjpg
import Twincam.SdlTextureUpdate
import Twincam.SdlLife
import Twincam.SdlUpload
import Twincam.LoopEvents
import Twincam.SessionLife
