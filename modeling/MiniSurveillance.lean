import MiniSurveillance.RoundTrip
import MiniSurveillance.ParsersAgree
import MiniSurveillance.ParameterSets
import MiniSurveillance.FFmpegDecoder
import MiniSurveillance.OutputRuns
import MiniSurveillance.FlvTags
import MiniSurveillance.FlvFeed
import MiniSurveillance.FlvPlaces
import MiniSurveillance.PullThread
import MiniSurveillance.PushThreads
import MiniSurveillance.CaptureRuns
import MiniSurveillance.MainLinks
import MiniSurveillance.MainCalls
import MiniSurveillance.MainStatus
import MiniSurveillance.MainTalkWindow
import MiniSurveillance.DeviceTimer
import MiniSurveillance.ConfigCtrl
import MiniSurveillance.RecordPage
import MiniSurveillance.SenderQueue
import MiniSurveillance.FlvForward
import MiniSurveillance.FlvLeftBehind
import MiniSurveillance.RecordDownload
import MiniSurveillance.PlayUrl
import MiniSurveillance.LocalRecordDir
import MiniSurveillance.FFmpegEncode
import MiniSurveillance.AudioOutputs
import MiniSurveillance.AudioThread
import MiniSurveillance.MainPulls
import MiniSurveillance.SenderStamps
import MiniSurveillance.PacketBodies
import MiniSurveillance.FlvPacing
import MiniSurveillance.YuvConversion
import MiniSurveillance.QueueWaits
import MiniSurveillance.MainLifetime
import MiniSurveillance.FlvStepping
import MiniSurveillance.DecoderStream
import MiniSurveillance.RecordedStream
import MiniSurveillance.WindowPictures
import MiniSurveillance.SoundOutput
import MiniSurveillance.SentStream
import MiniSurveillance.Base.Agreement
import MiniSurveillance.Base.Utf8
import MiniSurveillance.JsonDump
import MiniSurveillance.JsonLexer
import MiniSurveillance.JsonParser
import MiniSurveillance.JsonRoundTrip
import MiniSurveillance.WireCalls
