import Blip.Audio.Mixer
import Blip.Audio.PreviewExport
import Blip.Audio.Resampler
import Blip.Audio.TimelineMix
import Blip.Avf.CameraFormats
import Blip.Avf.Decoder
import Blip.Avf.Hls
import Blip.Avf.HlsOutput
import Blip.Avf.PresentationTimes
import Blip.Avf.Timeline
import Blip.Avf.Writer
import Blip.Capture.Bundle
import Blip.Capture.BundleFiles
import Blip.Capture.BundleFrame
import Blip.Capture.CameraOverlay
import Blip.Capture.ContentRects
import Blip.Capture.CropDialog
import Blip.Capture.CropInvariant
import Blip.Capture.Editor
import Blip.Capture.EditorControls
import Blip.Capture.EditorDuration
import Blip.Capture.EditorEffects
import Blip.Capture.EditorInterface
import Blip.Capture.EditorInvariant
import Blip.Capture.EditorSteps
import Blip.Capture.EditorTimeMap
import Blip.Capture.ExportTimeline
import Blip.Capture.HlsUploadEnds
import Blip.Capture.HlsUploadRuns
import Blip.Capture.HlsUploads
import Blip.Capture.MediaTimes
import Blip.Capture.OutputFrame
import Blip.Capture.OutputPadding
import Blip.Capture.PlaybackAudio
import Blip.Capture.PreviewEffects
import Blip.Capture.PreviewPipeline
import Blip.Capture.PreviewRequests
import Blip.Capture.ProfileImports
import Blip.Capture.ProfileSettings
import Blip.Capture.ProfileStores
import Blip.Capture.Profiles
import Blip.Capture.RecordFailures
import Blip.Capture.RecordThreads
import Blip.Capture.Recording
import Blip.Capture.RecordingClocks
import Blip.Capture.RecordingSessions
import Blip.Capture.Region
import Blip.Capture.RegionBounds
import Blip.Capture.RegionInvariant
import Blip.Capture.SegmentTimeMap
import Blip.Capture.Segments
import Blip.Capture.Selection
import Blip.Capture.SessionsInvariant
import Blip.Capture.ShortZooms
import Blip.Capture.TimelineView
import Blip.Capture.UploadParts
import Blip.Capture.WallpaperInvariant
import Blip.Capture.WallpaperWaits
import Blip.Capture.WallpaperWorkers
import Blip.Capture.ZoomEasing
import Blip.Capture.ZoomInvariant
import Blip.Capture.ZoomJoins
import Blip.Capture.ZoomRanges
import Blip.Capture.ZoomTransform
import Blip.Common.Answers
import Blip.Common.Base64
import Blip.Common.BinaryRounding
import Blip.Common.Bisection
import Blip.Common.Chunks
import Blip.Common.CubicBezier
import Blip.Common.Duration
import Blip.Common.Files
import Blip.Common.Float32
import Blip.Common.Json
import Blip.Common.JsonStrings
import Blip.Common.KeepBest
import Blip.Common.Program
import Blip.Common.Protocol
import Blip.Common.PushLoops
import Blip.Common.Raise
import Blip.Common.Recency
import Blip.Common.Replace
import Blip.Common.Rounding
import Blip.Common.Splice
import Blip.Common.Stateful
import Blip.Common.System
import Blip.Common.TextCoding
import Blip.Common.TimeMap
import Blip.Common.Utf16
import Blip.Common.Utf8
import Blip.Hls.AssetNames
import Blip.Hls.PlaylistRewriting
import Blip.Sck.AudioPackets
import Blip.Server.AccessHistory
import Blip.Server.AssetMatches
import Blip.Server.Calls
import Blip.Server.Domain
import Blip.Server.Http
import Blip.Server.MediaAccess
import Blip.Server.Password
import Blip.Server.PrivacyRevocation
import Blip.Server.RecordKeys
import Blip.Server.RequestProtocol
import Blip.Server.TenantIsolation
import Blip.Server.Tenants
import Blip.Server.Text
import Blip.Server.UploadSafety
import Blip.Server.VerifiedHashes
import Blip.Server.VideosPolicy
import Blip.Server.WebCrypto
import Blip.Server.World
import Blip.SettingsStores
import Blip.Studio.Canvas
import Blip.Studio.Captures
import Blip.Studio.CornerRadius
import Blip.Studio.FrameHub
import Blip.Studio.FrameWakeups
import Blip.Studio.Inspector
import Blip.Studio.InspectorEdits
import Blip.Studio.LayoutNumbers
import Blip.Studio.MoveDrags
import Blip.Studio.Project
import Blip.Studio.ProjectFile
import Blip.Studio.ResizeDrags
import Blip.Studio.SavedProject
import Blip.Studio.Scene
import Blip.Studio.SceneDrags
import Blip.Studio.SceneRows
import Blip.Studio.SceneSlides
import Blip.Studio.Stage
import Blip.Studio.Viewer
import Blip.Ui.NumericEditing
import Blip.Ui.NumericInput
import Blip.Ui.NumericText
import Blip.Cli.Recorder
import Blip.Cli.RecorderRuns
import Blip.Capture.CameraPreview
import Blip.Capture.CameraPreviewRuns
import Blip.Capture.OutputRender
import Blip.Capture.PreviewFrameRuns
import Blip.Common.FirstUse
import Blip.Common.Rows
import Blip.Sck.SurfaceRows
import Blip.Studio.Compose
import Blip.Studio.PublishedFrames
import Blip.Studio.StreamRuns
import Blip.Studio.Headless
import Blip.Studio.HeadlessRuns
import Blip.Studio.SceneViewer
import Blip.Studio.SceneViewerRuns
