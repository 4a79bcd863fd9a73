import Blip.Avf.Writer
import Mathlib.Data.List.Defs

/-!
# Writing an HLS recording

The delegate that AVFoundation hands segments to and the `PlaylistSink` under it (`hls.rs`): they
write the segments and the playlist to a directory and report each asset. The disk is the
environment: `OutputAnswers` is what it answers during one call. Every write, every playlist
published and every report is kept in a log, with the directory as it is then.
-/

namespace Blip.Avf

/-- `PLAYLIST_NAME`. -/
def playlistName : String := "playlist.m3u8"

/-- `INITIALIZATION_SEGMENT_NAME`. -/
def initializationSegmentName : String := "init.mp4"

/-- `segment_name`. -/
def segmentName (index : ℕ) : String :=
  "segment" ++ String.ofList ((Nat.toDigits 10 index).leftpad 5 '0') ++ ".m4s"

/-- `AVAssetSegmentType`. -/
inductive SegmentType
  | initialization
  | separable
  | other
deriving DecidableEq, Repr

/-- A `CMTime`, if it is numeric: an `i64` of the given parts of a second. -/
structure CmTime where
  value : ℤ
  timescale : ℕ
  isI64 : IsI64 value

/-- `CMTimeGetSeconds` of a numeric time. -/
def CmTime.seconds (time : CmTime) : ℚ := time.value / time.timescale

/-- An `AVAssetSegmentReport`: the duration of each track, where it is numeric. -/
structure SegmentReport where
  trackDurations : List (Option CmTime)

/-- `report_duration`. -/
def reportDuration (report : Option SegmentReport) : Option Duration := do
  let report ← report
  let track ← report.trackDurations.head?
  Duration.tryFromSecsF64 (← track).seconds

/-! ## The playlist -/

/-- `{:.6}` of the seconds of a duration. -/
def sixDecimals (duration : Duration) : String :=
  let micros := Duration.roundHalfEven (duration.asSecsF64 * 1000000)
  toString (micros / 1000000) ++ "." ++
    String.ofList ((Nat.toDigits 10 (micros % 1000000)).leftpad 6 '0')

/-- `u64::MAX`. -/
def u64Max : ℕ := 2 ^ 64 - 1

/-- The target duration that `playlist` writes. -/
def targetDuration (configuredDuration : Duration) (segmentDurations : List Duration) : ℕ :=
  let maximumDuration := max (segmentDurations.max?.getD configuredDuration) configuredDuration
  let targetDuration :=
    min (maximumDuration.asSecs + if maximumDuration.subsecNanos ≠ 0 then 1 else 0) u64Max
  max targetDuration 1

/-- The lines of `playlist` about a segment. -/
def playlistEntry (index : ℕ) (duration : Duration) : String :=
  "#EXTINF:" ++ sixDecimals duration ++ ",\n" ++ segmentName index ++ "\n"

/-- The loop of `playlist` over the segments, from an index on. -/
def playlistEntries : ℕ → List Duration → String
  | _, [] => ""
  | index, duration :: durations =>
    playlistEntry index duration ++ playlistEntries (index + 1) durations

/-- `playlist`. -/
def playlist (configuredDuration : Duration) (segmentDurations : List Duration)
    (finished : Bool) : String :=
  "#EXTM3U\n#EXT-X-VERSION:7\n#EXT-X-TARGETDURATION:" ++
    toString (targetDuration configuredDuration segmentDurations) ++
    "\n#EXT-X-MEDIA-SEQUENCE:0\n#EXT-X-PLAYLIST-TYPE:" ++ (if finished then "VOD" else "EVENT") ++
    "\n#EXT-X-MAP:URI=\"" ++ initializationSegmentName ++ "\"\n" ++
    playlistEntries 0 segmentDurations ++ if finished then "#EXT-X-ENDLIST\n" else ""

/-! ## The sink -/

/-- What a file of the directory holds. -/
inductive FileContent
  | data (bytes : List UInt8)
  | text (text : String)
deriving DecidableEq, Repr

abbrev Files := String → Option FileContent

/-- What happens to the output. -/
inductive OutputAction
  | wroteInitialization (data : List UInt8)
  | wroteSegment (index : ℕ) (data : List UInt8) (duration : Duration)
  | published (playlist : String)
  | reported (asset : String)
deriving DecidableEq, Repr

structure OutputEvent where
  action : OutputAction
  /-- The directory right after it. -/
  files : Files

/-- The fields of a `PlaylistSink`, its directory apart; `assetCallback` tells whether there is
one. -/
structure PlaylistSink where
  configuredSegmentDuration : Duration
  segmentDurations : List Duration
  assetCallback : Bool
  initialized : Bool
  finished : Bool
  error : Option String
deriving DecidableEq, Repr

/-- The sink, its directory and what happened to it. -/
structure HlsOutput where
  sink : PlaylistSink
  files : Files
  log : List OutputEvent

/-- The sink that `PlaylistSink::new` gives, in an empty directory. -/
def HlsOutput.new (segmentDuration : Duration) : HlsOutput where
  sink :=
    { configuredSegmentDuration := segmentDuration
      segmentDurations := []
      assetCallback := true
      initialized := false
      finished := false
      error := none }
  files := fun _ => none
  log := []

/-- The answer to `fs::write`: one that fails may leave anything in the file, or leave it alone. -/
inductive WriteAnswer
  | written
  | failed (message : String) (left : Option FileContent)
deriving DecidableEq, Repr

/-- The answers during a call that writes the playlist; `rename` is the message of a failure. -/
structure PlaylistAnswers where
  temporary : WriteAnswer
  rename : Option String
deriving DecidableEq, Repr

abbrev SinkM (α : Type) := Stateful String HlsOutput α

namespace SinkM

def sink : SinkM PlaylistSink := do return (← get).sink

def modifySink (change : PlaylistSink → PlaylistSink) : SinkM Unit :=
  modify fun output => { output with sink := change output.sink }

/-- An entry of the log. -/
def note (action : OutputAction) : SinkM Unit :=
  modify fun output => { output with log := output.log ++ [⟨action, output.files⟩] }

def setFile (name : String) (content : Option FileContent) : SinkM Unit :=
  modify fun output => { output with files := Function.update output.files name content }

/-- `fs::write`. -/
def write (name : String) (content : FileContent) : WriteAnswer → SinkM Unit
  | .written => setFile name (some content)
  | .failed message none => throw message
  | .failed message (some left) => do
    setFile name (some left)
    throw message

/-- `fs::rename`. -/
def rename (source destination : String) : Option String → SinkM Unit
  | some message => throw message
  | none => do
    let content := (← get).files source
    setFile source none
    setFile destination content

end SinkM

open SinkM

/-- The name of the temporary file of the playlist. -/
def temporaryName : String := "." ++ playlistName ++ ".tmp"

/-- `PlaylistSink::write_playlist`. -/
def writePlaylist (answers : PlaylistAnswers) : SinkM Unit := do
  if (← sink).initialized then
    let playlist := playlist (← sink).configuredSegmentDuration (← sink).segmentDurations
      (← sink).finished
    write temporaryName (.text playlist) answers.temporary
    rename temporaryName playlistName answers.rename
    note (.published playlist)

/-- A segment that AVFoundation hands over, and the answers while it is written. `copyData` is the
message of a failure to copy it. -/
structure Delivery where
  segmentType : SegmentType
  report : Option SegmentReport
  data : List UInt8
  copyData : Option String
  asset : WriteAnswer
  playlist : PlaylistAnswers

/-- The part of `PlaylistSink::write_segment` that writes the segment: the name of its asset, if it
is one. -/
def writeAsset (delivery : Delivery) : SinkM (Option String) :=
  match delivery.segmentType with
  | .initialization => do
    write initializationSegmentName (.data delivery.data) delivery.asset
    modifySink fun sink => { sink with initialized := true }
    note (.wroteInitialization delivery.data)
    return some initializationSegmentName
  | .separable => do
    let index := (← sink).segmentDurations.length
    write (segmentName index) (.data delivery.data) delivery.asset
    let duration := (reportDuration delivery.report).getD (← sink).configuredSegmentDuration
    modifySink fun sink => { sink with segmentDurations := sink.segmentDurations ++ [duration] }
    note (.wroteSegment index delivery.data duration)
    return some (segmentName index)
  | .other => return none

/-- `PlaylistSink::write_segment`. -/
def writeSegment (delivery : Delivery) : SinkM Unit := do
  let asset ← writeAsset delivery
  writePlaylist delivery.playlist
  match asset with
  | some asset => if (← sink).assetCallback then note (.reported asset)
  | none => return

/-! ## The delegate -/

/-- `did_output_segment`. -/
def didOutputSegment (delivery : Delivery) (output : HlsOutput) : HlsOutput :=
  if output.sink.error.isSome then output
  else
    match delivery.copyData with
    | some message => { output with sink := { output.sink with error := some message } }
    | none =>
      match (writeSegment delivery).outcome output with
      | (.ok _, output) => output
      | (.error message, output) => { output with sink := { output.sink with error := some message } }

/-- `SegmentDelegate::check_error`. -/
def checkError (output : HlsOutput) : Except WriterError Unit :=
  match output.sink.error with
  | some error => .error (.hlsOutput error)
  | none => .ok ()

/-- `SegmentDelegate::finish_playlist`. -/
def finishPlaylist (answers : PlaylistAnswers) (output : HlsOutput) :
    Except WriterError Unit × HlsOutput :=
  match output.sink.error with
  | some error => (.error (.hlsOutput error), output)
  | none =>
    match (writePlaylist answers).outcome
        { output with sink := { output.sink with finished := true } } with
    | (.ok _, output) => (.ok (), output)
    | (.error message, output) => (.error (.output message), output)

/-! ## The writer over the delegate -/

/-- Segments handed over one after the other. -/
def deliverAll (deliveries : List Delivery) (output : HlsOutput) : HlsOutput :=
  deliveries.foldl (fun output delivery => didOutputSegment delivery output) output

/-- `HlsWriter::append`, with the segments handed over meanwhile. -/
def HlsWriter.appendOver (timestamp : Duration) (answers : Answers) (deliveries : List Delivery)
    (writer : Writer) (output : HlsOutput) : Except WriterError Bool × HlsOutput :=
  let after := deliverAll deliveries output
  let answers :=
    { answers with
      errorBefore := checkError output
      errorAfter := checkError after }
  (((HlsWriter.append timestamp answers).outcome (writer, [])).1, after)

/-- `HlsWriter::append_audio`, with the segments handed over meanwhile. -/
def HlsWriter.appendAudioOver (timestamp : Duration) (answers : Answers)
    (deliveries : List Delivery) (writer : Writer) (output : HlsOutput) :
    Except WriterError Bool × HlsOutput :=
  let after := deliverAll deliveries output
  let answers := { answers with errorAfter := checkError after }
  (((HlsWriter.appendAudio timestamp answers).outcome (writer, [])).1, after)

/-- `HlsWriter::finish`, with the segments handed over while AVFoundation finishes. -/
def HlsWriter.finishOver (answers : Answers) (deliveries : List Delivery)
    (playlistAnswers : PlaylistAnswers) (writer : Writer) (output : HlsOutput) :
    Except WriterError Unit × HlsOutput :=
  let after := deliverAll deliveries output
  let answers :=
    { answers with
      errorAfter := checkError after
      finishPlaylist := .ok () }
  match writer.finished, ((HlsWriter.finish answers).outcome (writer, [])).1 with
  | false, .ok () => finishPlaylist playlistAnswers after
  | _, result => (result, after)

end Blip.Avf
