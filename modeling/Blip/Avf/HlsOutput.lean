import Blip.Avf.Hls
import Mathlib.Data.List.Induction

/-!
# The output of an HLS recording

What is written, published and reported over any sequence of segments that AVFoundation hands over,
where the disk may fail at any step: segments are numbered without a gap, a playlist lists those on
disk, and assets are reported in the order in which they are written.
-/

namespace Blip.Avf

open Stateful SinkM

/-! ## The log -/

/-- A media segment written: its number, its data and its duration. -/
def OutputAction.segment : OutputAction → Option (ℕ × List UInt8 × Duration)
  | wroteSegment index data duration => some (index, data, duration)
  | _ => none

/-- An asset written: its name and its data. -/
def OutputAction.written : OutputAction → Option (String × List UInt8)
  | wroteInitialization data => some (initializationSegmentName, data)
  | wroteSegment index data _ => some (segmentName index, data)
  | _ => none

/-- An asset reported. -/
def OutputAction.reportedAsset : OutputAction → Option String
  | reported asset => some asset
  | _ => none

abbrev OutputLog := List OutputEvent

namespace OutputLog

/-- The media segments written, in order. -/
def segments (log : OutputLog) : List (ℕ × List UInt8 × Duration) :=
  log.filterMap fun event => event.action.segment

def durations (log : OutputLog) : List Duration := (segments log).map fun segment => segment.2.2

/-- The assets written, in order. -/
def written (log : OutputLog) : List (String × List UInt8) :=
  log.filterMap fun event => event.action.written

/-- The assets reported, in order. -/
def reported (log : OutputLog) : List String :=
  log.filterMap fun event => event.action.reportedAsset

/-- Whether the initialization segment is written. -/
def initialized (log : OutputLog) : Bool :=
  log.any fun event => event.action matches .wroteInitialization _

end OutputLog

open OutputLog

/-- An event fits what happened before it: segments take the next number, a playlist lists the
segments so far and they are on disk with it, and what is reported is the one asset that is written
and not reported yet, on disk and listed if there is a playlist. -/
def OutputEvent.Fits (configured : Duration) (before : OutputLog) (event : OutputEvent) : Prop :=
  match event.action with
  | .wroteInitialization data =>
    event.files initializationSegmentName = some (.data data)
  | .wroteSegment index data _ =>
    index = (segments before).length ∧ event.files (segmentName index) = some (.data data)
  | .published text =>
    (∃ finished, text = playlist configured (durations before) finished) ∧
      event.files playlistName = some (.text text) ∧
      (∃ data, event.files initializationSegmentName = some (.data data)) ∧
      ∀ segment ∈ segments before, event.files (segmentName segment.1) = some (.data segment.2.1)
  | .reported asset =>
    (written before).map Prod.fst = OutputLog.reported before ++ [asset] ∧
      (∀ data, (written before).getLast? = some (asset, data) →
        event.files asset = some (.data data)) ∧
      (initialized before = true →
        ∃ finished,
          event.files playlistName = some (.text (playlist configured (durations before) finished)))

/-- Every event of a log fits. -/
def OutputLog.Fits (configured : Duration) (log : OutputLog) : Prop :=
  ∀ before event after, log = before ++ event :: after → event.Fits configured before

variable {configured : Duration}

theorem OutputLog.Fits.snoc {log : OutputLog} {event : OutputEvent} (h : Fits configured log)
    (hevent : event.Fits configured log) : Fits configured (log ++ [event]) := by
  intro before other after heq
  rcases List.eq_nil_or_concat after with rfl | ⟨after, last, rfl⟩
  · obtain ⟨rfl, hlast⟩ := List.append_inj' heq rfl
    obtain rfl := List.singleton_inj.1 hlast
    exact hevent
  · rw [List.concat_eq_append, ← List.cons_append, ← List.append_assoc] at heq
    exact h before other after (List.append_inj' heq rfl).1

section

variable (log : OutputLog) (files : Files)

@[simp] theorem segments_snoc (event : OutputEvent) :
    segments (log ++ [event]) = segments log ++ event.action.segment.toList := by
  rw [segments, List.filterMap_append, segments]
  cases h : event.action.segment <;> simp [h]

@[simp] theorem written_snoc (event : OutputEvent) :
    written (log ++ [event]) = written log ++ event.action.written.toList := by
  rw [written, List.filterMap_append, written]
  cases h : event.action.written <;> simp [h]

@[simp] theorem reported_snoc (event : OutputEvent) :
    OutputLog.reported (log ++ [event]) =
      OutputLog.reported log ++ event.action.reportedAsset.toList := by
  rw [OutputLog.reported, List.filterMap_append, OutputLog.reported]
  cases h : event.action.reportedAsset <;> simp [h]

@[simp] theorem initialized_snoc (event : OutputEvent) :
    initialized (log ++ [event]) =
      (initialized log || event.action matches .wroteInitialization _) := by
  rw [initialized, List.any_append, initialized]
  simp

end

/-! ## Names -/

/-- Reading the digits of a number in front of which zeros stand. -/
theorem ofDigitChars_leftpad (width index : ℕ) :
    Nat.ofDigitChars 10 ((Nat.toDigits 10 index).leftpad width '0') 0 = index := by
  simp [List.leftpad, Nat.ofDigitChars_append]

theorem segmentName_injective : Function.Injective segmentName := by
  intro left right h
  rw [segmentName, segmentName, String.append_left_inj, String.append_right_inj,
    String.ofList_inj] at h
  have hread := congrArg (Nat.ofDigitChars 10 · 0) h
  rwa [ofDigitChars_leftpad, ofDigitChars_leftpad] at hread

theorem segmentName_ne (index : ℕ) : segmentName index ≠ initializationSegmentName ∧
    segmentName index ≠ playlistName ∧ segmentName index ≠ temporaryName := by
  have hhead : (segmentName index).toList.head? = some 's' := by
    simp [segmentName]
  refine ⟨?_, ?_, ?_⟩ <;> intro h <;> rw [h] at hhead <;> exact absurd hhead (by decide)

theorem names_ne : initializationSegmentName ≠ playlistName ∧
    initializationSegmentName ≠ temporaryName ∧ playlistName ≠ temporaryName := by
  decide

/-! ## One segment -/

/-- The output while the disk has not failed: the sink shows what the log says, and so does the
disk. -/
structure HlsOutput.Writing (configured : Duration) (output : HlsOutput) : Prop where
  sink : output.sink =
    { configuredSegmentDuration := configured
      segmentDurations := durations output.log
      assetCallback := true
      initialized := initialized output.log
      finished := output.sink.finished
      error := none }
  numbered : (segments output.log).map Prod.fst = List.range (segments output.log).length
  fits : Fits configured output.log
  segmentsOnDisk : ∀ segment ∈ segments output.log,
    output.files (segmentName segment.1) = some (.data segment.2.1)
  initializationOnDisk : initialized output.log = true →
    ∃ data, output.files initializationSegmentName = some (.data data)

/-- What a log is like after any number of segments. -/
structure OutputLog.Sound (configured : Duration) (log : OutputLog) : Prop where
  numbered : (segments log).map Prod.fst = List.range (segments log).length
  fits : Fits configured log

theorem HlsOutput.Writing.sound {output : HlsOutput} (h : output.Writing configured) :
    OutputLog.Sound configured output.log :=
  ⟨h.numbered, h.fits⟩

variable {output : HlsOutput}

theorem holds_write {name : String} {content : FileContent} {answer : WriteAnswer}
    {Q : Except String Unit → HlsOutput → Prop}
    (hwritten : Q (.ok ())
      { output with files := Function.update output.files name (some content) })
    (hfailed : ∀ message files, Q (.error message) { output with files }) :
    Holds (write name content answer) output Q := by
  cases answer with
  | written => exact hwritten
  | failed message left =>
    cases left with
    | none => exact hfailed message output.files
    | some left => exact hfailed message _

theorem holds_sink_bind {α : Type} {f : PlaylistSink → SinkM α}
    {Q : Except String α → HlsOutput → Prop} :
    Holds (sink >>= f) output Q ↔ Holds (f output.sink) output Q := Iff.rfl

/-- The recorded media segments of a log. -/
def OutputLog.recorded (log : OutputLog) : List (List UInt8 × Duration) :=
  (segments log).map Prod.snd

/-- What a delivery records, if it is a media segment. -/
def Delivery.recording (configured : Duration) (delivery : Delivery) :
    Option (List UInt8 × Duration) :=
  match delivery.segmentType with
  | .separable => some (delivery.data, (reportDuration delivery.report).getD configured)
  | _ => none

/-- Every asset written is reported. -/
def OutputLog.Settled (log : OutputLog) : Prop :=
  (written log).map Prod.fst = OutputLog.reported log

/-- An asset is written and the one that is not reported yet. -/
def HlsOutput.Pending (output : HlsOutput) (asset : String) (data : List UInt8) : Prop :=
  (∃ before, written output.log = before ++ [(asset, data)] ∧
    before.map Prod.fst = OutputLog.reported output.log) ∧
    output.files asset = some (.data data) ∧ asset ≠ playlistName ∧ asset ≠ temporaryName

section writing

variable {output' : HlsOutput}

/-- Writing the initialization segment. -/
theorem HlsOutput.Writing.initialization (h : output.Writing configured) {data : List UInt8}
    (hsink : output'.sink = { output.sink with initialized := true })
    (hfiles : output'.files =
      Function.update output.files initializationSegmentName (some (.data data)))
    (hlog : output'.log = output.log ++ [⟨.wroteInitialization data, output'.files⟩]) :
    output'.Writing configured := by
  have hsegments : segments output'.log = segments output.log := by
    rw [hlog, segments_snoc]
    exact List.append_nil _
  have hwritten : output'.files initializationSegmentName = some (.data data) := by
    rw [hfiles, Function.update_self]
  refine ⟨?_, ?_, ?_, fun segment hsegment => ?_, fun _ => ⟨data, hwritten⟩⟩
  · rw [hsink, h.sink, durations, durations, hsegments, hlog, initialized_snoc]
    simp
  · rw [hsegments]
    exact h.numbered
  · rw [hlog]
    exact h.fits.snoc hwritten
  · rw [hsegments] at hsegment
    rw [hfiles, Function.update_of_ne (segmentName_ne segment.1).1]
    exact h.segmentsOnDisk segment hsegment

/-- Writing a media segment. -/
theorem HlsOutput.Writing.segment (h : output.Writing configured) {data : List UInt8}
    {duration : Duration}
    (hsink : output'.sink =
      { output.sink with segmentDurations := output.sink.segmentDurations ++ [duration] })
    (hfiles : output'.files = Function.update output.files
      (segmentName (segments output.log).length) (some (.data data)))
    (hlog : output'.log = output.log ++
      [⟨.wroteSegment (segments output.log).length data duration, output'.files⟩]) :
    output'.Writing configured := by
  have hsegments : segments output'.log =
      segments output.log ++ [((segments output.log).length, data, duration)] := by
    rw [hlog, segments_snoc]
    rfl
  have hinitialized : initialized output'.log = initialized output.log := by
    rw [hlog, initialized_snoc]
    simp
  have hwritten : output'.files (segmentName (segments output.log).length) =
      some (.data data) := by
    rw [hfiles, Function.update_self]
  refine ⟨?_, ?_, ?_, fun segment hsegment => ?_, fun hinit => ?_⟩
  · rw [hsink, h.sink, durations, durations, hsegments, hinitialized, List.map_append]
    rfl
  · rw [hsegments, List.map_append, h.numbered, List.length_append, List.length_singleton,
      List.range_succ]
    rfl
  · rw [hlog]
    exact h.fits.snoc ⟨rfl, hwritten⟩
  · rw [hsegments] at hsegment
    rcases List.mem_append.1 hsegment with hsegment | hsegment
    · -- Its number is below the new one, so it is another file.
      have hnumber : segment.1 ∈ List.range (segments output.log).length := by
        rw [← h.numbered]
        exact List.mem_map_of_mem hsegment
      have hne : segmentName segment.1 ≠ segmentName (segments output.log).length := fun heq =>
        absurd (segmentName_injective heq) (List.mem_range.1 hnumber).ne
      rw [hfiles, Function.update_of_ne hne]
      exact h.segmentsOnDisk segment hsegment
    · obtain rfl := List.mem_singleton.1 hsegment
      exact hwritten
  · rw [hinitialized] at hinit
    obtain ⟨data, hdata⟩ := h.initializationOnDisk hinit
    refine ⟨data, ?_⟩
    rw [hfiles, Function.update_of_ne (segmentName_ne _).1.symm]
    exact hdata

/-- Publishing the playlist. -/
theorem HlsOutput.Writing.publish (h : output.Writing configured)
    (hinit : initialized output.log = true) (hsink : output'.sink = output.sink)
    (hpublished : output'.files playlistName =
      some (.text (playlist configured (durations output.log) output.sink.finished)))
    (hother : ∀ name, name ≠ playlistName → name ≠ temporaryName →
      output'.files name = output.files name)
    (hlog : output'.log = output.log ++
      [⟨.published (playlist configured (durations output.log) output.sink.finished),
        output'.files⟩]) :
    output'.Writing configured := by
  have hsegments : segments output'.log = segments output.log := by
    rw [hlog, segments_snoc]
    exact List.append_nil _
  have hinitialized : initialized output'.log = initialized output.log := by
    rw [hlog, initialized_snoc]
    simp
  have hsegmentsOnDisk : ∀ segment ∈ segments output.log,
      output'.files (segmentName segment.1) = some (.data segment.2.1) := fun segment hsegment => by
    rw [hother _ (segmentName_ne segment.1).2.1 (segmentName_ne segment.1).2.2]
    exact h.segmentsOnDisk segment hsegment
  have hinitializationOnDisk : ∃ data,
      output'.files initializationSegmentName = some (.data data) := by
    rw [hother _ names_ne.1 names_ne.2.1]
    exact h.initializationOnDisk hinit
  refine ⟨?_, ?_, ?_, ?_, fun _ => hinitializationOnDisk⟩
  · rw [hsink, h.sink, durations, durations, hsegments, hinitialized]
  · rw [hsegments]
    exact h.numbered
  · rw [hlog]
    exact h.fits.snoc ⟨⟨_, rfl⟩, hpublished, hinitializationOnDisk, hsegmentsOnDisk⟩
  · rw [hsegments]
    exact hsegmentsOnDisk

/-- Reporting the asset that is not reported yet. -/
theorem HlsOutput.Writing.report (h : output.Writing configured) {asset : String}
    {data : List UInt8} (hpending : output.Pending asset data)
    (hlisted : initialized output.log = true → ∃ finished, output.files playlistName =
      some (.text (playlist configured (durations output.log) finished)))
    (hsink : output'.sink = output.sink) (hfiles : output'.files = output.files)
    (hlog : output'.log = output.log ++ [⟨.reported asset, output'.files⟩]) :
    output'.Writing configured ∧ Settled output'.log := by
  obtain ⟨⟨before, hwritten, hreported⟩, hdata, -⟩ := hpending
  have hsegments : segments output'.log = segments output.log := by
    rw [hlog, segments_snoc]
    exact List.append_nil _
  have hinitialized : initialized output'.log = initialized output.log := by
    rw [hlog, initialized_snoc]
    simp
  have hnames : (written output.log).map Prod.fst = OutputLog.reported output.log ++ [asset] := by
    rw [hwritten, List.map_append, hreported]
    rfl
  refine ⟨⟨?_, ?_, ?_, ?_, ?_⟩, ?_⟩
  · rw [hsink, h.sink, durations, durations, hsegments, hinitialized]
  · rw [hsegments]
    exact h.numbered
  · rw [hlog]
    refine h.fits.snoc ⟨hnames, fun last hlast => ?_, fun hinit => ?_⟩
    · rw [hwritten, List.getLast?_concat, Option.some.injEq, Prod.mk.injEq] at hlast
      rw [hfiles, ← hlast.2]
      exact hdata
    · rw [hfiles]
      exact hlisted hinit
  · rw [hsegments, hfiles]
    exact h.segmentsOnDisk
  · rw [hinitialized, hfiles]
    exact h.initializationOnDisk
  · rw [Settled, hlog, written_snoc, reported_snoc]
    change List.map Prod.fst (written output.log ++ []) = _
    rw [List.append_nil, hnames]
    rfl

end writing

/-- What writing an asset leaves: an asset to report, nothing new, or a failure before anything is
written. -/
theorem HlsOutput.Writing.holds_writeAsset (h : output.Writing configured)
    (hsettled : Settled output.log) (delivery : Delivery) :
    Holds (writeAsset delivery) output fun
      | .ok (some asset), output' => output'.Writing configured ∧
        output'.Pending asset delivery.data ∧
        recorded output'.log = recorded output.log ++ (delivery.recording configured).toList
      | .ok none, output' => output' = output ∧ delivery.recording configured = none
      | .error _, output' => output'.log = output.log := by
  -- an action that writes an asset leaves it to be reported
  have hpending : ∀ (output' : HlsOutput) (action : OutputAction) (asset : String),
      action.written = some (asset, delivery.data) → action.reportedAsset = none →
        output'.log = output.log ++ [⟨action, output'.files⟩] →
          output'.files asset = some (.data delivery.data) →
            asset ≠ playlistName ∧ asset ≠ temporaryName →
              output'.Pending asset delivery.data := by
    intro output' action asset hwritten hreported hlog hfile hname
    refine ⟨⟨written output.log, ?_, ?_⟩, hfile, hname⟩
    · rw [hlog, written_snoc, hwritten]
      rfl
    · rw [hlog, reported_snoc, hreported]
      exact hsettled.trans (List.append_nil _).symm
  rw [writeAsset]
  split
  · rename_i htype
    refine holds_bind.2 (holds_write ?_ fun _ _ => rfl)
    let next : HlsOutput :=
      { sink := { output.sink with initialized := true }
        files := Function.update output.files initializationSegmentName (some (.data delivery.data))
        log := output.log ++ [⟨.wroteInitialization delivery.data, Function.update output.files
          initializationSegmentName (some (.data delivery.data))⟩] }
    have hnext : next.Pending initializationSegmentName delivery.data :=
      hpending next (.wroteInitialization delivery.data) _ rfl rfl rfl (by simp [next])
        ⟨names_ne.1, names_ne.2.1⟩
    have hrecorded : recorded next.log =
        recorded output.log ++ (delivery.recording configured).toList := by
      rw [Delivery.recording, htype]
      simp [next, recorded, OutputAction.segment]
    exact ⟨h.initialization rfl rfl rfl, hnext, hrecorded⟩
  · rename_i htype
    have hlength : output.sink.segmentDurations.length = (segments output.log).length := by
      rw [h.sink, durations, List.length_map]
    have hconfigured : output.sink.configuredSegmentDuration = configured := by rw [h.sink]
    refine holds_sink_bind.2 ?_
    rw [hlength]
    refine holds_bind.2 (holds_write ?_ fun _ _ => rfl)
    let duration := (reportDuration delivery.report).getD output.sink.configuredSegmentDuration
    let name := segmentName (segments output.log).length
    let next : HlsOutput :=
      { sink :=
          { output.sink with segmentDurations := output.sink.segmentDurations ++ [duration] }
        files := Function.update output.files name (some (.data delivery.data))
        log := output.log ++ [⟨.wroteSegment (segments output.log).length delivery.data duration,
          Function.update output.files name (some (.data delivery.data))⟩] }
    have hnext : next.Pending name delivery.data :=
      hpending next (.wroteSegment _ delivery.data duration) _ rfl rfl rfl (by simp [next])
        (segmentName_ne _).2
    have hrecorded : recorded next.log =
        recorded output.log ++ (delivery.recording configured).toList := by
      rw [Delivery.recording, htype, ← hconfigured]
      simp [next, recorded, OutputAction.segment, duration]
    exact ⟨h.segment rfl rfl rfl, hnext, hrecorded⟩
  · rename_i htype
    exact ⟨rfl, by rw [Delivery.recording, htype]⟩

/-- What writing a playlist leaves: nothing new without an initialization segment, else the playlist
published, or a failure. -/
theorem holds_writePlaylist (output : HlsOutput) (answers : PlaylistAnswers) :
    Holds (writePlaylist answers) output fun
      | .ok _, output' => if output.sink.initialized then
          let text := playlist output.sink.configuredSegmentDuration output.sink.segmentDurations
            output.sink.finished
          output'.sink = output.sink ∧
            output'.log = output.log ++ [⟨.published text, output'.files⟩] ∧
            output'.files playlistName = some (.text text) ∧
            ∀ name, name ≠ playlistName → name ≠ temporaryName →
              output'.files name = output.files name
        else output' = output
      | .error _, output' => output'.log = output.log := by
  rw [writePlaylist]
  refine holds_sink_bind.2 ?_
  rw [holds_ite]
  split
  · rename_i hinit
    refine holds_sink_bind.2 (holds_sink_bind.2 (holds_sink_bind.2 ?_))
    generalize playlist _ _ _ = text
    refine holds_bind.2 (holds_write ?_ fun _ _ => rfl)
    cases hrename : answers.rename with
    | some message => exact rfl
    | none =>
      let written := Function.update output.files temporaryName (some (.text text))
      let next : HlsOutput :=
        { sink := output.sink
          files := Function.update (Function.update written temporaryName none) playlistName
            (written temporaryName)
          log := output.log ++ [⟨.published text, Function.update
            (Function.update written temporaryName none) playlistName (written temporaryName)⟩] }
      have hpublished : next.files playlistName = some (.text text) := by simp [next, written]
      have hother : ∀ name, name ≠ playlistName → name ≠ temporaryName →
          next.files name = output.files name := fun name hplaylist htemporary => by
        simp [next, written, hplaylist, htemporary]
      exact (show next.sink = output.sink ∧ next.log = _ ∧ _ from ⟨rfl, rfl, hpublished, hother⟩)
  · exact rfl

/-- What writing the playlist leaves while the disk has not failed. -/
theorem HlsOutput.Writing.holds_writePlaylist (h : output.Writing configured)
    (answers : PlaylistAnswers) :
    Holds (writePlaylist answers) output fun
      | .ok _, output' => output'.Writing configured ∧
        (initialized output'.log = true → ∃ finished, output'.files playlistName =
          some (.text (playlist configured (durations output'.log) finished))) ∧
        written output'.log = written output.log ∧
        OutputLog.reported output'.log = OutputLog.reported output.log ∧
        segments output'.log = segments output.log ∧
        ∀ name, name ≠ playlistName → name ≠ temporaryName →
          output'.files name = output.files name
      | .error _, output' => output'.log = output.log := by
  refine (Avf.holds_writePlaylist output answers).mono fun result output' hresult => ?_
  cases result with
  | error message => exact hresult
  | ok =>
    have hinit : output.sink.initialized = initialized output.log := by rw [h.sink]
    have htext : playlist output.sink.configuredSegmentDuration output.sink.segmentDurations
        output.sink.finished = playlist configured (durations output.log) output.sink.finished := by
      rw [h.sink]
    dsimp only at hresult
    rw [hinit, htext] at hresult
    split at hresult
    · rename_i hinit
      obtain ⟨hsink, hlog, hpublished, hother⟩ := hresult
      have hsegments : segments output'.log = segments output.log := by
        rw [hlog, segments_snoc]
        exact List.append_nil _
      refine ⟨h.publish hinit hsink hpublished hother hlog, fun _ => ?_, ?_, ?_, hsegments, hother⟩
      · rw [durations, hsegments]
        exact ⟨_, hpublished⟩
      · rw [hlog, written_snoc]
        exact List.append_nil _
      · rw [hlog, reported_snoc]
        exact List.append_nil _
    · rename_i hinit
      subst hresult
      exact ⟨h, fun htrue => absurd htrue hinit, rfl, rfl, rfl, fun _ _ _ => rfl⟩

/-- What one segment leaves: everything written and reported, or a failure after an asset at most. -/
theorem HlsOutput.Writing.holds_writeSegment (h : output.Writing configured)
    (hsettled : Settled output.log) (delivery : Delivery) :
    Holds (writeSegment delivery) output fun
      | .ok _, output' => output'.Writing configured ∧ Settled output'.log ∧
        recorded output'.log = recorded output.log ++ (delivery.recording configured).toList
      | .error _, output' => Sound configured output'.log ∧
        (Settled output'.log ∨ ∃ asset,
          (written output'.log).map Prod.fst = OutputLog.reported output'.log ++ [asset]) ∧
        recorded output'.log <+: recorded output.log ++ (delivery.recording configured).toList := by
  rw [writeSegment]
  refine (h.holds_writeAsset hsettled delivery).bind (fun asset output₁ h₁ => ?_)
    fun message output₁ h₁ => ?_
  · cases asset with
    | none =>
      -- without an asset only the playlist is written
      obtain ⟨rfl, hrecording⟩ := h₁
      refine (h.holds_writePlaylist delivery.playlist).bind (fun _ output₂ h₂ => ?_)
        fun message output₂ h₂ => ?_
      · obtain ⟨hwriting, -, hwritten, hreported, hsegments, -⟩ := h₂
        have hsettled₂ : Settled output₂.log := by
          rw [Settled, hwritten, hreported]
          exact hsettled
        have hrecorded : recorded output₂.log =
            recorded output₁.log ++ (delivery.recording configured).toList := by
          rw [hrecording, recorded, hsegments]
          exact (List.append_nil _).symm
        exact ⟨hwriting, hsettled₂, hrecorded⟩
      · have h₂ : output₂.log = output₁.log := h₂
        refine ⟨?_, .inl ?_, ?_⟩ <;> rw [h₂]
        · exact h.sound
        · exact hsettled
        · exact List.prefix_append _ _
    | some asset =>
      obtain ⟨hwriting, hpending, hrecorded⟩ := h₁
      -- the asset is in its file and waits to be reported
      refine (hwriting.holds_writePlaylist delivery.playlist).bind (fun _ output₂ h₂ => ?_)
        fun message output₂ h₂ => ?_
      · obtain ⟨hwriting₂, hlisted, hwritten, hreported, hsegments, hother⟩ := h₂
        obtain ⟨⟨before, hbefore, hbeforeReported⟩, hdata, hplaylist, htemporary⟩ := hpending
        have hpending₂ : output₂.Pending asset delivery.data :=
          ⟨⟨before, by rw [hwritten, hbefore], by rw [hreported, hbeforeReported]⟩,
            by rw [hother asset hplaylist htemporary, hdata], hplaylist, htemporary⟩
        let next : HlsOutput :=
          { output₂ with log := output₂.log ++ [⟨.reported asset, output₂.files⟩] }
        have hnext : next.Writing configured ∧ Settled next.log :=
          hwriting₂.report hpending₂ hlisted rfl rfl rfl
        have hrecorded : recorded next.log =
            recorded output.log ++ (delivery.recording configured).toList := by
          rw [← hrecorded, recorded, recorded, ← hsegments]
          simp [next, OutputAction.segment]
        have hcallback : output₂.sink.assetCallback = true := by rw [hwriting₂.sink]
        refine holds_sink_bind.2 ?_
        rw [hcallback]
        exact ⟨hnext.1, hnext.2, hrecorded⟩
      · have h₂ : output₂.log = output₁.log := h₂
        obtain ⟨⟨before, hbefore, hreported⟩, -⟩ := hpending
        -- the playlist could not be written, so the asset is never reported
        refine ⟨?_, .inr ⟨asset, ?_⟩, ?_⟩ <;> rw [h₂]
        · exact hwriting.sound
        · rw [hbefore, List.map_append, hreported]
          rfl
        · exact hrecorded ▸ List.prefix_rfl
  · have h₁ : output₁.log = output.log := h₁
    refine ⟨?_, .inl ?_, ?_⟩ <;> rw [h₁]
    · exact h.sound
    · exact hsettled
    · exact List.prefix_append _ _

/-! ## Any number of segments -/

/-- What holds after some segments: all of them are written and reported while the disk has not
failed; after a failure the log stays as it was then. -/
def HlsOutput.After (configured : Duration) (deliveries : List Delivery) (output : HlsOutput) :
    Prop :=
  (output.Writing configured ∧ Settled output.log ∧
      recorded output.log = deliveries.filterMap (Delivery.recording configured)) ∨
    (output.sink.error.isSome = true ∧ Sound configured output.log ∧
      (Settled output.log ∨ ∃ asset,
        (written output.log).map Prod.fst = OutputLog.reported output.log ++ [asset]) ∧
      recorded output.log <+: deliveries.filterMap (Delivery.recording configured))

theorem HlsOutput.After.snoc {deliveries : List Delivery} (h : output.After configured deliveries)
    (delivery : Delivery) :
    (didOutputSegment delivery output).After configured (deliveries ++ [delivery]) := by
  have hrecordings : (deliveries ++ [delivery]).filterMap (Delivery.recording configured) =
      deliveries.filterMap (Delivery.recording configured) ++
        (delivery.recording configured).toList := by
    rw [List.filterMap_append]
    cases hrecording : delivery.recording configured <;> simp [hrecording]
  rcases h with ⟨hwriting, hsettled, hrecorded⟩ | ⟨herror, hsound, hreported, hrecorded⟩
  · have hnone : output.sink.error = none := by rw [hwriting.sink]
    rw [didOutputSegment, hnone]
    cases hcopy : delivery.copyData with
    | some message =>
      refine .inr ⟨rfl, hwriting.sound, .inl hsettled, ?_⟩
      rw [hrecordings, ← hrecorded]
      exact List.prefix_append _ _
    | none =>
      have hsegment := hwriting.holds_writeSegment hsettled delivery
      rw [Holds] at hsegment
      rcases houtcome : (writeSegment delivery).outcome output with ⟨message | _, output'⟩
      · rw [houtcome] at hsegment
        obtain ⟨hsound, hreported, hstart⟩ := hsegment
        refine .inr ⟨rfl, hsound, hreported, ?_⟩
        rw [hrecordings, ← hrecorded]
        exact hstart
      · rw [houtcome] at hsegment
        obtain ⟨hwriting, hsettled, hnew⟩ := hsegment
        refine .inl ⟨hwriting, hsettled, ?_⟩
        rw [hrecordings, ← hrecorded]
        exact hnew
  · rw [didOutputSegment, if_pos herror]
    refine .inr ⟨herror, hsound, hreported, hrecorded.trans ?_⟩
    rw [hrecordings]
    exact List.prefix_append _ _

theorem deliverAll_append (deliveries more : List Delivery) (output : HlsOutput) :
    deliverAll (deliveries ++ more) output = deliverAll more (deliverAll deliveries output) :=
  List.foldl_append

theorem after_deliverAll (configured : Duration) (deliveries : List Delivery) :
    (deliverAll deliveries (.new configured)).After configured deliveries := by
  induction deliveries using List.reverseRecOn with
  | nil =>
    refine .inl ⟨⟨rfl, rfl, ?_, fun _ h => absurd h List.not_mem_nil, nofun⟩, rfl, rfl⟩
    intro before event after h
    exact absurd h (by simp [deliverAll, HlsOutput.new])
  | append_singleton deliveries delivery ih =>
    rw [deliverAll_append]
    exact ih.snoc delivery

/-- After a failure nothing changes any more. -/
theorem deliverAll_error (herror : output.sink.error.isSome = true) (deliveries : List Delivery) :
    deliverAll deliveries output = output := by
  induction deliveries with
  | nil => rfl
  | cons delivery deliveries ih =>
    rw [deliverAll, List.foldl_cons, didOutputSegment, if_pos herror]
    exact ih

/-! ## The target duration -/

/-- A target duration in seconds: at least one, and no segment lasts longer, not as it is printed
either. -/
def TargetFor (target : ℕ) (durations : List Duration) : Prop :=
  1 ≤ target ∧ ∀ duration ∈ durations, duration.nanos ≤ target * 1000000000 ∧
    Duration.roundHalfEven (duration.asSecsF64 * 1000000) ≤ target * 1000000

/-- The longest duration that a `CMTime` may have, in nanoseconds. -/
def longestNanos : ℕ := 2 ^ 63 * 1000000000

theorem CmTime.seconds_le (time : CmTime) : time.seconds ≤ 2 ^ 63 := by
  have hvalue : (time.value : ℚ) ≤ 2 ^ 63 := by
    have hmax : time.value ≤ 2 ^ 63 := by
      have := time.isI64.2
      rw [i64Max] at this
      omega
    exact_mod_cast hmax
  rw [CmTime.seconds]
  rcases Nat.eq_zero_or_pos time.timescale with htimescale | htimescale
  · rw [htimescale, Nat.cast_zero, div_zero]
    positivity
  · have hone : (1 : ℚ) ≤ time.timescale := by exact_mod_cast htimescale
    refine (div_le_iff₀ (by linarith)).2 (hvalue.trans ?_)
    exact le_mul_of_one_le_right (by positivity) hone

theorem reportDuration_le {report : Option SegmentReport} {duration : Duration}
    (h : reportDuration report = some duration) : duration.nanos ≤ longestNanos := by
  rw [reportDuration] at h
  obtain ⟨report, -, h⟩ := Option.bind_eq_some_iff.1 h
  obtain ⟨track, -, h⟩ := Option.bind_eq_some_iff.1 h
  obtain ⟨time, -, h⟩ := Option.bind_eq_some_iff.1 h
  rw [Duration.tryFromSecsF64] at h
  split at h
  · exact absurd h nofun
  · rename_i hnonneg
    dsimp only at h
    split at h
    · obtain rfl := Option.some.inj h
      have hscaled : 0 ≤ time.seconds * 1000000000 := by linarith [not_lt.1 hnonneg]
      have herror := Duration.roundHalfEven_error hscaled
      have hupper := (abs_le.1 herror).2
      have hseconds := time.seconds_le
      have hlt : (Duration.roundHalfEven (time.seconds * 1000000000) : ℚ) < longestNanos + 1 := by
        rw [longestNanos]
        push_cast
        linarith
      exact Nat.lt_succ_iff.1 (by exact_mod_cast hlt)
    · exact absurd h nofun

theorem nanos_le_ceil (duration : Duration) :
    duration.nanos ≤
      (duration.asSecs + if duration.subsecNanos ≠ 0 then 1 else 0) * 1000000000 := by
  rw [Duration.asSecs, Duration.subsecNanos]
  split <;> omega

/-- The target duration of a playlist is one of its segments, whatever they last. -/
theorem targetFor_targetDuration (hconfigured : configured.nanos ≤ longestNanos)
    {durations : List Duration} (h : ∀ duration ∈ durations, duration.nanos ≤ longestNanos) :
    TargetFor (targetDuration configured durations) durations := by
  have hlongest : ∀ duration ∈ durations,
      duration.nanos ≤ targetDuration configured durations * 1000000000 := by
    intro duration hduration
    obtain ⟨longest, hmax⟩ := Option.ne_none_iff_exists'.1
      (mt List.max?_eq_none_iff.1 (List.ne_nil_of_mem hduration))
    have hle : duration.nanos ≤ longest.nanos := ((List.max?_eq_some_iff).1 hmax).2 duration hduration
    have hmem := (List.max?_eq_some_iff.1 hmax).1
    rw [targetDuration, hmax, Option.getD_some]
    generalize hmaximum : max longest configured = maximum
    have hmaximumLe : maximum.nanos ≤ longestNanos := by
      rcases max_choice longest configured with hchoice | hchoice <;>
        rw [← hmaximum, hchoice]
      · exact h longest hmem
      · exact hconfigured
    have hlongestLe : longest.nanos ≤ maximum.nanos := by
      rw [← hmaximum]
      exact Duration.le_def.1 (le_max_left longest configured)
    have hceil := nanos_le_ceil maximum
    have hsecs : maximum.asSecs ≤ 2 ^ 63 := by
      rw [Duration.asSecs]
      rw [longestNanos] at hmaximumLe
      omega
    rw [u64Max]
    split at hceil <;> rename_i hsubsec
    · rw [if_pos hsubsec]
      omega
    · rw [if_neg hsubsec]
      omega
  refine ⟨le_max_right _ _, fun duration hduration => ⟨hlongest duration hduration, ?_⟩⟩
  -- The target is a whole number of seconds, so rounding does not move the duration past it.
  have hle := hlongest duration hduration
  have hseconds : duration.asSecsF64 * 1000000 ≤
      (targetDuration configured durations * 1000000 : ℕ) := by
    rw [Duration.asSecsF64]
    have hcast : (duration.nanos : ℚ) ≤ targetDuration configured durations * 1000000000 := by
      exact_mod_cast hle
    push_cast
    linarith
  have hnonneg : 0 ≤ duration.asSecsF64 * 1000000 := by
    rw [Duration.asSecsF64]
    positivity
  have hupper := (abs_le.1 (Duration.roundHalfEven_error hnonneg)).2
  have hlt : (Duration.roundHalfEven (duration.asSecsF64 * 1000000) : ℚ) <
      (targetDuration configured durations * 1000000 : ℕ) + 1 := by linarith
  exact Nat.lt_succ_iff.1 (by exact_mod_cast hlt)

/-! ## After a failure -/

/-- AVFoundation may finish, but then the failure is looked at. -/
theorem holds_finish_error {writer : Writer} (hfinished : writer.finished = false)
    {answers : Answers} {error : WriterError} (hfailed : answers.errorAfter = .error error) :
    Holds (HlsWriter.finish answers) (writer, []) fun result _ => ∃ error, result = .error error := by
  have hstopped : ∀ (error : WriterError) (_ : Writer × List AvCall),
      ∃ message, (Except.error error : Except WriterError Unit) = .error message :=
    fun error _ => ⟨error, rfl⟩
  unfold HlsWriter.finish
  refine (show Holds WriterM.self (writer, []) fun result s => result = .ok writer from rfl).bind
    (fun self s hself => ?_) fun error s _ => hstopped error s
  obtain rfl := Except.ok.inj hself
  rw [holds_ite, if_neg (by rw [hfinished]; exact Bool.false_ne_true)]
  refine holds_bind_of_forall (fun writer s => ?_) hstopped
  cases writer.lastRelativeTimestampMicros with
  | none => exact ⟨_, rfl⟩
  | some lastTimestamp =>
    refine holds_bind_of_forall (fun _ s => holds_bind_of_forall (fun _ s => ?_) hstopped) hstopped
    refine holds_bind_of_forall (fun _ s => holds_bind_of_forall (fun _ s => ?_) hstopped) hstopped
    refine holds_bind_of_forall (fun _ s => ?_) hstopped
    rw [hfailed]
    exact ⟨error, rfl⟩

section failed

variable {error : String} (herror : output.sink.error = some error)
include herror

theorem checkError_error : checkError output = .error (.hlsOutput error) := by
  rw [checkError, herror]

theorem appendOver_error (timestamp : Duration) (answers : Answers) (deliveries : List Delivery)
    (writer : Writer) :
    (HlsWriter.appendOver timestamp answers deliveries writer output).1 =
      .error (.hlsOutput error) := by
  rw [HlsWriter.appendOver, checkError_error herror]
  rfl

/-- Audio may still be turned away before the failure is looked at. -/
theorem appendAudioOver_error (timestamp : Duration) (answers : Answers)
    (deliveries : List Delivery) (writer : Writer) :
    (HlsWriter.appendAudioOver timestamp answers deliveries writer output).1 ≠ .ok true := by
  have hafter : deliverAll deliveries output = output :=
    deliverAll_error (by rw [herror]; rfl) deliveries
  rw [HlsWriter.appendAudioOver, hafter, checkError_error herror]
  generalize hanswers : { answers with errorAfter := .error (.hlsOutput error) } = failed
  have hfailed : failed.errorAfter = .error (.hlsOutput error) := by rw [← hanswers]
  suffices h : Holds (HlsWriter.appendAudio timestamp failed) (writer, ([] : List AvCall))
      fun result _ => result ≠ .ok true from h
  have hstopped : ∀ (message : WriterError) (_ : Writer × List AvCall),
      Except.error message ≠ (.ok true : Except WriterError Bool) := fun _ _ => nofun
  unfold HlsWriter.appendAudio
  refine holds_bind_of_forall (fun self s => ?_) hstopped
  rw [holds_ite]
  split
  · exact fun h => absurd (Except.ok.inj h) nofun
  rw [holds_ite]
  split
  · exact fun h => absurd (Except.ok.inj h) nofun
  refine holds_bind_of_forall (fun micros s => holds_bind_of_forall (fun self s => ?_) hstopped)
    hstopped
  cases self.startTimestampMicros with
  | none => exact nofun
  | some start =>
    refine holds_bind_of_forall (fun _ s => holds_bind_of_forall (fun _ s => ?_) hstopped) hstopped
    rw [holds_ite]
    split
    · exact nofun
    · rw [hfailed]
      exact nofun

theorem finishOver_error {writer : Writer} (hfinished : writer.finished = false)
    (answers : Answers) (deliveries : List Delivery) (playlistAnswers : PlaylistAnswers) :
    ∃ message, HlsWriter.finishOver answers deliveries playlistAnswers writer output =
      (.error message, output) := by
  have hafter : deliverAll deliveries output = output :=
    deliverAll_error (by rw [herror]; rfl) deliveries
  rw [HlsWriter.finishOver, hafter, checkError_error herror, hfinished]
  let failed : Answers :=
    { answers with
      errorAfter := .error (.hlsOutput error)
      finishPlaylist := .ok () }
  have hfailed : failed.errorAfter = .error (.hlsOutput error) := rfl
  obtain ⟨message, hmessage⟩ := holds_finish_error hfinished hfailed
  exact ⟨message, by rw [hmessage]⟩

end failed

/-! ## A whole recording -/

/-- What has happened after some segments: media segments are numbered from zero on and recorded as
they came, every event fits what happened before it, no segment lasts longer than the target
duration, and at most the last asset that is written is not reported. -/
structure OutputLog.Faithful (configured : Duration) (deliveries : List Delivery)
    (log : OutputLog) : Prop where
  numbered : (segments log).map Prod.fst = List.range (segments log).length
  recorded : recorded log <+: deliveries.filterMap (Delivery.recording configured)
  fits : Fits configured log
  target : ∀ before, before <+: log →
    TargetFor (targetDuration configured (durations before)) (durations before)
  reported : Settled log ∨
    ∃ asset, (written log).map Prod.fst = OutputLog.reported log ++ [asset]

theorem OutputLog.durations_eq (log : OutputLog) : durations log = (recorded log).map Prod.snd := by
  rw [durations, recorded, List.map_map]
  rfl

theorem Delivery.recording_le (hconfigured : configured.nanos ≤ longestNanos)
    {delivery : Delivery} {recording : List UInt8 × Duration}
    (h : delivery.recording configured = some recording) : recording.2.nanos ≤ longestNanos := by
  rw [Delivery.recording] at h
  split at h
  · obtain rfl := Option.some.inj h
    cases hreport : reportDuration delivery.report with
    | none => exact hconfigured
    | some duration => exact reportDuration_le hreport
  · exact absurd h nofun

theorem targetFor_of_recorded (hconfigured : configured.nanos ≤ longestNanos)
    {deliveries : List Delivery} {log before : OutputLog}
    (hrecorded : recorded log <+: deliveries.filterMap (Delivery.recording configured))
    (hbefore : before <+: log) :
    TargetFor (targetDuration configured (durations before)) (durations before) := by
  refine targetFor_targetDuration hconfigured fun duration hduration => ?_
  rw [OutputLog.durations_eq] at hduration
  obtain ⟨recording, hrecording, rfl⟩ := List.mem_map.1 hduration
  obtain ⟨segment, hsegment, rfl⟩ := List.mem_map.1 hrecording
  have hlog : segment ∈ segments log := (hbefore.filterMap _).subset hsegment
  obtain ⟨delivery, -, hdelivery⟩ :=
    List.mem_filterMap.1 (hrecorded.subset (List.mem_map_of_mem hlog))
  exact delivery.recording_le hconfigured hdelivery

theorem HlsOutput.After.faithful {deliveries : List Delivery}
    (h : output.After configured deliveries) (hconfigured : configured.nanos ≤ longestNanos) :
    Faithful configured deliveries output.log := by
  rcases h with ⟨hwriting, hsettled, hrecorded⟩ | ⟨-, hsound, hreported, hrecorded⟩
  · have hrecorded : recorded output.log <+:
        deliveries.filterMap (Delivery.recording configured) := hrecorded ▸ List.prefix_rfl
    exact ⟨hwriting.numbered, hrecorded, hwriting.fits,
      fun _ => targetFor_of_recorded hconfigured hrecorded, .inl hsettled⟩
  · exact ⟨hsound.numbered, hrecorded, hsound.fits,
      fun _ => targetFor_of_recorded hconfigured hrecorded, hreported⟩

/-- Finishing publishes a playlist at most, of all the segments. -/
theorem HlsOutput.After.finishPlaylist {deliveries : List Delivery}
    (h : output.After configured deliveries) (hconfigured : configured.nanos ≤ longestNanos)
    (answers : PlaylistAnswers) :
    Faithful configured deliveries (finishPlaylist answers output).2.log := by
  have hfaithful := h.faithful hconfigured
  rcases h with ⟨hwriting, hsettled, hrecorded⟩ | ⟨herror, -⟩
  · have hnone : output.sink.error = none := by rw [hwriting.sink]
    let finishing : HlsOutput := { output with sink := { output.sink with finished := true } }
    have hsink : finishing.sink = _ := congrArg ({ · with finished := true }) hwriting.sink
    have hfinishing : finishing.Writing configured :=
      ⟨hsink, hwriting.numbered, hwriting.fits, hwriting.segmentsOnDisk,
        hwriting.initializationOnDisk⟩
    have hplaylist := hfinishing.holds_writePlaylist answers
    rw [Holds] at hplaylist
    have heq : (Avf.finishPlaylist answers output).2 =
        ((writePlaylist answers).outcome finishing).2 := by
      rw [Avf.finishPlaylist, hnone]
      rcases (writePlaylist answers).outcome finishing with ⟨_ | _, output'⟩ <;> rfl
    rw [heq]
    generalize (writePlaylist answers).outcome finishing = outcome at hplaylist
    obtain ⟨message | _, output'⟩ := outcome
    · have hplaylist : output'.log = output.log := hplaylist
      rw [hplaylist]
      exact hfaithful
    · obtain ⟨hwriting', -, hwritten, hreported, hsegments, -⟩ := hplaylist
      have hsettled' : Settled output'.log := by
        rw [Settled, hwritten, hreported]
        exact hsettled
      have hrecorded' : recorded output'.log =
          deliveries.filterMap (Delivery.recording configured) := by
        rw [recorded, hsegments]
        exact hrecorded
      exact HlsOutput.After.faithful (.inl ⟨hwriting', hsettled', hrecorded'⟩) hconfigured
  · obtain ⟨error, herror⟩ := Option.isSome_iff_exists.1 herror
    rw [Avf.finishPlaylist, herror]
    exact hfaithful

theorem longest_of_asMicros (hconfigured : configured.asMicros ≤ i64Max) :
    configured.nanos ≤ longestNanos := by
  rw [Duration.asMicros, i64Max] at hconfigured
  rw [longestNanos]
  omega

/-- However finishing goes, the log stays faithful. -/
theorem faithful_finishOver (hconfigured : configured.nanos ≤ longestNanos)
    (deliveries later : List Delivery) (answers : Answers) (playlistAnswers : PlaylistAnswers)
    (writer : Writer) :
    Faithful configured (deliveries ++ later) (HlsWriter.finishOver answers later playlistAnswers
      writer (deliverAll deliveries (.new configured))).2.log := by
  have hlater := after_deliverAll configured (deliveries ++ later)
  rw [deliverAll_append] at hlater
  rw [HlsWriter.finishOver]
  split
  · exact hlater.finishPlaylist hconfigured playlistAnswers
  · exact hlater.faithful hconfigured

/-- A segment that is written, with the answers to publishing the playlist. -/
def Delivery.written (segmentType : SegmentType) (rename : Option String) : Delivery where
  segmentType
  report := none
  data := [0]
  copyData := none
  asset := .written
  playlist :=
    { temporary := .written
      rename }

end Blip.Avf
