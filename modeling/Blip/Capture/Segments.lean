import Mathlib.Data.List.Sort
import Blip.Capture.Bundle

/-!
# Segment lists: lookup, cuts, resizing, clipping and ripples

The free functions of `apps/blip-capture/src/editor.rs` on which every timeline edit is built. The
editor's own methods are in `Blip.Capture.Editor`.
-/

namespace Blip.Capture

/-- `MIN_VIDEO_SEGMENT_DURATION_SECS`. -/
def minVideoSegmentDurationSecs : Secs := 1

inductive VideoSegmentEdge
  | start
  | end
deriving DecidableEq, Repr

/-- `can_split_video_segment`: both parts keep at least the minimum duration. -/
def canSplitVideoSegment (durationSecs offsetSecs : Secs) : Bool :=
  decide (minVideoSegmentDurationSecs ≤ offsetSecs) &&
    decide (minVideoSegmentDurationSecs ≤ durationSecs - offsetSecs)

/-! ## Source lookup -/

/-- The loop of `source_time_at` over the remaining segments. -/
def sourceTimeIn : List VideoSegment → Secs → Option Secs
  | [], _ => none
  | segment :: rest, remaining =>
    let duration := segment.durationSecs
    -- the last segment also answers for times at or past the end
    if remaining < duration ∨ rest = [] then
      some (segment.sourceStartSecs + min remaining duration)
    else
      sourceTimeIn rest (remaining - duration)

/-- `source_time_at`: the source time shown at a timeline time. -/
def sourceTimeAt (bundle : BlipBundle) (timelineTimeSecs : Secs) : Option Secs :=
  match bundle.videoSegments with
  | none => none
  | some segments => sourceTimeIn segments (max timelineTimeSecs 0)

/-- `shared_source_range`: the range covered by every input, if it is not empty. -/
def sharedSourceRange : List (Secs × Secs) → Option (Secs × Secs)
  | [] => none
  | first :: ranges =>
    let shared := ranges.foldl (fun shared range => (max shared.1 range.1, min shared.2 range.2))
      first
    if shared.1 < shared.2 then some shared else none

/-! ## Ripples of the zoom segments -/

/-- The time map of `ripple_delete_ranges`: times inside the removed range collapse to its start. -/
def rippleDeleteTime (startSecs durationSecs timeSecs : Secs) : Secs :=
  if timeSecs ≤ startSecs then timeSecs
  else if startSecs + durationSecs ≤ timeSecs then timeSecs - durationSecs
  else startSecs

/-- Apply a time map to both ends of a zoom segment. -/
def ZoomSegment.mapTimes (mapStart mapEnd : Secs → Secs) (segment : ZoomSegment) : ZoomSegment :=
  { segment with startSecs := mapStart segment.startSecs, endSecs := mapEnd segment.endSecs }

/-- The length test `ripple_delete_ranges` retains a zoom segment by. -/
def ZoomSegment.survives (segment : ZoomSegment) : Bool :=
  decide (1 / 100 < segment.endSecs - segment.startSecs)

/-- `ripple_delete_ranges`: close a removed range, dropping zooms that become too short. -/
def rippleDeleteRanges (segments : List ZoomSegment) (startSecs durationSecs : Secs) :
    List ZoomSegment :=
  (segments.map (ZoomSegment.mapTimes (rippleDeleteTime startSecs durationSecs)
    (rippleDeleteTime startSecs durationSecs))).filter ZoomSegment.survives

/-- `ripple_insert_ranges`: open a range. A zoom that ends at the insertion point keeps its end. -/
def rippleInsertRanges (segments : List ZoomSegment) (startSecs durationSecs : Secs) :
    List ZoomSegment :=
  segments.map (ZoomSegment.mapTimes
    (fun timeSecs => if startSecs ≤ timeSecs then timeSecs + durationSecs else timeSecs)
    (fun timeSecs => if startSecs < timeSecs then timeSecs + durationSecs else timeSecs))

/-! ## Edits of a segment list -/

/-- What `edit_video_cut` reports to its caller. -/
structure VideoCutEdit where
  timelineStartSecs : Secs
  insertedDurationSecs : Secs
  leftId : UInt64
  removedId : Option UInt64
deriving DecidableEq, Repr

/-- `edit_video_cut`: fill the gap left of a segment or, when there is none, merge the segment into
its left neighbour. -/
def editVideoCut (segments : List VideoSegment) (rightId : UInt64) :
    Option (VideoCutEdit × List VideoSegment) :=
  match segments.findIdx? (fun segment => segment.id == rightId) with
  | none => none
  | some 0 => none
  | some (leftIndex + 1) =>
    let timelineStartSecs := totalDuration (segments.take (leftIndex + 1))
    match segments[leftIndex]?, segments[leftIndex + 1]? with
    | some left, some right =>
      let gapSecs := max (right.sourceStartSecs - left.sourceEndSecs) 0
      if f64Epsilon < gapSecs then
        some ({ timelineStartSecs, insertedDurationSecs := gapSecs, leftId := left.id,
                removedId := none },
          segments.set leftIndex { left with sourceEndSecs := right.sourceStartSecs })
      else
        some ({ timelineStartSecs, insertedDurationSecs := 0, leftId := left.id,
                removedId := some right.id },
          (segments.set leftIndex
            { left with sourceEndSecs := max left.sourceEndSecs right.sourceEndSecs }).eraseIdx
              (leftIndex + 1))
    | _, _ => none

/-- `resize_video_segment_range`: move one edge within its limits, keeping at least 0.01 s. -/
def resizeVideoSegmentRange (edge : VideoSegmentEdge) (sourceStartSecs sourceEndSecs
    minimumSourceStartSecs maximumSourceEndSecs deltaSecs : Secs) : Secs × Secs :=
  match edge with
  | .start =>
    (min (max (sourceStartSecs + deltaSecs) minimumSourceStartSecs) (sourceEndSecs - 1 / 100),
      sourceEndSecs)
  | .end =>
    (sourceStartSecs,
      max (min (sourceEndSecs + deltaSecs) maximumSourceEndSecs) (sourceStartSecs + 1 / 100))

/-! ## Clipping a stored timeline -/

/-- The ranges one segment loses when it is clipped, in timeline time. -/
def clipDeletions (sourceStartSecs sourceEndSecs timelineStartSecs : Secs)
    (segment : VideoSegment) : List (Secs × Secs) :=
  let clippedStartSecs := max segment.sourceStartSecs sourceStartSecs
  let clippedEndSecs := min segment.sourceEndSecs sourceEndSecs
  if clippedStartSecs < clippedEndSecs then
    (if segment.sourceStartSecs < clippedStartSecs then
      [(timelineStartSecs, clippedStartSecs - segment.sourceStartSecs)] else []) ++
    (if clippedEndSecs < segment.sourceEndSecs then
      [(timelineStartSecs + clippedEndSecs - segment.sourceStartSecs,
        segment.sourceEndSecs - clippedEndSecs)] else [])
  else if 0 < segment.durationSecs then [(timelineStartSecs, segment.durationSecs)]
  else []

/-- What is left of one segment when it is clipped. -/
def clipSegment (sourceStartSecs sourceEndSecs : Secs) (segment : VideoSegment) :
    Option VideoSegment :=
  let clippedStartSecs := max segment.sourceStartSecs sourceStartSecs
  let clippedEndSecs := min segment.sourceEndSecs sourceEndSecs
  if clippedStartSecs < clippedEndSecs then
    some { segment with sourceStartSecs := clippedStartSecs, sourceEndSecs := clippedEndSecs }
  else none

/-- The `deletions` the loop collects; each segment starts where the original ones before it end. -/
def clampDeletions (sourceStartSecs sourceEndSecs : Secs) :
    Secs → List VideoSegment → List (Secs × Secs)
  | _, [] => []
  | timelineStartSecs, segment :: segments =>
    clipDeletions sourceStartSecs sourceEndSecs timelineStartSecs segment ++
      clampDeletions sourceStartSecs sourceEndSecs (timelineStartSecs + segment.durationSecs)
        segments

/-- Ripple the zoom segments over every deletion in turn. -/
def rippleDeleteAll (segments : List ZoomSegment) (deletions : List (Secs × Secs)) :
    List ZoomSegment :=
  deletions.foldl (fun segments deletion => rippleDeleteRanges segments deletion.1 deletion.2)
    segments

/-- `clamp_video_timeline_to_source_range`: clip every segment to the source range and ripple the
zoom segments over what was lost, from right to left. -/
def clampVideoTimelineToSourceRange (bundle : BlipBundle) (sourceStartSecs sourceEndSecs : Secs) :
    BlipBundle :=
  match bundle.videoSegments with
  | none => bundle
  | some segments =>
    -- `sort_by` is stable, and so is insertion sort
    let deletions := (clampDeletions sourceStartSecs sourceEndSecs 0 segments).insertionSort
      (fun left right => right.1 ≤ left.1)
    { zoomSegments := rippleDeleteAll bundle.zoomSegments deletions
      videoSegments := some (segments.filterMap (clipSegment sourceStartSecs sourceEndSecs)) }

end Blip.Capture
