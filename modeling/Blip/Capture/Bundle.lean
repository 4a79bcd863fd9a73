import Mathlib.Algebra.Order.Field.Rat
import Mathlib.Algebra.BigOperators.Group.List.Basic
import Mathlib.Data.Rat.Defs
import Mathlib.Tactic.Linarith

/-!
# The edit timeline of a recording bundle

The timeline part of `apps/blip-capture/src/bundle.rs`: video segments, each showing a range of the
source recording, and zoom segments placed on the timeline the video segments make up. Times are
exact rationals in place of `f64` seconds; identifiers are the source's `u64`.
-/

namespace Blip.Capture

/-- Times and durations, in seconds. -/
abbrev Secs : Type := ℚ

/-- `f64::EPSILON`. -/
def f64Epsilon : Secs := 1 / 2 ^ 52

/-- One clip of the source recording on the timeline. -/
structure VideoSegment where
  id : UInt64
  sourceStartSecs : Secs
  sourceEndSecs : Secs
deriving DecidableEq, Repr

/-- The segment's length on the timeline; a reversed range counts as empty. -/
def VideoSegment.durationSecs (segment : VideoSegment) : Secs :=
  max (segment.sourceEndSecs - segment.sourceStartSecs) 0

inductive ZoomTransitionSpeed
  | slow
  | medium
  | fast
deriving DecidableEq, Repr

/-- A zoom over a range of timeline time. -/
structure ZoomSegment where
  id : UInt64
  startSecs : Secs
  endSecs : Secs
  target : ℚ × ℚ
  amount : ℚ
  transition : ZoomTransitionSpeed
deriving DecidableEq, Repr

/-- The part of a bundle that timeline edits read and write. -/
structure BlipBundle where
  zoomSegments : List ZoomSegment
  videoSegments : Option (List VideoSegment)
deriving DecidableEq, Repr

/-- The timeline length of a list of segments: the sum every edit recomputes. -/
def totalDuration (segments : List VideoSegment) : Secs :=
  (segments.map VideoSegment.durationSecs).sum

/-- `editor.rs::video_timeline_duration`. -/
def videoTimelineDuration (bundle : BlipBundle) : Secs :=
  totalDuration (bundle.videoSegments.getD [])

theorem VideoSegment.durationSecs_nonneg (segment : VideoSegment) : 0 ≤ segment.durationSecs :=
  le_max_right _ _

/-- A segment that is not reversed lasts as long as its source range. -/
theorem VideoSegment.durationSecs_eq {segment : VideoSegment}
    (h : segment.sourceStartSecs ≤ segment.sourceEndSecs) :
    segment.durationSecs = segment.sourceEndSecs - segment.sourceStartSecs :=
  max_eq_left (by linarith)

@[simp] theorem totalDuration_nil : totalDuration [] = 0 := rfl

@[simp] theorem totalDuration_cons (segment : VideoSegment) (segments : List VideoSegment) :
    totalDuration (segment :: segments) = segment.durationSecs + totalDuration segments := by
  simp [totalDuration]

@[simp] theorem totalDuration_append (left right : List VideoSegment) :
    totalDuration (left ++ right) = totalDuration left + totalDuration right := by
  simp [totalDuration]

theorem totalDuration_nonneg (segments : List VideoSegment) : 0 ≤ totalDuration segments := by
  induction segments with
  | nil => simp
  | cons segment segments ih =>
    rw [totalDuration_cons]
    exact add_nonneg segment.durationSecs_nonneg ih

end Blip.Capture
