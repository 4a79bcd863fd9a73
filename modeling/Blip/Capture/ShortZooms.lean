import Blip.Capture.SegmentTimeMap
import Blip.Capture.Selection

/-!
# Zooms that a removed range leaves alone

A ripple moves a zoom that does not meet the removed range by as much at its start as at its end. Then it
drops every zoom that is no longer than 0.01 s, moved or not, and 0.01 s is the length a resize stops at.
-/

namespace Blip.Capture

open TimeMap

/-- The zoom ends before a range, or begins after it. -/
def ZoomSegment.Avoids (zoom : ZoomSegment) (range : Secs × Secs) : Prop :=
  zoom.endSecs ≤ range.1 ∨ range.1 + range.2 ≤ zoom.startSecs

instance (zoom : ZoomSegment) (range : Secs × Secs) : Decidable (zoom.Avoids range) :=
  inferInstanceAs (Decidable (_ ∨ _))

/-- The zoom is in a list, at another time or the same. -/
def ZoomSegment.KeptIn (zoom : ZoomSegment) (zooms : List ZoomSegment) : Prop :=
  ∃ shiftSecs, zoom.mapTimes (· - shiftSecs) (· - shiftSecs) ∈ zooms

/-- What a range removes before a time is the same at both ends of a zoom that avoids it. -/
theorem removedBefore_eq_of_avoids {zoom : ZoomSegment} {range : Secs × Secs}
    (hlong : zoom.startSecs ≤ zoom.endSecs) (hrange : 0 ≤ range.2) (h : zoom.Avoids range) :
    removedBefore range zoom.endSecs = removedBefore range zoom.startSecs := by
  rcases h with h | h
  · have hnone : ∀ t, t ≤ range.1 → removedBefore range t = 0 := fun t ht =>
      max_eq_left ((min_le_left _ _).trans (sub_nonpos.mpr ht))
    rw [hnone _ h, hnone _ (hlong.trans h)]
  · rw [removedBefore_of_le hrange h, removedBefore_of_le hrange (h.trans hlong)]

/-- Removals move a zoom that avoids all of them as a whole. -/
theorem mapTimes_of_avoids {zoom : ZoomSegment} {ranges : List (Secs × Secs)}
    (hlong : zoom.startSecs ≤ zoom.endSecs) (hranges : ∀ range ∈ ranges, 0 ≤ range.2)
    (h : ∀ range ∈ ranges, zoom.Avoids range) :
    ∃ shiftSecs, zoom.mapTimes (removeAll ranges) (removeAll ranges) =
      zoom.mapTimes (· - shiftSecs) (· - shiftSecs) := by
  refine ⟨(ranges.map fun range => removedBefore range zoom.startSecs).sum, ?_⟩
  have hsum : (ranges.map fun range => removedBefore range zoom.endSecs) =
      ranges.map fun range => removedBefore range zoom.startSecs :=
    List.map_congr_left fun range hrange =>
      removedBefore_eq_of_avoids hlong (hranges range hrange) (h range hrange)
  simp only [ZoomSegment.mapTimes, removeAll, hsum]

/-- Ripples keep a zoom they do not touch exactly when they would keep its length. -/
theorem keptIn_ripple_iff {zooms : List ZoomSegment} {zoom : ZoomSegment} (hzoom : zoom ∈ zooms)
    {ranges : List (Secs × Secs)} (hsome : ranges ≠ []) (hranges : ∀ range ∈ ranges, 0 ≤ range.2)
    (h : ∀ range ∈ ranges, zoom.Avoids range) :
    zoom.KeptIn (rippleZooms (.remove ranges) zooms) ↔ zoom.survives = true := by
  have hripple : rippleZooms (.remove ranges) zooms =
      (zooms.map (.mapTimes (removeAll ranges) (removeAll ranges))).filter ZoomSegment.survives := by
    cases ranges with
    | nil => exact absurd rfl hsome
    | cons range ranges => rfl
  -- a shift does not change the length that the ripple tests
  have hshift : ∀ shiftSecs : Secs,
      (zoom.mapTimes (· - shiftSecs) (· - shiftSecs)).survives = zoom.survives := by
    intro shiftSecs
    simp only [ZoomSegment.survives, ZoomSegment.mapTimes, sub_sub_sub_cancel_right]
  rw [hripple]
  constructor
  · rintro ⟨shiftSecs, hmem⟩
    rw [← hshift shiftSecs]
    exact (List.mem_filter.mp hmem).2
  · intro hsurvives
    have hlong : zoom.startSecs ≤ zoom.endSecs := by
      have hlength := of_decide_eq_true hsurvives
      linarith
    obtain ⟨shiftSecs, hmap⟩ := mapTimes_of_avoids hlong hranges h
    refine ⟨shiftSecs, List.mem_filter.mpr ⟨?_, by rwa [hshift]⟩⟩
    rw [← hmap]
    exact List.mem_map_of_mem hzoom

/-- Two segments under a zoom of a second. -/
def zoomedBundle : BlipBundle where
  zoomSegments := [plainZoom 1 1 2]
  videoSegments := some [{ id := 1, sourceStartSecs := 0, sourceEndSecs := 5 },
    { id := 2, sourceStartSecs := 6, sourceEndSecs := 11 }]

/-- Resize the zoom as far as it goes, then delete the second segment. -/
def shortenThenDeleteOps : List EditorOp :=
  [.layout { originX := 0, width := 100 }, .pressZoomSegmentEdge 1 .end 20,
    .mouseMove true { x := 0, overRows := true, overZoomTrack := true }, .mouseUp,
    .pressVideoSegment 2 80, .deleteSelected]

end Blip.Capture
