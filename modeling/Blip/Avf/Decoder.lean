import Blip.Common.Rounding
import Mathlib.Data.List.MinMax
import Mathlib.Data.List.Pairwise
import Mathlib.Tactic.FieldSimp
import Mathlib.Tactic.Linarith
import Mathlib.Tactic.Positivity

/-!
# Decoding the frame of a time

`VideoDecoder::frame_at` answers from its cache of decoded frames, from the last frame of the reader
it keeps, by reading on with that reader, or by starting a new one. A frame is told by the sample it
was decoded from. `Settled` says of a track and a time when all four answer with the same frame.
-/

namespace Blip.Avf

/-- A decoded sample: its presentation time in seconds, and its image. -/
structure VideoSample (Pixels : Type) where
  presentationTimeStamp : ℚ
  imageBuffer : Pixels
deriving DecidableEq, Repr

/-- `TIMESCALE`: the units of a second that times are rounded to. -/
def timescale : ℚ := 1000000

/-- `(secs * TIMESCALE as f64).round() as i64`. -/
def toMicros (secs : ℚ) : ℤ := f64Round (secs * timescale)

/-- `can_decode_sequentially`. -/
def canDecodeSequentially (delta gopDuration : ℚ) : Prop := -0.01 ≤ delta ∧ delta ≤ gopDuration

instance (delta gopDuration : ℚ) : Decidable (canDecodeSequentially delta gopDuration) :=
  inferInstanceAs (Decidable (_ ∧ _))

/-- What a decoder knows of its file: the frame rate, the distance of the sync samples, and the
samples that a reader started at a time hands out. -/
structure VideoAsset (Pixels : Type) where
  nominalFps : ℚ
  nominalFps_pos : 0 < nominalFps
  gopDuration : ℚ
  startReading : ℚ → List (VideoSample Pixels)

/-- `ActiveReader`: the last frame decoded, and the samples the output has still to hand out. -/
structure ActiveReader (Pixels : Type) where
  last : VideoSample Pixels
  output : List (VideoSample Pixels)

/-- The decoded frames by their times in microseconds, in order. -/
abbrev FrameCache (Pixels : Type) := List (ℤ × VideoSample Pixels)

/-- What changes in a `VideoDecoder`. -/
structure VideoDecoder (Pixels : Type) where
  reader : Option (ActiveReader Pixels)
  cache : FrameCache Pixels

inductive DecoderError
  | decodeFailed
deriving DecidableEq, Repr

variable {Pixels : Type}

/-- The asset that `VideoDecoder::open` reads from. -/
def VideoAsset.open (nominalFrameRate gopDuration : ℚ)
    (startReading : ℚ → List (VideoSample Pixels)) : VideoAsset Pixels where
  nominalFps := if 0 < nominalFrameRate then nominalFrameRate else 30
  nominalFps_pos := by
    split
    · assumption
    · norm_num
  gopDuration := gopDuration
  startReading := startReading

/-- Half a nominal frame. -/
def VideoAsset.tolerance (asset : VideoAsset Pixels) : ℚ := 0.5 / asset.nominalFps

/-- A decoder just opened. -/
def VideoDecoder.new : VideoDecoder Pixels where
  reader := none
  cache := []

/-- `BTreeMap::insert`. -/
def FrameCache.insert (micros : ℤ) (frame : VideoSample Pixels) :
    FrameCache Pixels → FrameCache Pixels
  | [] => [(micros, frame)]
  | entry :: cache =>
    if micros < entry.1 then (micros, frame) :: entry :: cache
    else if micros = entry.1 then (micros, frame) :: cache
    else entry :: FrameCache.insert micros frame cache

/-- The cached frame nearest to a time, among those of half a nominal frame around it. -/
def VideoDecoder.cachedFrame (asset : VideoAsset Pixels) (timeSecs : ℚ)
    (decoder : VideoDecoder Pixels) : Option (VideoSample Pixels) :=
  let targetMicros := toMicros timeSecs
  let tolMicros := toMicros asset.tolerance
  let range := decoder.cache.filter fun entry =>
    targetMicros - tolMicros ≤ entry.1 ∧ entry.1 ≤ targetMicros + tolMicros
  (range.argmin fun entry => (entry.1 - targetMicros).natAbs).map Prod.snd

/-- Where a loop over `copyNextSampleBuffer` ends. -/
structure Decoded (Pixels : Type) where
  found : Bool
  last : Option (VideoSample Pixels)
  output : List (VideoSample Pixels)
  cache : FrameCache Pixels

/-- The loop over `copyNextSampleBuffer`: every sample is cached, and the first at or after the
limit ends it. -/
def decodeUntil (limit : ℚ) (cache : FrameCache Pixels) (last : Option (VideoSample Pixels)) :
    List (VideoSample Pixels) → Decoded Pixels
  | [] => ⟨false, last, [], cache⟩
  | sample :: output =>
    let cache := cache.insert (toMicros sample.presentationTimeStamp) sample
    if limit ≤ sample.presentationTimeStamp then ⟨true, some sample, output, cache⟩
    else decodeUntil limit cache (some sample) output

/-- The part of `frame_at` that uses the active reader. Without an answer the reader is given up. -/
def VideoDecoder.decodeOn (asset : VideoAsset Pixels) (timeSecs : ℚ)
    (decoder : VideoDecoder Pixels) : Option (VideoSample Pixels) × VideoDecoder Pixels :=
  match decoder.reader with
  | none => (none, decoder)
  | some active =>
    let delta := timeSecs - active.last.presentationTimeStamp
    if canDecodeSequentially delta asset.gopDuration then
      if delta ≤ asset.tolerance then (some active.last, decoder)
      else
        let decoded :=
          decodeUntil (timeSecs - asset.tolerance) decoder.cache (some active.last) active.output
        match decoded.found, decoded.last with
        | true, some frame => (some frame, ⟨some ⟨frame, decoded.output⟩, decoded.cache⟩)
        | _, _ => (none, ⟨none, decoded.cache⟩)
    else (none, ⟨none, decoder.cache⟩)

/-- The part of `frame_at` that starts a new reader, at the time in whole microseconds. -/
def VideoDecoder.seek (asset : VideoAsset Pixels) (timeSecs : ℚ) (decoder : VideoDecoder Pixels) :
    Except DecoderError (VideoSample Pixels) × VideoDecoder Pixels :=
  let decoded := decodeUntil (timeSecs - asset.tolerance) decoder.cache none
    (asset.startReading (toMicros timeSecs / timescale))
  match decoded.last with
  | none => (.error .decodeFailed, ⟨none, decoded.cache⟩)
  | some frame => (.ok frame, ⟨some ⟨frame, decoded.output⟩, decoded.cache⟩)

/-- `VideoDecoder::frame_at`. -/
def VideoDecoder.frameAt (asset : VideoAsset Pixels) (timeSecs : ℚ)
    (decoder : VideoDecoder Pixels) :
    Except DecoderError (VideoSample Pixels) × VideoDecoder Pixels :=
  match decoder.cachedFrame asset timeSecs with
  | some frame => (.ok frame, decoder)
  | none =>
    match decoder.decodeOn asset timeSecs with
    | (some frame, decoder') => (.ok frame, decoder')
    | (none, decoder') => decoder'.seek asset timeSecs

/-- A decoder after a history of calls of `frame_at`. -/
def VideoDecoder.after (asset : VideoAsset Pixels) (history : List ℚ) : VideoDecoder Pixels :=
  history.foldl (fun decoder timeSecs => (decoder.frameAt asset timeSecs).2) .new

/-- What `frame_at` answers for a time after a history of calls. -/
def VideoAsset.answer (asset : VideoAsset Pixels) (history : List ℚ) (timeSecs : ℚ) :
    Except DecoderError (VideoSample Pixels) :=
  ((VideoDecoder.after asset history).frameAt asset timeSecs).1

/-! ## Reading a track -/

/-- The samples of a track from the one displayed at a time on; the first one is displayed before
its time too. -/
def displayedFrom (start : ℚ) : List (VideoSample Pixels) → List (VideoSample Pixels)
  | sample :: next :: track =>
    if next.presentationTimeStamp ≤ start then displayedFrom start (next :: track)
    else sample :: next :: track
  | track => track

/-- The sample times of a track increase strictly. -/
def TrackOrdered (track : List (VideoSample Pixels)) : Prop :=
  track.Pairwise fun left right => left.presentationTimeStamp < right.presentationTimeStamp

/-- A reader started at a time hands out the samples from the one displayed then on. -/
def VideoAsset.Reads (asset : VideoAsset Pixels) (track : List (VideoSample Pixels)) : Prop :=
  ∀ start, asset.startReading start = displayedFrom start track

theorem displayedFrom_split (start : ℚ) {track : List (VideoSample Pixels)}
    (hordered : TrackOrdered track) :
    ∃ passed, track = passed ++ displayedFrom start track ∧
      ∀ sample ∈ passed, ∃ shown rest, displayedFrom start track = shown :: rest ∧
        sample.presentationTimeStamp < shown.presentationTimeStamp ∧
        shown.presentationTimeStamp ≤ start := by
  fun_induction displayedFrom start track with
  | case1 sample next track hnext ih =>
    obtain ⟨passed, htrack, hpassed⟩ := ih hordered.of_cons
    refine ⟨sample :: passed, by rw [List.cons_append, ← htrack], fun other hother => ?_⟩
    obtain rfl | hother := List.mem_cons.1 hother
    · have hfirst : other.presentationTimeStamp < next.presentationTimeStamp :=
        (List.pairwise_cons.1 hordered).1 next List.mem_cons_self
      cases passed with
      | nil => exact ⟨next, track, htrack.symm, hfirst, hnext⟩
      | cons first passed =>
        obtain ⟨rfl, -⟩ := List.cons.inj htrack
        obtain ⟨shown, rest, hshown, hlt, hle⟩ := hpassed next List.mem_cons_self
        exact ⟨shown, rest, hshown, hfirst.trans hlt, hle⟩
    · exact hpassed other hother
  | case2 sample next track hnext => exact ⟨[], rfl, fun _ h => absurd h List.not_mem_nil⟩
  | case3 track _ => exact ⟨[], rfl, fun _ h => absurd h List.not_mem_nil⟩

/-! ## The reading loop -/

/-- The cache after reading samples. -/
def FrameCache.insertAll (cache : FrameCache Pixels) (samples : List (VideoSample Pixels)) :
    FrameCache Pixels :=
  samples.foldl (fun cache sample => cache.insert (toMicros sample.presentationTimeStamp) sample)
    cache

/-- The loop stops at the first sample from the limit on, or else reads everything. -/
theorem decodeUntil_cases (limit : ℚ) (cache : FrameCache Pixels)
    (last : Option (VideoSample Pixels)) (samples : List (VideoSample Pixels)) :
    (∃ earlier frame output, samples = earlier ++ frame :: output ∧
      (∀ sample ∈ earlier, sample.presentationTimeStamp < limit) ∧
      limit ≤ frame.presentationTimeStamp ∧
      decodeUntil limit cache last samples =
        ⟨true, some frame, output, cache.insertAll (earlier ++ [frame])⟩) ∨
    (∀ sample ∈ samples, sample.presentationTimeStamp < limit) ∧
      decodeUntil limit cache last samples =
        ⟨false, samples.getLast?.or last, [], cache.insertAll samples⟩ := by
  induction samples generalizing cache last with
  | nil => exact .inr ⟨fun _ h => absurd h List.not_mem_nil, rfl⟩
  | cons sample samples ih =>
    by_cases hlimit : limit ≤ sample.presentationTimeStamp
    · exact .inl ⟨[], sample, samples, rfl, fun _ h => absurd h List.not_mem_nil, hlimit,
        if_pos hlimit⟩
    · rw [decodeUntil, if_neg hlimit]
      rcases ih (cache.insert (toMicros sample.presentationTimeStamp) sample) (some sample) with
        ⟨earlier, frame, output, rfl, hearlier, hframe, hdecoded⟩ | ⟨hall, hdecoded⟩
      · exact .inl ⟨sample :: earlier, frame, output, rfl,
          List.forall_mem_cons.2 ⟨not_le.1 hlimit, hearlier⟩, hframe, hdecoded⟩
      · refine .inr ⟨List.forall_mem_cons.2 ⟨not_le.1 hlimit, hall⟩, ?_⟩
        rw [hdecoded, List.getLast?_cons, Option.some_or]
        cases samples.getLast? <;> rfl

/-- The cached frames are samples of a track at their own times. -/
def FrameCache.Of (track : List (VideoSample Pixels)) (cache : FrameCache Pixels) : Prop :=
  ∀ entry ∈ cache, entry.2 ∈ track ∧ entry.1 = toMicros entry.2.presentationTimeStamp

theorem FrameCache.mem_insert {micros : ℤ} {frame : VideoSample Pixels}
    {cache : FrameCache Pixels} {entry : ℤ × VideoSample Pixels}
    (h : entry ∈ cache.insert micros frame) : entry = (micros, frame) ∨ entry ∈ cache := by
  induction cache with
  | nil => exact .inl (List.mem_singleton.1 h)
  | cons first cache ih =>
    rw [FrameCache.insert] at h
    split at h
    · exact List.mem_cons.1 h
    · split at h
      · exact (List.mem_cons.1 h).imp_right (List.mem_cons_of_mem first)
      · obtain rfl | h := List.mem_cons.1 h
        · exact .inr List.mem_cons_self
        · exact (ih h).imp_right (List.mem_cons_of_mem first)

theorem FrameCache.Of.insertAll {track samples : List (VideoSample Pixels)}
    {cache : FrameCache Pixels} (h : cache.Of track) (hsamples : samples ⊆ track) :
    (cache.insertAll samples).Of track := by
  induction samples generalizing cache with
  | nil => exact h
  | cons sample samples ih =>
    obtain ⟨hsample, hsamples⟩ := List.cons_subset.1 hsamples
    refine ih (fun entry hentry => ?_) hsamples
    obtain rfl | hentry := FrameCache.mem_insert hentry
    · exact ⟨hsample, rfl⟩
    · exact h entry hentry

/-! ## What every call keeps -/

section

variable {asset : VideoAsset Pixels} {track : List (VideoSample Pixels)} {timeSecs : ℚ}
  {decoder : VideoDecoder Pixels} {frame : VideoSample Pixels}

/-- The cache holds samples of the track, and the reader hands out those after its last. -/
structure VideoDecoder.Follows (track : List (VideoSample Pixels))
    (decoder : VideoDecoder Pixels) : Prop where
  cache : decoder.cache.Of track
  reader : ∀ active ∈ decoder.reader, ∃ passed, track = passed ++ active.last :: active.output

theorem VideoDecoder.Follows.new : (VideoDecoder.new : VideoDecoder Pixels).Follows track where
  cache := fun _ h => absurd h List.not_mem_nil
  reader := fun _ h => nomatch h

/-- The answers within tolerance: cached frames by their microseconds, and a reader's last frame. -/
def VideoAsset.Near (asset : VideoAsset Pixels) (timeSecs : ℚ) (frame : VideoSample Pixels) :
    Prop :=
  |toMicros frame.presentationTimeStamp - toMicros timeSecs| ≤ toMicros asset.tolerance ∨
    timeSecs - asset.tolerance ≤ frame.presentationTimeStamp ∧
      frame.presentationTimeStamp ≤ timeSecs + 0.01

instance : Decidable (asset.Near timeSecs frame) := inferInstanceAs (Decidable (_ ∨ _))

theorem VideoDecoder.Follows.cachedFrame (h : decoder.Follows track)
    (hframe : decoder.cachedFrame asset timeSecs = some frame) :
    frame ∈ track ∧ asset.Near timeSecs frame := by
  obtain ⟨entry, hentry, rfl⟩ := Option.map_eq_some_iff.1 hframe
  obtain ⟨hcached, hrange⟩ := List.mem_filter.1 (List.argmin_mem hentry)
  obtain ⟨htrack, hmicros⟩ := h.cache entry hcached
  have hrange := of_decide_eq_true hrange
  rw [hmicros] at hrange
  exact ⟨htrack, .inl (abs_le.2 ⟨by linarith [hrange.1], by linarith [hrange.2]⟩)⟩

/-- What the active reader gives: its last frame, the first sample from half a frame before the time
on, or no answer. -/
theorem VideoDecoder.Follows.decodeOn (h : decoder.Follows track) (hordered : TrackOrdered track)
    (asset : VideoAsset Pixels) (timeSecs : ℚ) :
    (∃ frame ∈ track, asset.Near timeSecs frame ∧
      decoder.decodeOn asset timeSecs = (some frame, decoder)) ∨
    (∃ earlier frame output decoder', track = earlier ++ frame :: output ∧
      (∀ sample ∈ earlier, sample.presentationTimeStamp < timeSecs - asset.tolerance) ∧
      timeSecs - asset.tolerance ≤ frame.presentationTimeStamp ∧ decoder'.Follows track ∧
      decoder.decodeOn asset timeSecs = (some frame, decoder')) ∨
    ∃ decoder', decoder'.Follows track ∧ decoder.decodeOn asset timeSecs = (none, decoder') := by
  rw [VideoDecoder.decodeOn]
  cases hreader : decoder.reader with
  | none => exact .inr (.inr ⟨decoder, h, rfl⟩)
  | some active =>
    obtain ⟨passed, htrack⟩ := h.reader active hreader
    have hgone : VideoDecoder.Follows track ⟨none, decoder.cache⟩ := ⟨h.cache, fun _ h => nomatch h⟩
    dsimp only
    by_cases hsequential : canDecodeSequentially
      (timeSecs - active.last.presentationTimeStamp) asset.gopDuration
    · rw [if_pos hsequential]
      by_cases hlast : timeSecs - active.last.presentationTimeStamp ≤ asset.tolerance
      · rw [if_pos hlast]
        refine .inl ⟨active.last, by simp [htrack], .inr ⟨by linarith, ?_⟩, rfl⟩
        linarith [hsequential.1]
      · rw [if_neg hlast]
        have houtput : active.output ⊆ track := by
          rw [htrack]
          exact fun _ h => List.mem_append_right _ (List.mem_cons_of_mem _ h)
        -- the reader goes on from its last frame, to one near the time or to the end of the track
        rcases decodeUntil_cases (timeSecs - asset.tolerance) decoder.cache (some active.last)
          active.output with
          ⟨earlier, frame, output, hsplit, hearlier, hframe, hdecoded⟩ | ⟨hall, hdecoded⟩
        · rw [hdecoded]
          have htrack' : track = (passed ++ active.last :: earlier) ++ frame :: output := by
            rw [htrack, hsplit, List.append_assoc, List.cons_append]
          refine .inr (.inl ⟨_, frame, output, _, htrack', fun sample hsample => ?_, hframe,
            ⟨h.cache.insertAll fun _ hread => houtput ?_, fun _ hactive => ?_⟩, rfl⟩)
          · rcases List.mem_append.1 hsample with hsample | hsample
            · rw [htrack] at hordered
              have := (List.pairwise_append.1 hordered).2.2 sample hsample active.last
                List.mem_cons_self
              linarith
            · obtain rfl | hsample := List.mem_cons.1 hsample
              · linarith
              · exact hearlier sample hsample
          · rw [hsplit, List.append_cons]
            exact List.mem_append_left _ hread
          · obtain rfl := Option.some.inj hactive
            exact ⟨_, htrack'⟩
        · rw [hdecoded]
          exact .inr (.inr ⟨⟨none, _⟩, ⟨h.cache.insertAll houtput, fun _ h => nomatch h⟩, rfl⟩)
    · rw [if_neg hsequential]
      exact .inr (.inr ⟨_, hgone, rfl⟩)

/-- The frame that a new reader gives: the first from half a frame before the time on, unless the
reader starts later, or the last of the track. -/
def VideoAsset.Finds (asset : VideoAsset Pixels) (track : List (VideoSample Pixels))
    (timeSecs : ℚ) (frame : VideoSample Pixels) : Prop :=
  frame ∈ track ∧
    ((timeSecs - asset.tolerance ≤ frame.presentationTimeStamp ∧
      ∀ sample ∈ track, timeSecs - asset.tolerance ≤ sample.presentationTimeStamp →
        frame.presentationTimeStamp ≤ sample.presentationTimeStamp ∨
        sample.presentationTimeStamp < frame.presentationTimeStamp ∧
          frame.presentationTimeStamp ≤ toMicros timeSecs / timescale) ∨
    ∀ sample ∈ track, sample.presentationTimeStamp ≤ frame.presentationTimeStamp ∧
      sample.presentationTimeStamp < timeSecs - asset.tolerance)

theorem VideoDecoder.Follows.seek (h : decoder.Follows track) (hordered : TrackOrdered track)
    (hreads : asset.Reads track) (timeSecs : ℚ) :
    (decoder.seek asset timeSecs).2.Follows track ∧
      (track ≠ [] → ∃ frame, (decoder.seek asset timeSecs).1 = .ok frame ∧
        asset.Finds track timeSecs frame) := by
  obtain ⟨passed, htrack, hpassed⟩ :=
    displayedFrom_split (toMicros timeSecs / timescale) hordered
  rw [VideoDecoder.seek, hreads]
  generalize displayedFrom (toMicros timeSecs / timescale) track = samples at *
  have hsubset : samples ⊆ track := by
    rw [htrack]
    exact List.subset_append_right _ _
  rcases decodeUntil_cases (timeSecs - asset.tolerance) decoder.cache none samples with
    ⟨earlier, frame, output, rfl, hearlier, hframe, hdecoded⟩ | ⟨hall, hdecoded⟩
  · rw [hdecoded]
    have hread : earlier ++ [frame] ⊆ track := fun sample hsample => hsubset (by
      rw [List.append_cons]
      exact List.mem_append_left _ hsample)
    have hlater : ∀ sample ∈ output,
        frame.presentationTimeStamp < sample.presentationTimeStamp := by
      rw [htrack] at hordered
      exact (List.pairwise_cons.1 (List.pairwise_append.1
        (List.pairwise_append.1 hordered).2.1).2.1).1
    refine ⟨⟨h.cache.insertAll hread, fun _ hactive => ?_⟩, fun _ => ⟨frame, rfl,
      hread (List.mem_append_right _ List.mem_cons_self), .inl ⟨hframe, fun sample hsample hle => ?_⟩⟩⟩
    · obtain rfl := Option.some.inj hactive
      exact ⟨passed ++ earlier, by rw [htrack, List.append_assoc]⟩
    · rw [htrack] at hsample
      rcases List.mem_append.1 hsample with hsample | hsample
      · obtain ⟨shown, rest, hshown, hlt, hstart⟩ := hpassed sample hsample
        -- The sample displayed at the start is late enough already, so the loop ends at it.
        have hfirst : earlier = [] := List.eq_nil_iff_forall_not_mem.2 fun other hother => by
          have hshown' : shown ∈ earlier := by
            cases earlier with
            | nil => exact absurd hother List.not_mem_nil
            | cons first earlier =>
              obtain ⟨rfl, -⟩ := List.cons.inj hshown
              exact List.mem_cons_self
          linarith [hearlier shown hshown']
        subst hfirst
        obtain ⟨rfl, -⟩ := List.cons.inj hshown
        exact .inr ⟨hlt, hstart⟩
      · rcases List.mem_append.1 hsample with hsample | hsample
        · linarith [hearlier sample hsample]
        · obtain rfl | hsample := List.mem_cons.1 hsample
          · exact .inl le_rfl
          · exact .inl (hlater sample hsample).le
  · rw [hdecoded]
    obtain rfl | ⟨init, frame, rfl⟩ := samples.eq_nil_or_concat'
    · refine ⟨⟨h.cache, fun _ h => nomatch h⟩, fun htrack' => absurd ?_ htrack'⟩
      rw [htrack, List.append_nil]
      exact List.eq_nil_iff_forall_not_mem.2 fun sample hsample =>
        let ⟨_, _, hshown, _⟩ := hpassed sample hsample
        List.cons_ne_nil _ _ hshown.symm
    · rw [← List.append_assoc] at htrack
      have hframe := hall frame (List.mem_append_right _ List.mem_cons_self)
      simp only [List.getLast?_concat, Option.some_or]
      refine ⟨⟨h.cache.insertAll hsubset, fun _ hactive => ?_⟩, fun _ => ⟨frame, rfl,
        hsubset (List.mem_append_right _ List.mem_cons_self), .inr fun sample hsample => ?_⟩⟩
      · obtain rfl := Option.some.inj hactive
        exact ⟨_, htrack⟩
      · have hle : sample.presentationTimeStamp ≤ frame.presentationTimeStamp := by
          rw [htrack] at hsample hordered
          rcases List.mem_append.1 hsample with hsample | hsample
          · exact ((List.pairwise_append.1 hordered).2.2 sample hsample frame
              List.mem_cons_self).le
          · rw [List.mem_singleton.1 hsample]
        exact ⟨hle, hle.trans_lt hframe⟩

/-- What a new reader gives does not depend on what was decoded before. -/
theorem VideoDecoder.seek_fst (asset : VideoAsset Pixels) (timeSecs : ℚ)
    (decoder other : VideoDecoder Pixels) :
    (decoder.seek asset timeSecs).1 = (other.seek asset timeSecs).1 := by
  have hlast : ∀ (samples : List (VideoSample Pixels)) (cache cache' : FrameCache Pixels) last,
      (decodeUntil (timeSecs - asset.tolerance) cache last samples).last =
        (decodeUntil (timeSecs - asset.tolerance) cache' last samples).last := by
    intro samples
    induction samples with
    | nil => exact fun _ _ _ => rfl
    | cons sample samples ih =>
      intro cache cache' last
      rw [decodeUntil, decodeUntil]
      split
      · rfl
      · exact ih _ _ _
  simp only [VideoDecoder.seek, hlast _ decoder.cache other.cache]
  split <;> rfl

theorem VideoDecoder.Follows.frameAt (h : decoder.Follows track) (hordered : TrackOrdered track)
    (hreads : asset.Reads track) (timeSecs : ℚ) :
    (decoder.frameAt asset timeSecs).2.Follows track := by
  rw [VideoDecoder.frameAt]
  split
  · exact h
  · rcases h.decodeOn hordered asset timeSecs with
      ⟨frame, -, -, hdecoded⟩ | ⟨_, frame, _, decoder', -, -, -, h', hdecoded⟩ |
      ⟨decoder', h', hdecoded⟩
    · rw [hdecoded]
      exact h
    · rw [hdecoded]
      exact h'
    · rw [hdecoded]
      exact (h'.seek hordered hreads timeSecs).1

/-- Every history keeps the cache and the reader on the track. -/
theorem VideoDecoder.follows_after (hordered : TrackOrdered track) (hreads : asset.Reads track)
    (history : List ℚ) : (VideoDecoder.after asset history).Follows track := by
  induction history using List.reverseRecOn with
  | nil => exact .new
  | append_singleton history timeSecs ih =>
    rw [VideoDecoder.after, List.foldl_append]
    exact ih.frameAt hordered hreads timeSecs

end

/-! ## When the answer is settled -/

section

variable {asset : VideoAsset Pixels} {track : List (VideoSample Pixels)} {timeSecs : ℚ}
  {frame : VideoSample Pixels}

/-- A track and a time at which every way of answering agrees: no two samples are within tolerance,
one that is within it by rounding only is the last, and a time between two samples has one within
half a nominal frame. -/
structure VideoAsset.Settled (asset : VideoAsset Pixels) (track : List (VideoSample Pixels))
    (timeSecs : ℚ) : Prop where
  unique : ∀ left ∈ track, ∀ right ∈ track,
    asset.Near timeSecs left → asset.Near timeSecs right → left = right
  rounded : ∀ frame ∈ track, asset.Near timeSecs frame →
    frame.presentationTimeStamp < timeSecs - asset.tolerance →
      ∀ sample ∈ track, sample.presentationTimeStamp ≤ frame.presentationTimeStamp
  covered : (∃ sample ∈ track, sample.presentationTimeStamp ≤ timeSecs) →
    (∃ sample ∈ track, timeSecs < sample.presentationTimeStamp) →
      ∃ sample ∈ track, timeSecs - asset.tolerance ≤ sample.presentationTimeStamp ∧
        sample.presentationTimeStamp ≤ timeSecs + asset.tolerance

theorem toMicros_mono {left right : ℚ} (h : left ≤ right) : toMicros left ≤ toMicros right :=
  f64Round_mono (by rw [timescale]; linarith)

@[simp] theorem toMicros_start (timeSecs : ℚ) :
    toMicros (toMicros timeSecs / timescale) = toMicros timeSecs := by
  rw [toMicros, div_mul_cancel₀ _ (by norm_num [timescale]), f64Round_intCast]

theorem VideoAsset.tolerance_pos (asset : VideoAsset Pixels) : 0 < asset.tolerance :=
  div_pos (by norm_num) asset.nominalFps_pos

theorem VideoAsset.toMicros_tolerance_nonneg (asset : VideoAsset Pixels) :
    0 ≤ toMicros asset.tolerance :=
  f64Round_nonneg (mul_nonneg asset.tolerance_pos.le (by norm_num [timescale]))

/-- Between half a frame before the time and the start of a new reader everything is near. -/
theorem VideoAsset.Near.of_le_start
    (hlimit : timeSecs - asset.tolerance ≤ frame.presentationTimeStamp)
    (hstart : frame.presentationTimeStamp ≤ toMicros timeSecs / timescale) :
    asset.Near timeSecs frame := by
  by_cases htime : frame.presentationTimeStamp ≤ timeSecs
  · exact .inr ⟨hlimit, by linarith⟩
  · have hle := toMicros_mono hstart
    have hge := toMicros_mono (not_le.1 htime).le
    rw [toMicros_start] at hle
    rw [VideoAsset.Near, le_antisymm hle hge, sub_self, abs_zero]
    exact .inl asset.toMicros_tolerance_nonneg

/-- Samples before a near one are near, from half a frame before the time on. -/
theorem VideoAsset.Near.of_le {near : VideoSample Pixels} (h : asset.Near timeSecs near)
    (hlimit : timeSecs - asset.tolerance ≤ frame.presentationTimeStamp)
    (hle : frame.presentationTimeStamp ≤ near.presentationTimeStamp) :
    asset.Near timeSecs frame := by
  by_cases htime : frame.presentationTimeStamp ≤ timeSecs
  · exact .inr ⟨hlimit, by linarith⟩
  · rcases h with h | h
    · have hge := toMicros_mono (not_le.1 htime).le
      have hle := toMicros_mono hle
      rw [abs_of_nonneg (by omega)] at h
      exact .inl (by rw [abs_of_nonneg (by omega)]; omega)
    · exact .inr ⟨hlimit, hle.trans h.2⟩

theorem TrackOrdered.eq_of_time (h : TrackOrdered track) {left right : VideoSample Pixels}
    (hleft : left ∈ track) (hright : right ∈ track)
    (htime : left.presentationTimeStamp = right.presentationTimeStamp) : left = right := by
  have hne : track.Pairwise fun left right =>
      left.presentationTimeStamp ≠ right.presentationTimeStamp := h.imp ne_of_lt
  have : Std.Symm fun left right : VideoSample Pixels =>
      left.presentationTimeStamp ≠ right.presentationTimeStamp := ⟨fun _ _ => Ne.symm⟩
  by_contra hdistinct
  exact hne.forall hleft hright hdistinct htime

/-- Every near sample is the one a new reader gives. -/
theorem VideoAsset.Settled.eq_of_near (h : asset.Settled track timeSecs)
    (hordered : TrackOrdered track) {found : VideoSample Pixels}
    (hfound : asset.Finds track timeSecs found) (hframe : frame ∈ track)
    (hnear : asset.Near timeSecs frame) : frame = found := by
  obtain ⟨hmem, hfound⟩ := hfound
  by_cases hlimit : timeSecs - asset.tolerance ≤ frame.presentationTimeStamp
  · refine h.unique frame hframe found hmem hnear ?_
    rcases hfound with ⟨hfoundLimit, hfirst⟩ | hlast
    · rcases hfirst frame hframe hlimit with hle | ⟨-, hstart⟩
      · exact hnear.of_le hfoundLimit hle
      · exact .of_le_start hfoundLimit hstart
    · exact absurd (hlast frame hframe).2 (not_lt.2 hlimit)
  · have hle := h.rounded frame hframe hnear (not_le.1 hlimit) found hmem
    rcases hfound with ⟨hfoundLimit, -⟩ | hlast
    · exact absurd (hfoundLimit.trans hle) hlimit
    · exact hordered.eq_of_time hframe hmem (le_antisymm (hlast frame hframe).1 hle)

/-- Reading on gives what a new reader gives. -/
theorem VideoAsset.Settled.eq_of_first (h : asset.Settled track timeSecs)
    (hordered : TrackOrdered track) {found : VideoSample Pixels}
    (hfound : asset.Finds track timeSecs found) {earlier output : List (VideoSample Pixels)}
    (htrack : track = earlier ++ frame :: output)
    (hearlier : ∀ sample ∈ earlier, sample.presentationTimeStamp < timeSecs - asset.tolerance)
    (hlimit : timeSecs - asset.tolerance ≤ frame.presentationTimeStamp) : frame = found := by
  have hframe : frame ∈ track := by simp [htrack]
  rcases hfound.2 with ⟨hfoundLimit, hfirst⟩ | hlast
  · rcases hfirst frame hframe hlimit with hle | ⟨hlt, hstart⟩
    · have hfirst : frame.presentationTimeStamp ≤ found.presentationTimeStamp := by
        have hmem := hfound.1
        rw [htrack] at hmem hordered
        rcases List.mem_append.1 hmem with hmem | hmem
        · exact absurd hfoundLimit (not_le.2 (hearlier found hmem))
        · obtain rfl | hmem := List.mem_cons.1 hmem
          · exact le_rfl
          · exact ((List.pairwise_cons.1 (List.pairwise_append.1 hordered).2.1).1 found hmem).le
      exact hordered.eq_of_time hframe hfound.1 (le_antisymm hfirst hle)
    · exact h.eq_of_near hordered hfound hframe (.of_le_start hlimit (hlt.le.trans hstart))
  · exact absurd (hlast frame hframe).2 (not_lt.2 hlimit)

/-- A decoder on the track answers as a new reader does. -/
theorem VideoDecoder.Follows.frameAt_fst {decoder : VideoDecoder Pixels}
    (hdecoder : decoder.Follows track) (hordered : TrackOrdered track)
    (hreads : asset.Reads track) (h : asset.Settled track timeSecs) :
    (decoder.frameAt asset timeSecs).1 = (VideoDecoder.new.seek asset timeSecs).1 := by
  have hseek : ∀ frame ∈ track, ∃ found,
      (VideoDecoder.new.seek asset timeSecs).1 = .ok found ∧ asset.Finds track timeSecs found :=
    fun frame hframe =>
      ((VideoDecoder.Follows.new.seek hordered hreads timeSecs).2 (List.ne_nil_of_mem hframe))
  rw [VideoDecoder.frameAt]
  split
  next frame hcached =>
    obtain ⟨hframe, hnear⟩ := hdecoder.cachedFrame hcached
    obtain ⟨found, hfresh, hfound⟩ := hseek frame hframe
    rw [hfresh, h.eq_of_near hordered hfound hframe hnear]
  next =>
    rcases hdecoder.decodeOn hordered asset timeSecs with
      ⟨frame, hframe, hnear, hdecoded⟩ |
      ⟨_, frame, _, decoder', htrack, hearlier, hlimit, -, hdecoded⟩ | ⟨decoder', -, hdecoded⟩
    · obtain ⟨found, hfresh, hfound⟩ := hseek frame hframe
      rw [hdecoded, hfresh, h.eq_of_near hordered hfound hframe hnear]
    · obtain ⟨found, hfresh, hfound⟩ := hseek frame (by simp [htrack])
      rw [hdecoded, hfresh, h.eq_of_first hordered hfound htrack hearlier hlimit]
    · rw [hdecoded]
      exact VideoDecoder.seek_fst asset timeSecs decoder' .new

/-- What a new reader gives at a settled time is not late when something is displayed then. -/
theorem VideoAsset.Settled.not_late (h : asset.Settled track timeSecs)
    (hfound : asset.Finds track timeSecs frame)
    (hshown : ∃ sample ∈ track, sample.presentationTimeStamp ≤ timeSecs) :
    frame.presentationTimeStamp ≤ timeSecs + asset.tolerance := by
  have hpos := asset.tolerance_pos
  obtain ⟨hframe, hfound⟩ := hfound
  by_cases htime : frame.presentationTimeStamp ≤ timeSecs
  · linarith
  · obtain ⟨sample, hsample, hlimit, hle⟩ :=
      h.covered hshown ⟨frame, hframe, not_le.1 htime⟩
    rcases hfound with ⟨hframeLimit, hfirst⟩ | hlast
    · rcases hfirst sample hsample hlimit with hfirst | ⟨hlt, hstart⟩
      · exact hfirst.trans hle
      · have heq := h.unique sample hsample frame hframe
          (.of_le_start hlimit (hlt.le.trans hstart)) (.of_le_start hframeLimit hstart)
        exact absurd heq (fun heq => by rw [heq] at hlt; exact lt_irrefl _ hlt)
    · linarith [(hlast frame hframe).2]

/-- After any history the frame of a settled time is the one a new decoder gives, and it is never
later than half a nominal frame after the time when a frame is displayed then. -/
theorem frame_of_settled_time (hordered : TrackOrdered track) (hreads : asset.Reads track)
    (h : asset.Settled track timeSecs) (history : List ℚ) :
    asset.answer history timeSecs = asset.answer [] timeSecs ∧
      ∀ frame, asset.answer history timeSecs = .ok frame →
        (∃ sample ∈ track, sample.presentationTimeStamp ≤ timeSecs) →
          frame.presentationTimeStamp ≤ timeSecs + asset.tolerance := by
  have hanswer : asset.answer history timeSecs = (VideoDecoder.new.seek asset timeSecs).1 :=
    (VideoDecoder.follows_after hordered hreads history).frameAt_fst hordered hreads h
  refine ⟨hanswer, fun frame hframe hshown => ?_⟩
  obtain ⟨sample, hsample, -⟩ := id hshown
  obtain ⟨found, hfresh, hfound⟩ :=
    (VideoDecoder.Follows.new.seek hordered hreads timeSecs).2 (List.ne_nil_of_mem hsample)
  rw [hanswer, hfresh] at hframe
  obtain rfl := Except.ok.inj hframe
  exact h.not_late hfound hshown

/-- In a gap of the track a new decoder answers with a frame after the gap. -/
theorem answer_late_of_gap (hordered : TrackOrdered track) (hreads : asset.Reads track)
    (hafter : ∃ sample ∈ track, timeSecs < sample.presentationTimeStamp)
    (hgap : ∀ sample ∈ track, timeSecs - asset.tolerance ≤ sample.presentationTimeStamp →
      timeSecs + asset.tolerance < sample.presentationTimeStamp) :
    ∃ frame, asset.answer [] timeSecs = .ok frame ∧
      timeSecs + asset.tolerance < frame.presentationTimeStamp := by
  have hpos := asset.tolerance_pos
  obtain ⟨sample, hsample, hlater⟩ := hafter
  obtain ⟨frame, hfresh, hframe, hfound⟩ :=
    (VideoDecoder.Follows.new.seek hordered hreads timeSecs).2 (List.ne_nil_of_mem hsample)
  refine ⟨frame, hfresh, hgap frame hframe ?_⟩
  rcases hfound with ⟨hlimit, -⟩ | hlast
  · exact hlimit
  · linarith [(hlast sample hsample).2]

/-! ## A still screen

A recording has no frames while the screen does not change.
-/

/-- A file with a nominal frame rate and the given samples. -/
def fileOf (track : List (VideoSample ℕ)) (nominalFrameRate : ℚ) : VideoAsset ℕ :=
  .open nominalFrameRate 3 (displayedFrom · track)

/-- Frames 0 and 1 at the nominal rate, and frame 2 ten seconds later. -/
def stillScreen : List (VideoSample ℕ) := [⟨0, 0⟩, ⟨1 / 30, 1⟩, ⟨10, 2⟩]

theorem stillScreen_ordered : TrackOrdered stillScreen := by
  rw [stillScreen, TrackOrdered]
  norm_num

theorem frame_of_settled_time_stillScreen :
    (fileOf stillScreen 30).answer [10, 0] (1 / 30) = (fileOf stillScreen 30).answer [] (1 / 30) ∧
      ∀ frame, (fileOf stillScreen 30).answer [10, 0] (1 / 30) = .ok frame →
        (∃ sample ∈ stillScreen, sample.presentationTimeStamp ≤ 1 / 30) →
          frame.presentationTimeStamp ≤ 1 / 30 + (fileOf stillScreen 30).tolerance := by
  refine frame_of_settled_time stillScreen_ordered (fun _ => rfl) ⟨?_, ?_, ?_⟩ [10, 0]
  · decide +kernel
  · decide +kernel
  · decide +kernel

/-- While the screen is still the frame that ends the stillness is already given. -/
theorem stillScreen_frame_late :
    ¬ ∀ (asset : VideoAsset ℕ) track history timeSecs, TrackOrdered track → asset.Reads track →
      asset.answer history timeSecs = asset.answer [] timeSecs ∧
        ∀ frame, asset.answer history timeSecs = .ok frame →
          (∃ sample ∈ track, sample.presentationTimeStamp ≤ timeSecs) →
            frame.presentationTimeStamp ≤ timeSecs + asset.tolerance := by
  intro h
  have hlate := (h (fileOf stillScreen 30) stillScreen [0] 1 stillScreen_ordered fun _ => rfl).2
    ⟨10, 2⟩ (by decide +kernel) (by decide +kernel)
  exact absurd hlate (by decide +kernel)

-- From 50 frames a second on, the last frame of the reader is given up to 0.01 s early, which is
-- more than half a frame: a scrub back shows another frame than opening the file anew.
example : (fileOf [⟨0, 0⟩, ⟨0.008, 1⟩] 120).answer [0.008] 0.001 = .ok ⟨0.008, 1⟩ ∧
    (fileOf [⟨0, 0⟩, ⟨0.008, 1⟩] 120).answer [] 0.001 = .ok ⟨0, 0⟩ := by decide +kernel

end

end Blip.Avf
