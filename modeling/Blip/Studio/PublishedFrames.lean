import Blip.Common.PushLoops
import Blip.Studio.Publisher
import Mathlib.Data.List.Forall2

/-!
# What a publisher encodes

A picture is copied row by row into a frame whose rows may lie further apart, and the frame then shows
the picture. What the thread has encoded are the pictures it took, in their order and at times that never
go back.
-/

namespace Blip.Studio

/-! ## Copying a picture -/

/-- The bytes of a row of pixels. -/
def CVPixelBuffer.row (image : CVPixelBuffer) (index : ℕ) : List UInt8 :=
  (List.range (image.width * 4)).map fun column =>
    image.baseAddress.elim 0 (· (index * image.bytesPerRow + column))

theorem CVPixelBuffer.length_row (image : CVPixelBuffer) (index : ℕ) :
    (image.row index).length = image.width * 4 := by
  rw [CVPixelBuffer.row, List.length_map, List.length_range]

/-- The frame has the rows of a picture. -/
def VideoFrame.Shows (frame : VideoFrame) (image : CVPixelBuffer) : Prop :=
  ∀ index, index < image.height →
    slice frame.data (index * frame.stride) (image.width * 4) = some (image.row index)

/-- A picture that can be copied into a frame: it has an address and the right format and size, it could
be locked and unlocked, and its rows are inside its own memory and inside the frame. -/
structure Copyable (image : CVPixelBuffer) (frame : VideoFrame) : Prop where
  pixelFormat : image.pixelFormat = kCVPixelFormatType_32BGRA
  width : image.width = frame.width
  height : image.height = frame.height
  lock : image.lockStatus = 0
  unlock : image.unlockStatus = 0
  address : image.baseAddress.isSome = true
  rowBytes : image.width * 4 ≤ usizeMax
  size : image.bytesPerRow * image.height ≤ usizeMax
  rows : ∀ index, index < image.height →
    index * image.bytesPerRow + image.width * 4 ≤ image.bytesPerRow * image.height
  room : ∀ index, index < image.height → index * frame.stride + image.width * 4 ≤ frame.data.length

theorem checkedMul_eq_ok {message : String} {left right result : ℕ} :
    checkedMul message left right = .ok result ↔ left * right ≤ usizeMax ∧ result = left * right := by
  unfold checkedMul
  split
  · rename_i h
    rw [Except.ok.injEq, eq_comm, and_iff_right h]
  · rename_i h
    exact ⟨nofun, fun hle => absurd hle.1 h⟩

section

variable {source destination data : List UInt8} {sourceStride destinationStride rowBytes : ℕ}
  {row : ℕ → List UInt8}

theorem copyRow_eq_ok {index : ℕ} :
    copyRow source sourceStride destinationStride rowBytes destination index = .ok data ↔
      ∃ sourceRow, slice source (index * sourceStride) rowBytes = some sourceRow ∧
        index * destinationStride + rowBytes ≤ destination.length ∧
        data = overwrite destination sourceRow (index * destinationStride) := by
  unfold copyRow
  split
  · rename_i hsource
    exact ⟨nofun, fun ⟨_, h, _⟩ => nomatch hsource.symm.trans h⟩
  · rename_i sourceRow hsource
    split
    · rename_i hdestination
      refine ⟨nofun, fun ⟨_, _, h, _⟩ => ?_⟩
      have hsome := slice_isSome_iff.2 h
      rw [hdestination] at hsome
      cases hsome
    · rename_i written hdestination
      refine ⟨fun h => ⟨sourceRow, hsource, ?_, (Except.ok.inj h).symm⟩, fun ⟨_, h, _, hdata⟩ => ?_⟩
      · exact (slice_eq_some_iff.1 hdestination).1
      · rw [hdata, Option.some.inj (hsource.symm.trans h)]

/-- The loop ends well exactly where every row is inside both blocks. -/
theorem foldlM_copyRow_eq_ok (hwidth : ∀ index, (row index).length = rowBytes) {rows : ℕ}
    (hrow : ∀ index, index < rows → index * sourceStride + rowBytes ≤ source.length →
      slice source (index * sourceStride) rowBytes = some (row index)) :
    (List.range rows).foldlM (copyRow source sourceStride destinationStride rowBytes) destination =
        .ok data ↔
      (∀ index, index < rows → index * sourceStride + rowBytes ≤ source.length) ∧
      (∀ index, index < rows → index * destinationStride + rowBytes ≤ destination.length) ∧
      data = overwriteRows row destinationStride destination rows := by
  induction rows generalizing data with
  | zero =>
    rw [List.range_zero, List.foldlM_nil]
    simp [overwriteRows, pure, Except.pure, eq_comm]
  | succ rows ih =>
    have hbefore := fun index (hindex : index < rows) => hrow index (Nat.lt_succ_of_lt hindex)
    simp only [List.range_succ, List.foldlM_append, List.foldlM_cons, List.foldlM_nil, bind_pure,
      bind_eq_ok, copyRow_eq_ok, ih hbefore, Nat.forall_lt_succ_right]
    constructor
    · rintro ⟨_, ⟨hsource, hdestination, rfl⟩, sourceRow, hslice, hroom, rfl⟩
      have hlast := (slice_eq_some_iff.1 hslice).1
      rw [length_overwriteRows hwidth hdestination] at hroom
      obtain rfl := Option.some.inj (hslice.symm.trans (hrow rows (Nat.lt_succ_self rows) hlast))
      exact ⟨⟨hsource, hlast⟩, ⟨hdestination, hroom⟩, rfl⟩
    · rintro ⟨⟨hsource, hlast⟩, ⟨hdestination, hroom⟩, rfl⟩
      refine ⟨_, ⟨hsource, hdestination, rfl⟩, _, hrow rows (Nat.lt_succ_self rows) hlast, ?_, rfl⟩
      rw [length_overwriteRows hwidth hdestination]
      exact hroom

end

section

variable {image : CVPixelBuffer} {frame result : VideoFrame}

theorem slice_memory {address : ℕ → UInt8} (haddress : image.baseAddress = some address) {size index : ℕ}
    (hfits : index * image.bytesPerRow + image.width * 4 ≤ size) :
    slice ((List.range size).map address) (index * image.bytesPerRow) (image.width * 4) =
      some (image.row index) := by
  have h := slice_eq_some_of_getElem? ((List.range size).map address) (image.row index)
    (index * image.bytesPerRow)
  rw [image.length_row, List.length_map, List.length_range] at h
  refine h hfits fun column hcolumn => ?_
  rw [CVPixelBuffer.row, haddress, List.getElem?_map, List.getElem?_map, List.getElem?_range (by omega),
    List.getElem?_range hcolumn]
  rfl

theorem copyRows_eq_ok :
    copyRows image frame = .ok result ↔ image.baseAddress.isSome = true ∧ image.width * 4 ≤ usizeMax ∧
      image.bytesPerRow * image.height ≤ usizeMax ∧
      (∀ index, index < image.height →
        index * image.bytesPerRow + image.width * 4 ≤ image.bytesPerRow * image.height) ∧
      (∀ index, index < image.height → index * frame.stride + image.width * 4 ≤ frame.data.length) ∧
      result = { frame with data := overwriteRows image.row frame.stride frame.data image.height } := by
  unfold copyRows
  simp only [bind_eq_ok, checkedMul_eq_ok]
  cases haddress : image.baseAddress with
  | none =>
    exact ⟨fun ⟨_, _, _, _, h⟩ => (nomatch h), fun h => (nomatch h.1)⟩
  | some address =>
    have hloop := fun data => @foldlM_copyRow_eq_ok
      ((List.range (image.bytesPerRow * image.height)).map address) frame.data data image.bytesPerRow
      frame.stride (image.width * 4) image.row image.length_row image.height
      fun index _ hfits => slice_memory haddress (by simpa using hfits)
    simp only [List.length_map, List.length_range] at hloop
    constructor
    · rintro ⟨_, ⟨hrow, rfl⟩, _, ⟨hsize, rfl⟩, h⟩
      obtain ⟨data, hdata, hresult⟩ := bind_eq_ok.1 h
      obtain ⟨hsource, hdestination, rfl⟩ := (hloop data).1 hdata
      exact ⟨rfl, hrow, hsize, hsource, hdestination, (Except.ok.inj hresult).symm⟩
    · rintro ⟨_, hrow, hsize, hsource, hdestination, rfl⟩
      refine ⟨_, ⟨hrow, rfl⟩, _, ⟨hsize, rfl⟩, bind_eq_ok.2 ⟨_, (hloop _).2 ?_, rfl⟩⟩
      exact ⟨hsource, hdestination, rfl⟩

/-- A picture is copied exactly when it can be, and then only the rows of the frame change. -/
theorem copyPixelBuffer_eq_ok :
    copyPixelBuffer image frame = .ok result ↔ Copyable image frame ∧
      result = { frame with data := overwriteRows image.row frame.stride frame.data image.height } := by
  unfold copyPixelBuffer
  constructor
  · intro h
    split_ifs at h with hformat hdimensions hlock hunlock
    obtain ⟨hwidth, hheight⟩ := not_or.1 hdimensions
    obtain ⟨haddress, hrow, hsize, hsource, hdestination, hresult⟩ := copyRows_eq_ok.1 h
    exact ⟨⟨not_not.1 hformat, not_not.1 hwidth, not_not.1 hheight, not_not.1 hlock, not_not.1 hunlock,
      haddress, hrow, hsize, hsource, hdestination⟩, hresult⟩
  · rintro ⟨h, hresult⟩
    rw [if_neg (not_not.2 h.pixelFormat), if_neg (not_or.2 ⟨not_not.2 h.width, not_not.2 h.height⟩),
      if_neg (not_not.2 h.lock)]
    dsimp only
    rw [if_neg (not_not.2 h.unlock)]
    exact copyRows_eq_ok.2 ⟨h.address, h.rowBytes, h.size, h.rows, h.room, hresult⟩

/-- The frame shows what was copied into it, and the bytes between its rows are as before. -/
theorem shows_of_copy (hstride : frame.width * 4 ≤ frame.stride)
    (h : copyPixelBuffer image frame = .ok result) :
    result.Shows image ∧ result.width = frame.width ∧ result.height = frame.height ∧
      result.stride = frame.stride ∧ result.data.length = frame.data.length ∧
      ∀ index, frame.height ≤ index / frame.stride ∨ frame.width * 4 ≤ index % frame.stride →
        result.data[index]? = frame.data[index]? := by
  obtain ⟨hcopyable, rfl⟩ := copyPixelBuffer_eq_ok.1 h
  rw [← hcopyable.width] at hstride ⊢
  rw [← hcopyable.height]
  refine ⟨fun index hindex => ?_, rfl, rfl, rfl, ?_, fun index hpadding => ?_⟩
  · exact slice_overwriteRows image.length_row hstride hcopyable.room hindex
  · exact length_overwriteRows image.length_row hcopyable.room
  · exact getElem?_overwriteRows_padding image.length_row hstride hcopyable.room hpadding

/-- A picture is copied exactly when it can be; the frame then has the shape it had and the picture's
rows, and every other byte of it is as before. -/
theorem copyPixelBuffer_copies (image : CVPixelBuffer) (frame : VideoFrame)
    (hstride : frame.width * 4 ≤ frame.stride) :
    ((∃ result, copyPixelBuffer image frame = .ok result) ↔ Copyable image frame) ∧
    ∀ result, copyPixelBuffer image frame = .ok result →
      result.Shows image ∧ result.width = frame.width ∧ result.height = frame.height ∧
      result.stride = frame.stride ∧ result.data.length = frame.data.length ∧
      ∀ index, frame.height ≤ index / frame.stride ∨ frame.width * 4 ≤ index % frame.stride →
        result.data[index]? = frame.data[index]? := by
  refine ⟨⟨fun ⟨_, h⟩ => (copyPixelBuffer_eq_ok.1 h).1, fun h => ?_⟩, fun _ => shows_of_copy hstride⟩
  exact ⟨_, copyPixelBuffer_eq_ok.2 ⟨h, rfl⟩⟩

/-- Two rows of one pixel, with two bytes behind each row of the picture and one behind those of the
frame. -/
theorem copyPixelBuffer_copies_twoRows :
    VideoFrame.Shows ⟨1, 2, 5, [0, 1, 2, 3, 9, 6, 7, 8, 9, 9]⟩
      ⟨kCVPixelFormatType_32BGRA, 1, 2, 6, some fun index => index.toUInt8, 0, 0⟩ :=
  ((copyPixelBuffer_copies _ ⟨1, 2, 5, List.replicate 10 9⟩ (by decide)).2 _ rfl).1

end

/-! ## The thread -/

/-- The presentation time of a time in nanoseconds. -/
def ptsOf (timestamp : ℕ) : ℕ := timestamp / 1000 * timeBase / 1000000

theorem timestampPts_eq_ok {timestamp pts : ℕ} (h : timestampPts timestamp = .ok pts) :
    pts = ptsOf timestamp := by
  unfold timestampPts at h
  dsimp only at h
  split_ifs at h
  exact (Except.ok.inj h).symm

theorem ptsOf_mono {first second : ℕ} (h : first ≤ second) : ptsOf first ≤ ptsOf second :=
  Nat.div_le_div_right (Nat.mul_le_mul_right _ (Nat.div_le_div_right h))

/-- The thread has not failed and is to go on. -/
def PublishPhase.IsRunning : PublishPhase → Prop
  | .opening | .publishing => True
  | _ => False

/-- The thread has left its loop. -/
def PublishPhase.IsOver : PublishPhase → Prop
  | .closing | .ended => True
  | _ => False

theorem PublishPhase.IsRunning.not_isOver {phase : PublishPhase} (h : phase.IsRunning) :
    ¬ phase.IsOver := by
  cases phase with
  | opening | publishing => exact id
  | reporting | closing | ended => exact h.elim

namespace Publisher

variable {p p' : Publisher}

/-- Where the pictures of a publisher are. -/
structure Sound (p : Publisher) : Prop where
  offered : p.accepted.Sublist p.offered
  channel : p.phase ≠ .ended → p.accepted = p.taken ++ p.frames
  taken : p.taken <+: p.accepted
  room : p.frames.length ≤ frameQueueDepth
  bgra : p.phase = .publishing → p.bgra.Allocated p.dimensions
  encoded : List.Forall₂ (fun (frame : VideoFrame × ℕ) image => frame.1.Shows image) p.encoded
    (p.taken.take p.encoded.length)
  behind : p.taken.length ≤ p.encoded.length + 1
  running : p.phase.IsRunning → p.encoded.length = p.taken.length
  finished : p.phase.IsOver → p.reported = none →
    p.sender = false ∧ p.encoded.length = p.taken.length ∧ p.accepted = p.taken
  unreported : ¬ p.phase.IsOver → p.reported = none
  times : p.encoded.Pairwise (·.2 ≤ ·.2)
  clock : ∀ frame ∈ p.encoded, frame.2 ≤ ptsOf p.clock

theorem Sound.start (config : RtmpConfig) (dimensions : ℕ × ℕ) (generation : ℕ) :
    (Publisher.start config dimensions generation).Sound where
  offered := .slnil
  channel := fun _ => rfl
  taken := List.nil_prefix
  room := Nat.zero_le _
  bgra := nofun
  encoded := .nil
  behind := Nat.zero_le _
  running := fun _ => rfl
  finished := nofun
  unreported := fun _ => rfl
  times := .nil
  clock := nofun

section

variable (h : p.Sound)
include h

theorem Sound.stop : p.stop.Sound :=
  ⟨h.offered, h.channel, h.taken, h.room, h.bgra, h.encoded, h.behind, h.running,
    fun hover hnone => ⟨rfl, (h.finished hover hnone).2⟩, h.unreported, h.times, h.clock⟩

theorem Sound.fail (hrunning : p.phase.IsRunning) (message : String) : (p.fail message).Sound where
  offered := h.offered
  channel := fun _ => h.channel fun hended => by rw [hended] at hrunning; exact hrunning
  taken := h.taken
  room := h.room
  bgra := nofun
  encoded := h.encoded
  behind := h.behind
  running := False.elim
  finished := nofun
  unreported := fun _ => h.unreported hrunning.not_isOver
  times := h.times
  clock := h.clock

section

variable {image : CVPixelBuffer} {frames : List CVPixelBuffer} {elapsed : ℕ}
  (hphase : p.phase = .publishing) (hframes : p.frames = image :: frames) (helapsed : p.clock ≤ elapsed)
include hphase hframes

/-- The picture at the head of the channel is the next one that was accepted. -/
theorem Sound.take : p.accepted = p.taken ++ [image] ++ frames := by
  have hended : p.phase ≠ .ended := by rw [hphase]; exact nofun
  rw [h.channel hended, hframes, List.append_assoc, List.singleton_append]

omit hphase in
theorem Sound.room_take : frames.length ≤ frameQueueDepth := by
  have hroom := h.room
  rw [hframes, List.length_cons] at hroom
  omega

include helapsed

/-- A picture was taken and cannot be encoded. -/
theorem Sound.dropped (bgra : VideoFrame) (message : String) :
    Sound
      { p with
        frames
        clock := elapsed
        taken := p.taken ++ [image]
        bgra
        phase := .reporting message } where
  offered := h.offered
  channel := fun _ => h.take hphase hframes
  taken := ⟨frames, (h.take hphase hframes).symm⟩
  room := h.room_take hframes
  bgra := nofun
  encoded := by
    rw [List.take_append_of_le_length (h.running (hphase ▸ trivial)).le]
    exact h.encoded
  behind := by
    rw [List.length_append, h.running (hphase ▸ trivial)]
    exact le_rfl
  running := False.elim
  finished := nofun
  unreported := fun _ => h.unreported fun hover => by rw [hphase] at hover; exact hover
  times := h.times
  clock := fun frame hframe => (h.clock frame hframe).trans (ptsOf_mono helapsed)

/-- A picture was taken and encoded. -/
theorem Sound.encode {bgra : VideoFrame} (hcopy : copyPixelBuffer image p.bgra = .ok bgra) :
    Sound
      { p with
        frames
        clock := elapsed
        taken := p.taken ++ [image]
        bgra
        encoded := p.encoded ++ [(bgra, ptsOf elapsed)] } where
  offered := h.offered
  channel := fun _ => h.take hphase hframes
  taken := ⟨frames, (h.take hphase hframes).symm⟩
  room := h.room_take hframes
  bgra := fun _ => by
    have hallocated := h.bgra hphase
    obtain ⟨_, hwidth, hheight, hstride, hlength, _⟩ :=
      shows_of_copy (hallocated.width ▸ hallocated.stride) hcopy
    exact ⟨hwidth.trans hallocated.width, hheight.trans hallocated.height, hstride ▸ hallocated.stride,
      by rw [hstride, hlength]; exact hallocated.data⟩
  encoded := by
    have hlength := h.running (hphase ▸ trivial)
    have hallocated := h.bgra hphase
    have hbefore := h.encoded
    rw [hlength, List.take_length] at hbefore
    rw [List.take_of_length_le (by simp [hlength])]
    exact List.rel_append hbefore
      (.cons (shows_of_copy (hallocated.width ▸ hallocated.stride) hcopy).1 .nil)
  behind := by simp [h.running (hphase ▸ trivial)]
  running := fun _ => by simp [h.running (hphase ▸ trivial)]
  finished := fun hover => by rw [hphase] at hover; exact hover.elim
  unreported := fun _ => h.unreported fun hover => by rw [hphase] at hover; exact hover
  times := by
    rw [List.pairwise_append]
    refine ⟨h.times, List.pairwise_singleton _ _, fun before hbefore after hafter => ?_⟩
    rw [List.mem_singleton.1 hafter]
    exact (h.clock before hbefore).trans (ptsOf_mono helapsed)
  clock := fun frame hframe => by
    rcases List.mem_append.1 hframe with hframe | hframe
    · exact (h.clock frame hframe).trans (ptsOf_mono helapsed)
    · rw [List.mem_singleton.1 hframe]

end

/-- A turn of the loop. -/
theorem Sound.publish {image : CVPixelBuffer} {frames : List CVPixelBuffer}
    (hphase : p.phase = .publishing) (hframes : p.frames = image :: frames) {answers : FrameAnswers}
    (helapsed : p.clock ≤ answers.elapsed) :
    (Publisher.encode
      { p with
        frames
        clock := answers.elapsed
        taken := p.taken ++ [image] } image answers).Sound := by
  unfold Publisher.encode
  dsimp only
  split
  · exact h.dropped hphase hframes helapsed _ _
  rename_i bgra hcopy
  split
  · exact h.dropped hphase hframes helapsed _ _
  split
  · exact h.dropped hphase hframes helapsed _ _
  rename_i pts hpts
  obtain rfl := timestampPts_eq_ok hpts
  have hencoded := h.encode hphase hframes helapsed hcopy
  split
  · exact h.dropped hphase hframes helapsed _ _
  split
  · exact hencoded.fail (hphase ▸ trivial) _
  · exact hencoded

omit h in
theorem openStream_eq_ok {config : RtmpConfig} {dimensions : ℕ × ℕ} {answers : OpenAnswers}
    {bgra : VideoFrame} (hopen : openStream config dimensions answers = .ok bgra) :
    bgra = answers.bgra := by
  unfold openStream at hopen
  split_ifs at hopen
  obtain ⟨_, _, hopen⟩ := bind_eq_ok.1 hopen
  obtain ⟨_, _, hopen⟩ := bind_eq_ok.1 hopen
  obtain ⟨_, _, hopen⟩ := bind_eq_ok.1 hopen
  exact (Except.ok.inj hopen).symm

/-- What a step of the thread keeps. -/
theorem Sound.step {label : PublishStep} (hanswers : p.Answers label) (hstep : p.step label = some p') :
    p'.Sound := by
  unfold Publisher.step at hstep
  split at hstep
  · split at hstep
    · rename_i answers _ hphase
      split at hstep
      · obtain rfl := Option.some.inj hstep
        exact h.fail (hphase ▸ trivial) _
      · rename_i bgra hopen
        obtain rfl := Option.some.inj hstep
        obtain rfl := openStream_eq_ok hopen
        have hlength := h.running (hphase ▸ trivial)
        exact ⟨h.offered, fun _ => h.channel (by rw [hphase]; exact nofun), h.taken, h.room,
          fun _ => hanswers, h.encoded, h.behind, fun _ => hlength, nofun,
          fun _ => h.unreported (by rw [hphase]; exact id), h.times, h.clock⟩
    · cases hstep
  · split at hstep
    · rename_i image frames hphase hframes
      obtain rfl := Option.some.inj hstep
      exact h.publish hphase hframes hanswers
    · cases hstep
  · split at hstep
    · rename_i hphase hframes hsender
      split at hstep
      · obtain rfl := Option.some.inj hstep
        exact h.fail (hphase ▸ trivial) _
      · obtain rfl := Option.some.inj hstep
        have hchannel := h.channel (by rw [hphase]; exact nofun)
        rw [hframes, List.append_nil] at hchannel
        exact ⟨h.offered, fun _ => by rw [hframes, List.append_nil]; exact hchannel, h.taken, h.room,
          nofun, h.encoded, h.behind, False.elim,
          fun _ _ => ⟨hsender, h.running (hphase ▸ trivial), hchannel⟩,
          fun hover => absurd trivial hover, h.times, h.clock⟩
    · cases hstep
  · split at hstep
    · rename_i message hphase
      obtain rfl := Option.some.inj hstep
      exact ⟨h.offered, fun _ => h.channel (by rw [hphase]; exact nofun), h.taken, h.room, nofun,
        h.encoded, h.behind, False.elim, fun _ => nofun,
        fun hover => absurd trivial hover, h.times, h.clock⟩
    · cases hstep
  · split at hstep
    · rename_i hphase
      obtain rfl := Option.some.inj hstep
      exact ⟨h.offered, fun hended => absurd rfl hended, h.taken, Nat.zero_le _, nofun, h.encoded,
        h.behind, False.elim,
        fun _ => h.finished (hphase ▸ trivial), fun hover => absurd trivial hover, h.times,
        h.clock⟩
    · cases hstep

/-- What sending a picture keeps. -/
theorem Sound.send {image : CVPixelBuffer} (hsend : p.send image = .ok p') : p'.Sound := by
  unfold Publisher.send at hsend
  split at hsend
  swap
  · cases hsend
  rename_i hsender
  have hoffered : p.accepted.Sublist (p.offered ++ [image]) :=
    h.offered.trans (List.sublist_append_left _ _)
  split at hsend
  · cases hsend
  rename_i hended
  have hchannel := h.channel hended
  split at hsend
  · rename_i hroom
    obtain rfl := Except.ok.inj hsend
    refine ⟨h.offered.append_right _, fun _ => ?_, h.taken.trans (List.prefix_append _ _), ?_, h.bgra,
      h.encoded, h.behind, h.running, fun hover hnone => ?_, h.unreported, h.times, h.clock⟩
    · rw [hchannel, List.append_assoc]
    · rw [List.length_append]
      exact hroom
    · have hfalse := (h.finished hover hnone).1
      rw [hsender] at hfalse
      cases hfalse
  · obtain rfl := Except.ok.inj hsend
    exact ⟨hoffered, h.channel, h.taken, h.room, h.bgra, h.encoded, h.behind, h.running, h.finished,
      h.unreported, h.times, h.clock⟩

end

end Publisher

end Blip.Studio
