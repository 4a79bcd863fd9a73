import Blip.Studio.PublishedFrames
import Blip.Studio.Streams

/-!
# What reaches a stream, and how streams end

The viewer, the compositor and any number of publishers take their steps in any order. Pictures are
composed in the dimensions of the stream also while a stream starts or stops, an error stops only the
stream that it is about, and a publisher whose stream was stopped ends.
-/

namespace Blip.Studio

/-! ## Steps of a publisher -/

namespace Publisher

variable {p p' : Publisher} {label : PublishStep}

theorem encode_fixed (p : Publisher) (image : CVPixelBuffer) (answers : FrameAnswers) :
    (p.encode image answers).sender = p.sender ∧
      (p.encode image answers).generation = p.generation ∧
      (p.encode image answers).dimensions = p.dimensions ∧
      (p.encode image answers).offered = p.offered ∧
      (p.encode image answers).reported = p.reported := by
  unfold encode
  repeat' first | split | exact ⟨rfl, rfl, rfl, rfl, rfl⟩

/-- What the thread does not change. -/
theorem step_fixed (h : p.step label = some p') :
    p'.sender = p.sender ∧ p'.generation = p.generation ∧ p'.dimensions = p.dimensions ∧
      p'.offered = p.offered := by
  unfold step at h
  split at h
  · split at h
    · split at h <;> obtain rfl := Option.some.inj h <;> exact ⟨rfl, rfl, rfl, rfl⟩
    · cases h
  · split at h
    · rename_i answers _ _ image frames _ _
      obtain rfl := Option.some.inj h
      obtain ⟨hsender, hgeneration, hdimensions, hoffered, _⟩ := encode_fixed
        { p with frames, clock := answers.elapsed, taken := p.taken ++ [image] } image answers
      exact ⟨hsender, hgeneration, hdimensions, hoffered⟩
    · cases h
  · split at h
    · split at h <;> obtain rfl := Option.some.inj h <;> exact ⟨rfl, rfl, rfl, rfl⟩
    · cases h
  · split at h
    · obtain rfl := Option.some.inj h
      exact ⟨rfl, rfl, rfl, rfl⟩
    · cases h
  · split at h
    · obtain rfl := Option.some.inj h
      exact ⟨rfl, rfl, rfl, rfl⟩
    · cases h

/-- A step reports nothing, or the one error of the publisher. -/
theorem step_reported (hsound : p.Sound) (h : p.step label = some p') :
    (p'.reported = p.reported ∧ Streams.reportOf p label = []) ∨
      ∃ message, p.reported = none ∧ p'.reported = some message ∧
        Streams.reportOf p label = [(p.generation, message)] := by
  unfold step at h
  split at h
  · left
    refine ⟨?_, by unfold Streams.reportOf; split <;> trivial⟩
    split at h
    · split at h <;> obtain rfl := Option.some.inj h <;> rfl
    · cases h
  · left
    refine ⟨?_, by unfold Streams.reportOf; split <;> trivial⟩
    split at h
    · rename_i answers _ _ image frames _ _
      obtain rfl := Option.some.inj h
      exact (encode_fixed
        { p with frames, clock := answers.elapsed, taken := p.taken ++ [image] } image answers).2.2.2.2
    · cases h
  · left
    refine ⟨?_, by unfold Streams.reportOf; split <;> trivial⟩
    split at h
    · split at h <;> obtain rfl := Option.some.inj h <;> rfl
    · cases h
  · split at h
    · rename_i message hphase
      obtain rfl := Option.some.inj h
      refine .inr ⟨message, hsound.unreported (by rw [hphase]; exact id), rfl, ?_⟩
      unfold Streams.reportOf
      rw [hphase]
    · cases h
  · left
    refine ⟨?_, by unfold Streams.reportOf; split <;> trivial⟩
    split at h
    · obtain rfl := Option.some.inj h
      rfl
    · cases h

theorem send_fixed {image : CVPixelBuffer} (h : p.send image = .ok p') :
    p'.sender = p.sender ∧ p'.generation = p.generation ∧ p'.dimensions = p.dimensions ∧
      p'.offered = p.offered ++ [image] ∧ p'.reported = p.reported := by
  unfold send at h
  repeat' first | split at h | cases h | (obtain rfl := Except.ok.inj h)
  all_goals exact ⟨rfl, rfl, rfl, rfl, rfl⟩

end Publisher

/-! ## The invariant -/

/-- A picture of the canvas. -/
def CVPixelBuffer.OfCanvas (image : CVPixelBuffer) : Prop :=
  (image.width, image.height) = defaultCanvasDimensions ∧
    image.pixelFormat = kCVPixelFormatType_32BGRA

theorem saturatingSucc_le (value : ℕ) : saturatingSucc value ≤ u64Max := Nat.min_le_right _ _

theorem le_saturatingSucc {value : ℕ} (h : value ≤ u64Max) : value ≤ saturatingSucc value :=
  Nat.le_min.2 ⟨Nat.le_succ _, h⟩

namespace Streams

variable {s s' : Streams}

/-- A publisher at its place among all those that were started. -/
structure PublisherAt (s : Streams) (index : ℕ) (p : Publisher) : Prop where
  sound : p.Sound
  dimensions : p.dimensions = defaultCanvasDimensions
  pictures : ∀ image ∈ p.offered, image.OfCanvas
  offered : p.offered <:+: s.shown
  generation : p.generation ≤ s.streamGeneration
  sender : p.sender = true ↔ s.stream = some index
  current : s.stream = some index → p.generation = s.streamGeneration
  latest : s.stream = some index → p.offered <:+ s.shown
  pending : s.stream = some index → ∀ message, p.reported = some message →
    (p.generation, message) ∈ s.reports

structure Inv (s : Streams) : Prop where
  canvas : s.streamCanvas = s.stream.map fun _ => defaultCanvasDimensions
  content : ∀ dimensions ∈ s.contentDimensions, dimensions = defaultCanvasDimensions
  request : ∀ locked ∈ s.request, composedDimensions locked = defaultCanvasDimensions
  rendering : ∀ locked ∈ s.rendering, composedDimensions locked = defaultCanvasDimensions
  composed : ∀ picture ∈ s.composed, picture.1.OfCanvas ∧ picture.2 = defaultCanvasDimensions
  generation : s.streamGeneration ≤ u64Max
  stream : ∀ index ∈ s.stream, index < s.publishers.length
  publishers : ∀ index p, s.publishers[index]? = some p → s.PublisherAt index p
  generations : s.streamGeneration < u64Max →
    (s.publishers.map Publisher.generation).Pairwise (· < ·)
  reports : ∀ report ∈ s.reports, ∃ (index : ℕ) (p : Publisher), s.publishers[index]? = some p ∧
    p.generation = report.1 ∧ p.reported = some report.2

theorem Inv.launched (fps bitrate : ℕ) : (Streams.launched fps bitrate).Inv where
  canvas := rfl
  content := nofun
  request := nofun
  rendering := nofun
  composed := nofun
  generation := Nat.zero_le _
  stream := nofun
  publishers := nofun
  generations := fun _ => .nil
  reports := nofun

section

variable (h : s.Inv)
include h

/-- The canvas is locked to its own dimensions. -/
theorem Inv.locked : composedDimensions s.streamCanvas = defaultCanvasDimensions := by
  rw [h.canvas, composedDimensions]
  cases s.stream <;> rfl

end

/-! ## The publishers at their places -/

theorem dropStream_publishers (s : Streams) (index : ℕ) :
    s.dropStream.publishers[index]? =
      s.publishers[index]?.map fun p => if s.stream = some index then p.stop else p := by
  unfold dropStream
  cases s.stream with
  | none => simp
  | some live => simp [List.getElem?_modify]

theorem set_publishers {publishers : List Publisher} {index : ℕ} {p : Publisher}
    (hp : publishers[index]? = some p) (stepped : Publisher) (place : ℕ) :
    (publishers.set index stepped)[place]? =
      publishers[place]?.map fun p => if place = index then stepped else p := by
  rw [List.getElem?_set]
  split
  · rename_i heq
    subst heq
    rw [if_pos (List.getElem?_eq_some_iff.1 hp).1, hp]
    simp
  · rename_i hne
    simp [Ne.symm hne]

theorem dropStream_generations (s : Streams) :
    s.dropStream.publishers.map Publisher.generation = s.publishers.map Publisher.generation := by
  apply List.ext_getElem?
  intro index
  rw [List.getElem?_map, dropStream_publishers, List.getElem?_map]
  cases s.publishers[index]? with
  | none => rfl
  | some p => simp [Publisher.stop, apply_ite]

theorem set_generations {publishers : List Publisher} {index : ℕ} {p stepped : Publisher}
    (hp : publishers[index]? = some p) (hstepped : stepped.generation = p.generation) :
    (publishers.set index stepped).map Publisher.generation =
      publishers.map Publisher.generation := by
  rw [List.map_set, hstepped]
  obtain ⟨hlt, rfl⟩ := List.getElem?_eq_some_iff.1 hp
  apply List.ext_getElem?
  intro place
  rw [List.getElem?_set]
  split
  · rename_i heq
    subst heq
    simp [hlt]
  · rfl

theorem getElem?_concat {publishers : List Publisher} {p started : Publisher} {index : ℕ} :
    (publishers ++ [started])[index]? = some p ↔
      publishers[index]? = some p ∨ index = publishers.length ∧ p = started := by
  rcases Nat.lt_trichotomy index publishers.length with hlt | rfl | hgt
  · rw [List.getElem?_append_left hlt, or_iff_left fun h => hlt.ne h.1]
  · simp [eq_comm]
  · rw [List.getElem?_append_right hgt.le, List.getElem?_singleton, if_neg (by omega),
      List.getElem?_eq_none hgt.le]
    simp [hgt.ne']

/-! ## What the steps keep -/

section

variable (h : s.Inv)
include h

/-- The viewer drops the stream, if there is one, and unlocks the canvas. -/
theorem Inv.dropStream {generation : ℕ} (hgeneration : s.streamGeneration ≤ generation)
    (hbound : generation ≤ u64Max)
    {reports : List (ℕ × String)} (hreports : ∀ report ∈ reports, report ∈ s.reports)
    (error : Option String) :
    Inv
      { s.dropStream with
        streamCanvas := none
        streamGeneration := generation
        controlError := error
        reports } where
  canvas := rfl
  content := h.content
  request := h.request
  rendering := h.rendering
  composed := h.composed
  generation := hbound
  stream := nofun
  publishers := fun index p' hp' => by
    rw [dropStream_publishers, Option.map_eq_some_iff] at hp'
    obtain ⟨p, hp, rfl⟩ := hp'
    have hat := h.publishers index p hp
    split
    · exact ⟨hat.sound.stop, hat.dimensions, hat.pictures, hat.offered,
        hat.generation.trans hgeneration, ⟨nofun, nofun⟩, nofun, nofun, nofun⟩
    · rename_i hlive
      exact ⟨hat.sound, hat.dimensions, hat.pictures, hat.offered, hat.generation.trans hgeneration,
        ⟨fun hsender => absurd (hat.sender.1 hsender) hlive, nofun⟩, nofun, nofun, nofun⟩
  generations := fun hlt => by
    rw [dropStream_generations]
    exact h.generations (hgeneration.trans_lt hlt)
  reports := fun report hreport => by
    obtain ⟨index, p, hp, hgeneration, hreported⟩ := h.reports report (hreports report hreport)
    refine ⟨index, if s.stream = some index then p.stop else p, ?_, ?_, ?_⟩
    · rw [dropStream_publishers, hp, Option.map_some]
    · split <;> exact hgeneration
    · split <;> exact hreported

/-- Without a stream, pictures are only shown. -/
theorem Inv.shown (hstream : s.stream = none) (image : CVPixelBuffer) :
    Inv
      { s with
        contentDimensions := some defaultCanvasDimensions
        shown := s.shown ++ [image] } where
  canvas := h.canvas
  content := fun dimensions hdimensions => (Option.some.inj hdimensions).symm
  request := h.request
  rendering := h.rendering
  composed := h.composed
  generation := h.generation
  stream := h.stream
  publishers := fun index p hp => by
    have hat := h.publishers index p hp
    have hnot : s.stream ≠ some index := by rw [hstream]; exact nofun
    exact ⟨hat.sound, hat.dimensions, hat.pictures,
      hat.offered.trans (List.prefix_append _ _).isInfix, hat.generation, hat.sender,
      fun hlive => absurd hlive hnot, fun hlive => absurd hlive hnot, fun hlive => absurd hlive hnot⟩
  generations := h.generations
  reports := h.reports

/-- A stream starts in a newer generation than the ones before it, while these can be counted. -/
theorem Inv.started (hstream : s.stream = none) (config : RtmpConfig) (error : Option String) :
    Inv
      { s with
        streamGeneration := saturatingSucc s.streamGeneration
        streamCanvas := some defaultCanvasDimensions
        stream := some s.publishers.length
        publishers := s.publishers ++
          [.start config defaultCanvasDimensions (saturatingSucc s.streamGeneration)]
        controlError := error } where
  canvas := rfl
  content := h.content
  request := h.request
  rendering := h.rendering
  composed := h.composed
  generation := saturatingSucc_le _
  stream := fun index hindex => by
    obtain rfl := Option.some.inj hindex
    simp
  publishers := fun index p hp => by
    rcases getElem?_concat.1 hp with hp | ⟨rfl, rfl⟩
    · have hat := h.publishers index p hp
      have hplace := (List.getElem?_eq_some_iff.1 hp).1
      have hsender : ¬ p.sender = true := fun hsender => by
        have hlive := hat.sender.1 hsender
        rw [hstream] at hlive
        cases hlive
      have hnot : some s.publishers.length ≠ some index := fun heq => hplace.ne' (Option.some.inj heq)
      exact ⟨hat.sound, hat.dimensions, hat.pictures, hat.offered,
        hat.generation.trans (le_saturatingSucc h.generation), iff_of_false hsender hnot,
        fun hlive => absurd hlive hnot, fun hlive => absurd hlive hnot,
        fun hlive => absurd hlive hnot⟩
    · exact ⟨.start _ _ _, rfl, nofun, List.nil_infix, le_rfl, iff_of_true rfl rfl, fun _ => rfl,
        fun _ => List.nil_suffix, fun _ => nofun⟩
  generations := fun hlt => by
    have hnext : saturatingSucc s.streamGeneration < u64Max := hlt
    have hlast : s.streamGeneration < saturatingSucc s.streamGeneration := by
      unfold saturatingSucc at hnext ⊢
      omega
    rw [List.map_append, List.pairwise_append]
    refine ⟨h.generations (hlast.trans hnext), List.pairwise_singleton _ _, ?_⟩
    rintro older holder newer hnewer
    obtain ⟨p, hp, rfl⟩ := List.mem_map.1 holder
    obtain ⟨index, hindex⟩ := List.mem_iff_getElem?.1 hp
    rw [List.map_singleton, List.mem_singleton] at hnewer
    rw [hnewer]
    exact (h.publishers index p hindex).generation.trans_lt hlast
  reports := fun report hreport => by
    obtain ⟨index, p, hp, hreport⟩ := h.reports report hreport
    exact ⟨index, p, getElem?_concat.2 (.inl hp), hreport⟩

/-- The viewer's publisher is at its place. -/
theorem Inv.exists_publisher {index : ℕ} (hlive : s.stream = some index) :
    ∃ p, s.publishers[index]? = some p ∧ s.PublisherAt index p :=
  have hp := List.getElem?_eq_getElem (h.stream index hlive)
  ⟨_, hp, h.publishers index _ hp⟩

/-- Nothing but the viewer's own fields and the pictures on their way. -/
theorem Inv.viewer {generation : ℕ} (hgeneration : s.streamGeneration ≤ generation)
    (hbound : generation ≤ u64Max) (hstream : generation = s.streamGeneration ∨ s.stream = none)
    (error : Option String) (request rendering : Option (Option (ℕ × ℕ)))
    (composed : Option (CVPixelBuffer × (ℕ × ℕ)))
    (hrequest : ∀ locked ∈ request, composedDimensions locked = defaultCanvasDimensions)
    (hrendering : ∀ locked ∈ rendering, composedDimensions locked = defaultCanvasDimensions)
    (hcomposed : ∀ picture ∈ composed, picture.1.OfCanvas ∧ picture.2 = defaultCanvasDimensions) :
    Inv
      { s with
        streamGeneration := generation
        controlError := error
        request
        rendering
        composed } where
  canvas := h.canvas
  content := h.content
  request := hrequest
  rendering := hrendering
  composed := hcomposed
  generation := hbound
  stream := h.stream
  publishers := fun index p hp => by
    have hat := h.publishers index p hp
    refine ⟨hat.sound, hat.dimensions, hat.pictures, hat.offered, hat.generation.trans hgeneration,
      hat.sender, fun hlive => ?_, hat.latest, hat.pending⟩
    rcases hstream with rfl | hnone
    · exact hat.current hlive
    · exact absurd (hnone.symm.trans hlive) nofun
  generations := fun hlt => h.generations (hgeneration.trans_lt hlt)
  reports := h.reports

/-- A report of an older generation is passed over. -/
theorem Inv.passReport {generation : ℕ} {message : String} {reports : List (ℕ × String)}
    (hreports : s.reports = (generation, message) :: reports) (hold : generation ≠ s.streamGeneration) :
    Inv { s with reports } where
  canvas := h.canvas
  content := h.content
  request := h.request
  rendering := h.rendering
  composed := h.composed
  generation := h.generation
  stream := h.stream
  publishers := fun index p hp => by
    have hat := h.publishers index p hp
    refine ⟨hat.sound, hat.dimensions, hat.pictures, hat.offered, hat.generation, hat.sender,
      hat.current, hat.latest, fun hlive message' hreported => ?_⟩
    have hmem := hat.pending hlive message' hreported
    rw [hreports, List.mem_cons] at hmem
    refine hmem.resolve_left fun heq => hold ?_
    rw [← hat.current hlive]
    exact (congrArg Prod.fst heq).symm
  generations := h.generations
  reports := fun report hreport => h.reports report (hreports ▸ List.mem_cons_of_mem _ hreport)

theorem Inv.streamFailed {generation : ℕ} {message : String} {reports : List (ℕ × String)}
    (hreports : s.reports = (generation, message) :: reports) :
    (Streams.streamFailed { s with reports } generation message).Inv := by
  unfold Streams.streamFailed
  split
  · rename_i hold
    exact h.passReport hreports hold
  · refine h.dropStream le_rfl h.generation (fun report hreport => ?_) _
    exact hreports ▸ List.mem_cons_of_mem _ hreport

theorem Inv.toggleStream (url : String) (spawned : Bool) : (s.toggleStream url spawned).Inv := by
  have hle := le_saturatingSucc h.generation
  have hbound := saturatingSucc_le s.streamGeneration
  unfold Streams.toggleStream
  dsimp only
  split
  · exact h.dropStream hle hbound (fun _ => id) none
  rename_i hstream
  rw [Option.not_isSome_iff_eq_none] at hstream
  have herror := fun error =>
    h.viewer hle hbound (.inr hstream) error _ _ _ h.request h.rendering h.composed
  split
  · exact herror _
  split
  · exact herror _
  rename_i dimensions hdimensions
  obtain rfl := h.content dimensions hdimensions
  unfold startStream
  dsimp only
  split
  · exact herror _
  · split
    · exact h.started hstream _ _
    · exact herror _

/-- A publisher is replaced by what became of it. -/
theorem Inv.publisherStep {index : ℕ} {label : PublishStep} {p p' : Publisher}
    (hp : s.publishers[index]? = some p) (hanswers : p.Answers label) (hstep : p.step label = some p') :
    Inv
      { s with
        publishers := s.publishers.set index p'
        reports := s.reports ++ reportOf p label } := by
  have hat := h.publishers index p hp
  obtain ⟨hsender, hgeneration, hdimensions, hoffered⟩ := Publisher.step_fixed hstep
  have hreported := Publisher.step_reported hat.sound hstep
  have hset := set_publishers hp p'
  refine ⟨h.canvas, h.content, h.request, h.rendering, h.composed, h.generation, fun live hlive => ?_,
    fun place q hq => ?_, fun hlt => ?_, fun report hreport => ?_⟩
  · rw [List.length_set]
    exact h.stream live hlive
  · rw [hset, Option.map_eq_some_iff] at hq
    obtain ⟨old, hold, rfl⟩ := hq
    split
    · rename_i heq
      subst heq
      refine ⟨hat.sound.step hanswers hstep, hdimensions.trans hat.dimensions, ?_, ?_, ?_, ?_, ?_, ?_,
        ?_⟩
      · rw [hoffered]
        exact hat.pictures
      · rw [hoffered]
        exact hat.offered
      · rw [hgeneration]
        exact hat.generation
      · rw [hsender]
        exact hat.sender
      · rw [hgeneration]
        exact hat.current
      · rw [hoffered]
        exact hat.latest
      · rw [hgeneration]
        intro hlive message hmessage
        rcases hreported with ⟨hsame, _⟩ | ⟨own, _, hown, hreport⟩
        · exact List.mem_append_left _ (hat.pending hlive message (hsame ▸ hmessage))
        · obtain rfl := Option.some.inj (hown.symm.trans hmessage)
          rw [hreport]
          exact List.mem_append_right _ (List.mem_singleton_self _)
    · have hother := h.publishers place old hold
      exact ⟨hother.sound, hother.dimensions, hother.pictures, hother.offered, hother.generation,
        hother.sender, hother.current, hother.latest,
        fun hlive message hmessage => List.mem_append_left _ (hother.pending hlive message hmessage)⟩
  · rw [set_generations hp hgeneration]
    exact h.generations hlt
  · rcases List.mem_append.1 hreport with hreport | hreport
    · obtain ⟨place, q, hq, hof, hmessage⟩ := h.reports report hreport
      refine ⟨place, if place = index then p' else q, by rw [hset, hq, Option.map_some], ?_⟩
      split
      · rename_i heq
        subst heq
        obtain rfl := Option.some.inj (hp.symm.trans hq)
        rcases hreported with ⟨hsame, _⟩ | ⟨_, hnone, _⟩
        · exact ⟨hgeneration.trans hof, hsame.trans hmessage⟩
        · exact absurd (hnone.symm.trans hmessage) nofun
      · exact ⟨hof, hmessage⟩
    · rcases hreported with ⟨_, hnone⟩ | ⟨message, _, hmessage, hone⟩
      · rw [hnone] at hreport
        cases hreport
      · rw [hone, List.mem_singleton] at hreport
        subst hreport
        refine ⟨index, p', by rw [hset, hp, Option.map_some, if_pos rfl], hgeneration, hmessage⟩

/-- A picture that the stream's channel takes, or has no room for. -/
theorem Inv.sent {index : ℕ} (hlive : s.stream = some index) {p sent : Publisher}
    (hp : s.publishers[index]? = some p) {image : CVPixelBuffer} (himage : image.OfCanvas)
    (hsend : p.send image = .ok sent) :
    Inv
      { s with
        publishers := s.publishers.set index sent
        contentDimensions := some defaultCanvasDimensions
        shown := s.shown ++ [image] } := by
  have hat := h.publishers index p hp
  obtain ⟨hsender, hgeneration, hdimensions, hoffered, hreported⟩ := Publisher.send_fixed hsend
  have hset := set_publishers hp sent
  have hlatest : sent.offered <:+ s.shown ++ [image] := by
    rw [hoffered]
    exact (List.suffix_append_inj_of_length_eq rfl).2 ⟨hat.latest hlive, rfl⟩
  refine ⟨h.canvas, fun _ hdimensions => (Option.some.inj hdimensions).symm, h.request, h.rendering,
    h.composed, h.generation, fun live hlive => ?_, fun place q hq => ?_, fun hlt => ?_,
    fun report hreport => ?_⟩
  · rw [List.length_set]
    exact h.stream live hlive
  · rw [hset, Option.map_eq_some_iff] at hq
    obtain ⟨old, hold, rfl⟩ := hq
    split
    · rename_i heq
      subst heq
      refine ⟨hat.sound.send hsend, hdimensions.trans hat.dimensions, ?_, hlatest.isInfix, ?_, ?_, ?_,
        fun _ => hlatest, ?_⟩
      · rw [hoffered]
        intro picture hpicture
        rcases List.mem_append.1 hpicture with hpicture | hpicture
        · exact hat.pictures picture hpicture
        · rw [List.mem_singleton.1 hpicture]
          exact himage
      · rw [hgeneration]
        exact hat.generation
      · rw [hsender]
        exact hat.sender
      · rw [hgeneration]
        exact hat.current
      · rw [hgeneration, hreported]
        exact hat.pending
    · rename_i hne
      have hother := h.publishers place old hold
      have hnot : s.stream ≠ some place := fun heq =>
        hne (Option.some.inj (heq.symm.trans hlive))
      exact ⟨hother.sound, hother.dimensions, hother.pictures,
        hother.offered.trans (List.prefix_append _ _).isInfix, hother.generation, hother.sender,
        hother.current, fun hlive => absurd hlive hnot, hother.pending⟩
  · rw [set_generations hp hgeneration]
    exact h.generations hlt
  · obtain ⟨place, q, hq, hof, hmessage⟩ := h.reports report hreport
    refine ⟨place, if place = index then sent else q, by rw [hset, hq, Option.map_some], ?_⟩
    split
    · rename_i heq
      subst heq
      obtain rfl := Option.some.inj (hp.symm.trans hq)
      exact ⟨hgeneration.trans hof, hreported.trans hmessage⟩
    · exact ⟨hof, hmessage⟩

theorem Inv.showFrame {image : CVPixelBuffer} (himage : image.OfCanvas) :
    (s.showFrame image defaultCanvasDimensions).Inv := by
  unfold Streams.showFrame sendFrame
  split
  · rename_i hnone
    exact h.shown hnone image
  rename_i index hlive
  obtain ⟨p, hp, _⟩ := h.exists_publisher hlive
  rw [hp]
  dsimp only
  split
  · rename_i sent hsend
    exact h.sent hlive hp himage hsend
  · rename_i message _
    exact (h.dropStream le_rfl h.generation (fun _ => id) (some message)).shown rfl image

/-- What every step keeps. -/
theorem Inv.step {label : StreamStep} (hanswers : s.Answers label) (hstep : s.step label = some s') :
    s'.Inv := by
  have hviewer := h.viewer le_rfl h.generation (.inl rfl) s.controlError
  unfold Streams.step at hstep
  split at hstep
  · obtain rfl := Option.some.inj hstep
    exact h.toggleStream _ _
  · split at hstep
    · cases hstep
    · rename_i hreports
      obtain rfl := Option.some.inj hstep
      exact h.streamFailed hreports
  · obtain rfl := Option.some.inj hstep
    refine hviewer _ _ _ (fun locked hlocked => ?_) h.rendering h.composed
    obtain rfl := Option.some.inj hlocked
    exact h.locked
  · split at hstep
    · rename_i request _ hrequest
      obtain rfl := Option.some.inj hstep
      exact hviewer none _ _ nofun (fun locked hlocked => h.request locked (hrequest ▸ hlocked))
        h.composed
    · cases hstep
  · split at hstep
    · rename_i request _ hrequest
      obtain rfl := Option.some.inj hstep
      exact hviewer none _ _ nofun (fun locked hlocked => h.request locked (hrequest ▸ hlocked))
        h.composed
    · cases hstep
  · rename_i image
    split at hstep
    · cases hstep
    · rename_i locked hrendering
      obtain rfl := Option.some.inj hstep
      have hcanvas := h.rendering locked hrendering
      refine hviewer _ none _ h.request nofun fun picture hpicture => ?_
      obtain rfl := Option.some.inj hpicture
      obtain ⟨hsize, hformat⟩ := hanswers locked hrendering
      exact ⟨⟨hsize.trans hcanvas, hformat⟩, hcanvas⟩
  · split at hstep
    · cases hstep
    · rename_i image dimensions hcomposed
      obtain rfl := Option.some.inj hstep
      obtain ⟨himage, rfl⟩ := h.composed _ hcomposed
      exact (hviewer _ _ none h.request h.rendering nofun).showFrame himage
  · rename_i index label
    unfold Streams.publisherStep at hstep
    split at hstep
    · cases hstep
    · rename_i p hp
      obtain ⟨p', hp', rfl⟩ := Option.map_eq_some_iff.1 hstep
      exact h.publisherStep hp (hanswers p hp) hp'

end

theorem Inv.reachable (h : streams.Reachable s) : s.Inv :=
  h.invariant (fun _ ⟨fps, bitrate, hs⟩ => hs ▸ Inv.launched fps bitrate)
    fun _ _ _ hs hstep => hs.step hstep.1 hstep.2

/-! ## A stream that fails -/

/-- A black picture of the canvas. -/
def blackPicture : CVPixelBuffer :=
  ⟨kCVPixelFormatType_32BGRA, 1920, 1080, 7680, some fun _ => 0, 0, 0⟩

def canvasFrame : VideoFrame := ⟨1920, 1080, 7680, List.replicate (7680 * 1080) 0⟩

theorem canvasFrame_allocated : canvasFrame.Allocated defaultCanvasDimensions :=
  ⟨rfl, rfl, le_rfl, (List.length_replicate).ge⟩

/-- The stream is started after the first picture, and its publisher finds nobody. -/
def failure : List StreamStep :=
  [.renderReady, .take, .compose blackPicture, .showFrame, .toggleStream " rtmp://a" true, .renderReady,
    .take, .compose blackPicture, .showFrame,
    .publisher 0 (.connect ⟨.error "failed to connect to RTMP destination", .ok (), canvasFrame⟩),
    .publisher 0 .reportError]

def failedPublisher : Publisher :=
  { Publisher.start ⟨"rtmp://a", 60, 6000⟩ defaultCanvasDimensions 1 with
    frames := [blackPicture]
    phase := .closing
    offered := [blackPicture]
    accepted := [blackPicture]
    reported := some "failed to connect to RTMP destination" }

def failed : Streams :=
  { Streams.launched 60 6000 with
    stream := some 0
    streamCanvas := some defaultCanvasDimensions
    streamGeneration := 1
    contentDimensions := some defaultCanvasDimensions
    publishers := [failedPublisher]
    reports := [(1, "failed to connect to RTMP destination")]
    shown := [blackPicture, blackPicture] }

theorem run_failure : streams.Run (.launched 60 6000) failure failed := by
  have hpicture : ∀ s : Streams, (∀ locked ∈ s.rendering, composedDimensions locked = (1920, 1080)) →
      s.Answers (.compose blackPicture) :=
    fun s h locked hlocked => ⟨(h locked hlocked).symm, rfl⟩
  refine .cons ⟨trivial, rfl⟩ (.cons ⟨trivial, rfl⟩ (.cons ⟨hpicture _ ?_, rfl⟩ (.cons ⟨trivial, rfl⟩
    (.cons ⟨trivial, rfl⟩ (.cons ⟨trivial, rfl⟩ (.cons ⟨trivial, rfl⟩ (.cons ⟨hpicture _ ?_, rfl⟩
      (.cons ⟨trivial, rfl⟩ (.cons ⟨?_, rfl⟩ (.cons ⟨?_, rfl⟩ (.nil _)))))))))))
  · intro locked hlocked
    obtain rfl := Option.some.inj hlocked
    rfl
  · intro locked hlocked
    obtain rfl := Option.some.inj hlocked
    rfl
  · intro p hp
    obtain rfl := Option.some.inj hp
    exact canvasFrame_allocated
  · exact fun _ _ => trivial

theorem reachable_failed : streams.Reachable failed := ⟨_, _, ⟨60, 6000, rfl⟩, run_failure⟩

/-- The error is handled. -/
def handled : Streams :=
  { failed with
    stream := none
    streamCanvas := none
    controlError := some "failed to connect to RTMP destination"
    publishers := [failedPublisher.stop]
    reports := [] }

theorem step_failed : failed.step .streamFailed = some handled := rfl

/-! ## What a publisher encodes -/

/-- What a publisher has encoded are the pictures its channel accepted, from the first on and at times
that never go back; these are some of the pictures shown while the stream was live, in their order, and
all of them have the stream's dimensions. A publisher that ended without an error has encoded all of
them. -/
theorem streams_publish (h : streams.Reachable s) {index : ℕ} {p : Publisher}
    (hp : s.publishers[index]? = some p) :
    p.frames.length ≤ frameQueueDepth ∧ p.accepted.Sublist p.offered ∧ p.offered <:+: s.shown ∧
    (∀ image ∈ p.offered, (image.width, image.height) = p.dimensions) ∧
    p.encoded.Pairwise (·.2 ≤ ·.2) ∧
    ∃ images, List.Forall₂ (fun (frame : VideoFrame × ℕ) image => frame.1.Shows image) p.encoded images ∧
      images <+: p.accepted ∧ (p.phase.IsOver → p.reported = none → images = p.accepted) := by
  have hat := (Inv.reachable h).publishers index p hp
  have hsound := hat.sound
  refine ⟨hsound.room, hsound.offered, hat.offered, fun image himage => ?_, hsound.times,
    p.taken.take p.encoded.length, hsound.encoded, (List.take_prefix _ _).trans hsound.taken,
    fun hover hnone => ?_⟩
  · exact (hat.pictures image himage).1.trans hat.dimensions.symm
  · obtain ⟨_, hlength, haccepted⟩ := hsound.finished hover hnone
    rw [hlength, List.take_length, haccepted]

theorem streams_publish_failed : failedPublisher.accepted.Sublist failedPublisher.offered :=
  (@streams_publish failed reachable_failed 0 failedPublisher rfl).2.1

/-! ## Whose errors stop a stream -/

/-- Two publishers of one generation are the same, while generations can be counted. -/
theorem Inv.unique (h : s.Inv) (hcount : s.streamGeneration < u64Max) {first second : ℕ}
    {p q : Publisher} (hp : s.publishers[first]? = some p) (hq : s.publishers[second]? = some q)
    (heq : p.generation = q.generation) : first = second := by
  have hpairwise := h.generations hcount
  have hnodup : (s.publishers.map Publisher.generation).Nodup := hpairwise.imp fun hlt => hlt.ne
  have hget : ∀ {index : ℕ} {p : Publisher}, s.publishers[index]? = some p →
      (s.publishers.map Publisher.generation)[index]? = some p.generation := by
    intro index p hp
    rw [List.getElem?_map, hp, Option.map_some]
  have hlt := (List.getElem?_eq_some_iff.1 (hget hp)).1
  exact (List.getElem?_inj hlt hnodup).1 ((hget hp).trans ((congrArg some heq).trans (hget hq).symm))

/-- The canvas is locked exactly while there is a stream, which has the viewer's generation; once its
publisher is over, its error waits to be handled. An error that is handled stops the stream only if the
stream's own publisher has reported it, and then it is shown, as long as generations can be counted. -/
theorem streams_fail (h : streams.Reachable s) :
    (s.streamCanvas.isSome = s.stream.isSome) ∧
    (∀ index p, s.stream = some index → s.publishers[index]? = some p →
      p.generation = s.streamGeneration ∧
      (p.phase.IsOver → ∃ message, (s.streamGeneration, message) ∈ s.reports)) ∧
    ∀ index s', s.stream = some index → s.step .streamFailed = some s' → s.streamGeneration < u64Max →
      (s'.stream = some index ∧ s'.controlError = s.controlError) ∨
      (s'.stream = none ∧ ∃ p message, s.publishers[index]? = some p ∧ p.reported = some message ∧
        s'.controlError = some message) := by
  have hinv := Inv.reachable h
  refine ⟨?_, fun index p hlive hp => ?_, fun index s' hlive hstep hcount => ?_⟩
  · rw [hinv.canvas, Option.isSome_map]
  · have hat := hinv.publishers index p hp
    refine ⟨hat.current hlive, fun hover => ?_⟩
    cases hreported : p.reported with
    | none =>
      have hsender := (hat.sound.finished hover hreported).1
      rw [hat.sender.2 hlive] at hsender
      cases hsender
    | some message =>
      exact ⟨message, hat.current hlive ▸ hat.pending hlive message hreported⟩
  · unfold Streams.step at hstep
    dsimp only at hstep
    split at hstep
    · cases hstep
    rename_i generation message reports hreports
    obtain rfl := Option.some.inj hstep
    unfold Streams.streamFailed
    split
    · exact .inl ⟨hlive, rfl⟩
    rename_i hgeneration
    rw [ne_eq, not_not] at hgeneration
    have hmem : (generation, message) ∈ s.reports := hreports ▸ List.mem_cons_self
    obtain ⟨place, q, hq, hof, hmessage⟩ := hinv.reports _ hmem
    obtain ⟨p, hp, hat⟩ := hinv.exists_publisher hlive
    have hsame : p.generation = q.generation := by
      rw [hat.current hlive, hof]
      exact hgeneration.symm
    obtain rfl := hinv.unique hcount hp hq hsame
    obtain rfl := Option.some.inj (hp.symm.trans hq)
    exact .inr ⟨rfl, p, message, hp, hmessage, rfl⟩

theorem streams_fail_failed :
    handled.stream = none ∧ ∃ p message, failed.publishers[0]? = some p ∧ p.reported = some message ∧
      handled.controlError = some message :=
  ((streams_fail reachable_failed).2.2 0 handled rfl step_failed (by decide)).resolve_left
    fun h => nomatch h.1

/-! ## A stream that was stopped ends -/

/-- The steps that a publisher without a sender still has before it. -/
def rank (p : Publisher) : ℕ :=
  match p.phase with
  | .opening => 4 + p.frames.length
  | .publishing => 3 + p.frames.length
  | .reporting _ => 2
  | .closing => 1
  | .ended => 0

theorem rank_step {p p' : Publisher} {label : PublishStep} (h : p.step label = some p') :
    rank p' < rank p := by
  unfold Publisher.step at h
  split at h
  · split at h
    · rename_i hphase
      split at h <;> obtain rfl := Option.some.inj h <;> simp only [rank, hphase, Publisher.fail] <;>
        omega
    · cases h
  · split at h
    · rename_i answers _ _ image frames hphase hframes
      obtain rfl := Option.some.inj h
      have hbefore : rank p = 3 + (frames.length + 1) := by rw [rank, hphase, hframes]; rfl
      have hafter : ∀ p : Publisher, p.phase = .publishing → p.frames = frames →
          rank (p.encode image answers) ≤ 3 + frames.length := by
        intro p hphase hframes
        unfold Publisher.encode
        repeat' first | split | (simp only [rank, Publisher.fail, hphase, hframes]; omega)
      rw [hbefore]
      exact Nat.lt_succ_of_le (hafter _ hphase rfl)
    · cases h
  · split at h
    · rename_i hphase hframes _
      split at h <;> obtain rfl := Option.some.inj h <;> simp [rank, hphase, hframes, Publisher.fail]
    · cases h
  · split at h
    · rename_i hphase
      obtain rfl := Option.some.inj h
      simp [rank, hphase]
    · cases h
  · split at h
    · rename_i hphase
      obtain rfl := Option.some.inj h
      simp [rank, hphase]
    · cases h

/-- The steps of a publisher among some steps. -/
def stepsOf (index : ℕ) (labels : List StreamStep) : ℕ :=
  labels.countP fun label =>
    match label with
    | .publisher place _ => place = index
    | _ => false

section

variable {index : ℕ} {p : Publisher}

theorem dropStream_other (hother : s.stream ≠ some index) (hp : s.publishers[index]? = some p) :
    s.dropStream.publishers[index]? = some p := by
  rw [dropStream_publishers, hp, Option.map_some, if_neg hother]

theorem toggleStream_other (hother : s.stream ≠ some index) (hp : s.publishers[index]? = some p)
    (url : String) (spawned : Bool) : (s.toggleStream url spawned).publishers[index]? = some p := by
  unfold toggleStream startStream
  dsimp only
  split
  · exact dropStream_other hother hp
  split
  · exact hp
  split
  · exact hp
  split
  · exact hp
  split
  · exact getElem?_concat.2 (.inl hp)
  · exact hp

theorem showFrame_other (hother : s.stream ≠ some index) (hp : s.publishers[index]? = some p)
    (image : CVPixelBuffer) (dimensions : ℕ × ℕ) :
    (s.showFrame image dimensions).publishers[index]? = some p := by
  unfold showFrame sendFrame
  dsimp only
  split
  · exact hp
  rename_i live hlive
  split
  · exact hp
  split
  · have hne : live ≠ index := fun heq => hother (heq ▸ hlive)
    dsimp only
    rw [List.getElem?_set_ne hne]
    exact hp
  · exact dropStream_other hother hp

/-- Only its own steps change a publisher whose stream was stopped. -/
theorem step_other (hother : s.stream ≠ some index) (hp : s.publishers[index]? = some p)
    {label : StreamStep} (hlabel : ∀ own, label ≠ .publisher index own)
    (hstep : s.step label = some s') : s'.publishers[index]? = some p := by
  unfold Streams.step at hstep
  split at hstep
  · obtain rfl := Option.some.inj hstep
    exact toggleStream_other hother hp _ _
  · split at hstep
    · cases hstep
    obtain rfl := Option.some.inj hstep
    unfold Streams.streamFailed
    split
    · exact hp
    · exact dropStream_other hother hp
  · obtain rfl := Option.some.inj hstep
    exact hp
  · split at hstep
    · obtain rfl := Option.some.inj hstep
      exact hp
    · cases hstep
  · split at hstep
    · obtain rfl := Option.some.inj hstep
      exact hp
    · cases hstep
  · split at hstep
    · cases hstep
    · obtain rfl := Option.some.inj hstep
      exact hp
  · split at hstep
    · cases hstep
    · obtain rfl := Option.some.inj hstep
      exact @showFrame_other { s with composed := none } index p hother hp _ _
  · rename_i place own
    have hne : place ≠ index := fun heq => hlabel own (heq ▸ rfl)
    unfold Streams.publisherStep at hstep
    split at hstep
    · cases hstep
    obtain ⟨q, _, rfl⟩ := Option.map_eq_some_iff.1 hstep
    dsimp only
    rw [List.getElem?_set_ne hne]
    exact hp

/-- A publisher whose stream was stopped comes nearer to its end with every step of its own. -/
theorem Inv.stopped_step (h : s.Inv) (hp : s.publishers[index]? = some p) (hsender : p.sender = false)
    {label : StreamStep} (hstep : s.step label = some s') :
    ∃ p', s'.publishers[index]? = some p' ∧ p'.sender = false ∧
      rank p' + stepsOf index [label] ≤ rank p := by
  by_cases hlabel : ∃ own, label = .publisher index own
  · obtain ⟨own, rfl⟩ := hlabel
    simp only [Streams.step, Streams.publisherStep, hp] at hstep
    obtain ⟨p', hp', rfl⟩ := Option.map_eq_some_iff.1 hstep
    refine ⟨p', ?_, (Publisher.step_fixed hp').1.trans hsender, ?_⟩
    · rw [set_publishers hp, hp, Option.map_some, if_pos rfl]
    · have hless := rank_step hp'
      simp only [stepsOf, List.countP_singleton, decide_true, if_true]
      omega
  · rw [not_exists] at hlabel
    have hother : s.stream ≠ some index := fun hlive => by
      rw [(h.publishers index p hp).sender.2 hlive] at hsender
      cases hsender
    refine ⟨p, step_other hother hp hlabel hstep, hsender, ?_⟩
    have hzero : stepsOf index [label] = 0 := by
      unfold stepsOf
      rw [List.countP_singleton, if_neg]
      cases label with
      | publisher place own => simpa using fun heq : place = index => hlabel own (heq ▸ rfl)
      | _ => simp
    omega

end

/-- The thread waits only for pictures, and without a sender not for these. -/
theorem exists_publisher_step {p : Publisher} (hsender : p.sender = false) (hended : p.phase ≠ .ended) :
    ∃ label p', p.Answers label ∧ p.step label = some p' := by
  cases hphase : p.phase with
  | opening =>
    let bgra : VideoFrame := ⟨p.dimensions.1, p.dimensions.2, p.dimensions.1 * 4,
      List.replicate (p.dimensions.1 * 4 * p.dimensions.2) 0⟩
    have hallocated : bgra.Allocated p.dimensions := ⟨rfl, rfl, le_rfl, (List.length_replicate).ge⟩
    unfold Publisher.step
    cases hopen : openStream p.config p.dimensions ⟨.ok (), .ok (), bgra⟩ with
    | error message =>
      refine ⟨.connect ⟨.ok (), .ok (), bgra⟩, p.fail message, hallocated, ?_⟩
      simp only [hphase, hopen]
    | ok frame =>
      refine ⟨.connect ⟨.ok (), .ok (), bgra⟩, { p with phase := .publishing, bgra := frame },
        hallocated, ?_⟩
      simp only [hphase, hopen]
  | publishing =>
    cases hframes : p.frames with
    | nil => exact ⟨.flush (.ok ()), _, trivial, by unfold Publisher.step; rw [hphase, hframes, hsender]⟩
    | cons image frames =>
      exact ⟨.publish ⟨p.clock, .ok (), .ok (), .ok ()⟩, _, le_refl p.clock,
        by unfold Publisher.step; rw [hphase, hframes]⟩
  | reporting message =>
    exact ⟨.reportError, _, trivial, by unfold Publisher.step; rw [hphase]⟩
  | closing => exact ⟨.closeReceiver, _, trivial, by unfold Publisher.step; rw [hphase]⟩
  | ended => exact absurd hphase hended

theorem rank_le {p : Publisher} (h : p.Sound) : rank p ≤ 6 := by
  have hroom := h.room
  unfold frameQueueDepth at hroom
  unfold rank
  split <;> omega

/-- A publisher whose stream was stopped ends: until then it can always step, and it takes no more than
six steps, whatever the others do in between. -/
theorem streams_end (h : streams.Reachable s) {index : ℕ} {p : Publisher}
    (hp : s.publishers[index]? = some p) (hsender : p.sender = false) :
    (p.phase = .ended ∨ ∃ label s', streams.step s (.publisher index label) s') ∧
    ∀ labels s', streams.Run s labels s' → stepsOf index labels ≤ 6 := by
  have hinv := Inv.reachable h
  constructor
  · by_cases hended : p.phase = .ended
    · exact .inl hended
    obtain ⟨label, p', hanswers, hstep⟩ := exists_publisher_step hsender hended
    have hnext : s.step (.publisher index label) = some
        { s with
          publishers := s.publishers.set index p'
          reports := s.reports ++ reportOf p label } := by
      simp only [Streams.step, Streams.publisherStep, hp, hstep, Option.map_some]
    refine .inr ⟨label, _, fun q hq => ?_, hnext⟩
    obtain rfl := Option.some.inj (hp.symm.trans hq)
    exact hanswers
  · intro labels s' hrun
    refine le_trans ?_ (rank_le (hinv.publishers index p hp).sound)
    clear h
    induction hrun generalizing p with
    | nil => exact Nat.zero_le _
    | @cons s middle _ label labels hstep _ ih =>
      obtain ⟨p', hp', hsender', hrank⟩ := hinv.stopped_step hp hsender hstep.2
      have hrest := ih hp' hsender' (hinv.step hstep.1 hstep.2)
      have hcount : stepsOf index (label :: labels) = stepsOf index [label] + stepsOf index labels := by
        unfold stepsOf
        rw [← List.countP_append, List.singleton_append]
      omega

theorem streams_end_handled :
    failedPublisher.stop.phase = .ended ∨
      ∃ label s', streams.step handled (.publisher 0 label) s' :=
  have hanswers : failed.Answers .streamFailed := trivial
  (@streams_end handled (reachable_failed.step ⟨hanswers, step_failed⟩) 0 failedPublisher.stop rfl
    rfl).1

end Streams

end Blip.Studio
