import Blip.Common.System
import Mathlib.Data.Finset.Basic
import Mathlib.Logic.Function.Basic

/-!
# The studio's frame hub and composition hub

Capture callbacks leave their newest frame in the frame hub, and the compositor its newest picture in the
composition hub. Either calls the event loop of the window, unless a call is on its way. The scene changes
on the thread of that loop, between two events. A callback comes at any time, also while the loop drains
the frames and then the removed sources.

A step holds a lock, or sets the flag, or sends an event. The event channel has no bound.
-/

namespace Blip.Studio

/-- The sources that the scene uses, `FrameHub` with the callers of `request_render` that have still to set
the flag (`requesting`) or to send the event (`sending`), the `RenderReady` events in the channel, the loop
between its two drains, its frames, the last render request, and `CompositionHub`. Beside them: the newest
frame of each source since it was last added, and the sources that were removed and not added again. -/
structure FrameLoop (Source Frame Image : Type) where
  scene : Finset Source
  frames : Source → Option Frame
  removedSources : List Source
  renderPending : Bool
  requesting : ℕ
  sending : ℕ
  renderReady : ℕ
  draining : Bool
  sourceFrames : Source → Option Frame
  renderRequest : Option (Finset Source × (Source → Option Frame))
  latest : Option Image
  eventPending : Bool
  compositionReady : ℕ
  newest : Source → Option Frame
  gone : Finset Source

inductive FrameStep (Source Frame Image : Type)
  | submit (source : Source) (frame : Frame)
  | setPending
  | sendReady
  | drain
  | render
  | addSource (source : Source)
  | removeSource (source : Source)
  | changeScene
  | composed (image : Image)
  | showFrame

namespace FrameLoop

variable {Source Frame Image : Type} [DecidableEq Source] (loop : FrameLoop Source Frame Image)

/-- `FrameHub::submit`, up to `request_render`. -/
def submit (source : Source) (frame : Frame) : FrameLoop Source Frame Image :=
  { loop with
    frames := Function.update loop.frames source (some frame)
    requesting := loop.requesting + 1
    newest :=
      if source ∈ loop.scene then Function.update loop.newest source (some frame) else loop.newest }

/-- The first half of `request_render`: the flag is swapped. -/
def setPending : FrameLoop Source Frame Image :=
  if loop.renderPending then { loop with requesting := loop.requesting - 1 }
  else
    { loop with
      requesting := loop.requesting - 1
      renderPending := true
      sending := loop.sending + 1 }

/-- `FrameHub::drain`, for a `RenderReady` event. -/
def drain : FrameLoop Source Frame Image :=
  { loop with
    renderReady := loop.renderReady - 1
    frames := fun _ => none
    renderPending := false
    draining := true
    sourceFrames := fun source => (loop.frames source).or (loop.sourceFrames source) }

/-- The frames that are left without the removed sources. -/
def keptFrames (source : Source) : Option Frame :=
  if source ∈ loop.removedSources then none else loop.sourceFrames source

/-- The rest of the turn: `drain_removed_sources`, and the render request. -/
def render : FrameLoop Source Frame Image :=
  { loop with
    removedSources := []
    draining := false
    sourceFrames := loop.keptFrames
    renderRequest := some (loop.scene, loop.keptFrames) }

/-- An element of the scene gets a source; its capture starts now or later. -/
def addSource (source : Source) : FrameLoop Source Frame Image :=
  { loop with
    scene := insert source loop.scene
    requesting := loop.requesting + 1
    gone := loop.gone.erase source }

/-- `scene_changed` for the source of the last element that used it. -/
def removeSource (source : Source) : FrameLoop Source Frame Image :=
  { loop with
    scene := loop.scene.erase source
    frames := Function.update loop.frames source none
    removedSources := loop.removedSources ++ [source]
    requesting := loop.requesting + 1
    newest := Function.update loop.newest source none
    gone := insert source loop.gone }

/-- `CompositionHub::submit`. -/
def composed (image : Image) : FrameLoop Source Frame Image :=
  { loop with
    latest := some image
    eventPending := true
    compositionReady :=
      if loop.eventPending then loop.compositionReady else loop.compositionReady + 1 }

/-- `CompositionHub::take`, for a `CompositionReady` event. -/
def showFrame : FrameLoop Source Frame Image :=
  { loop with
    latest := none
    eventPending := false
    compositionReady := loop.compositionReady - 1 }

def step : FrameStep Source Frame Image → Option (FrameLoop Source Frame Image)
  | .submit source frame => some (loop.submit source frame)
  | .setPending => if 0 < loop.requesting then some loop.setPending else none
  | .sendReady =>
    if 0 < loop.sending then some
      { loop with
        sending := loop.sending - 1
        renderReady := loop.renderReady + 1 }
    else none
  | .drain => if 0 < loop.renderReady ∧ loop.draining = false then some loop.drain else none
  | .render => if loop.draining then some loop.render else none
  | .addSource source => if loop.draining then none else some (loop.addSource source)
  | .removeSource source =>
    if source ∈ loop.scene ∧ loop.draining = false then some (loop.removeSource source) else none
  | .changeScene =>
    if loop.draining then none else some { loop with requesting := loop.requesting + 1 }
  | .composed image => some (loop.composed image)
  | .showFrame =>
    if 0 < loop.compositionReady ∧ loop.draining = false then some loop.showFrame else none

/-- A scene that is being launched: its captures have sent nothing. -/
def launched (Frame Image : Type) (scene : Finset Source) : FrameLoop Source Frame Image where
  scene := scene
  frames := fun _ => none
  removedSources := []
  renderPending := false
  requesting := 0
  sending := 0
  renderReady := 0
  draining := false
  sourceFrames := fun _ => none
  renderRequest := none
  latest := none
  eventPending := false
  compositionReady := 0
  newest := fun _ => none
  gone := ∅

end FrameLoop

/-- The frame loop, from the launch of some scene. -/
def frameLoop (Source Frame Image : Type) [DecidableEq Source] :
    System (FrameLoop Source Frame Image) (FrameStep Source Frame Image) where
  init := fun loop => ∃ scene, loop = .launched Frame Image scene
  step := fun loop label loop' => loop.step label = some loop'

end Blip.Studio
