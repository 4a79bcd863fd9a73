import Blip.Capture.PreviewRequests
import Blip.Common.System

/-!
# The wallpaper and the preview worker

`wallpaper_worker` decodes every background image once: those the preview asks for first, and the others
in order, until it has come to the end. `preview_worker` takes what has been decoded before each frame,
asks for the wallpaper of the frame if that is missing, and waits for it. The two share a channel of
requests and one of results, both without a bound; a receive on an empty channel fails once the other side
is gone.

The decoding of an image, the content of a frame and its composition are labels of the steps.
-/

namespace Blip.Capture

inductive WallpaperPhase
  | choosing
  | decoding (index : ℕ)
  | exited
deriving DecidableEq, Repr

/-- The variables of `wallpaper_worker`. -/
structure WallpaperWorker where
  decoded : List Bool
  nextPreload : ℕ
  phase : WallpaperPhase
deriving DecidableEq, Repr

/-- The part of a preview request that the wallpaper depends on. -/
structure WallpaperRequest where
  backgroundType : BackgroundType
  backgroundPreset : ℕ
deriving DecidableEq, Repr

/-- Where `preview_worker` is, with the request it works on. -/
inductive PreviewPhase
  | idle
  | draining (request : WallpaperRequest)
  | asking (request : WallpaperRequest)
  | rendering (request : WallpaperRequest) (wallpaperPending : Bool)
  | waiting (request : WallpaperRequest)
  | composing (request : WallpaperRequest)
  | exited
deriving DecidableEq, Repr

/-- Both workers and the channels between them; then every image that was loaded, every result that was
sent and every image that was asked for, in order. -/
structure Wallpapers (Frame : Type) where
  worker : WallpaperWorker
  backgroundFrames : List (Option Frame)
  failedBackgrounds : List Bool
  preview : PreviewPhase
  wallpaperRequests : List ℕ
  wallpaperResults : List (ℕ × Option Frame)
  loads : List ℕ
  reports : List ℕ
  asked : List ℕ

inductive WallpaperStep (Frame : Type)
  | choose
  | decode (frame : Option Frame)
  | request (request : WallpaperRequest)
  | drain
  | ask
  | content (rendered : Bool)
  | receive
  | compose (sent : Bool)
  | close

/-! ## `wallpaper_worker` -/

/-- The loop over what is decoded already. -/
def skipDecoded (decoded : List Bool) (nextPreload : ℕ) : ℕ :=
  if h : decoded[nextPreload]? = some true then skipDecoded decoded (nextPreload + 1)
  else nextPreload
termination_by decoded.length - nextPreload
decreasing_by
  obtain ⟨hlt, -⟩ := List.getElem?_eq_some_iff.mp h
  omega

namespace Wallpapers

variable {Frame : Type} (wallpapers : Wallpapers Frame)

/-- The image that the worker goes on with: the rest of the loop is only for what is not decoded. -/
def select (index : ℕ) : WallpaperPhase :=
  if wallpapers.worker.decoded[index]? = some false then .decoding index else .choosing

/-- The worker takes a request, or else the next image. -/
def choose : Wallpapers Frame :=
  match wallpapers.wallpaperRequests with
  | index :: requests =>
    { wallpapers with
      worker := { wallpapers.worker with phase := wallpapers.select index }
      wallpaperRequests := requests }
  | [] =>
    let nextPreload := skipDecoded wallpapers.worker.decoded wallpapers.worker.nextPreload
    if wallpapers.worker.decoded.length ≤ nextPreload then
      { wallpapers with
        worker := { wallpapers.worker with
          nextPreload
          phase := .exited } }
    else
      { wallpapers with
        worker := { wallpapers.worker with
          nextPreload := nextPreload + 1
          phase := wallpapers.select nextPreload } }

/-- The worker has loaded an image, and sends what it has. -/
def decode (index : ℕ) (frame : Option Frame) : Wallpapers Frame :=
  let loaded := { wallpapers with
    worker := { wallpapers.worker with decoded := wallpapers.worker.decoded.set index true }
    loads := wallpapers.loads ++ [index] }
  if wallpapers.preview = .exited then
    { loaded with worker := { loaded.worker with phase := .exited } }
  else
    { loaded with
      worker := { loaded.worker with phase := .choosing }
      wallpaperResults := wallpapers.wallpaperResults ++ [(index, frame)]
      reports := wallpapers.reports ++ [index] }

/-! ## `preview_worker` -/

/-- A result is put in its slot. -/
def store (result : ℕ × Option Frame) : Wallpapers Frame :=
  { wallpapers with
    backgroundFrames := wallpapers.backgroundFrames.set result.1 result.2
    failedBackgrounds := wallpapers.failedBackgrounds.set result.1 result.2.isNone }

/-- An image that is neither there nor known to have failed. -/
def missing (index : ℕ) : Bool :=
  (wallpapers.backgroundFrames[index]?).any Option.isNone &&
    wallpapers.failedBackgrounds[index]? != some true

/-- A turn of the loop that takes what is in the channel. -/
def drain (request : WallpaperRequest) : Wallpapers Frame :=
  match wallpapers.wallpaperResults with
  | result :: results => { wallpapers.store result with wallpaperResults := results }
  | [] => { wallpapers with preview := .asking request }

/-- The request for an image that is missing; without its worker the request is dropped. -/
def ask (request : WallpaperRequest) : Wallpapers Frame :=
  if request.backgroundType = .image ∧ wallpapers.missing request.backgroundPreset then
    { wallpapers with
      preview := .rendering request true
      wallpaperRequests :=
        if wallpapers.worker.phase = .exited then wallpapers.wallpaperRequests
        else wallpapers.wallpaperRequests ++ [request.backgroundPreset]
      asked := wallpapers.asked ++ [request.backgroundPreset] }
  else { wallpapers with preview := .rendering request false }

/-- A turn of the loop that waits for the wallpaper; `none` when it is blocked. -/
def receive (request : WallpaperRequest) : Option (Wallpapers Frame) :=
  if wallpapers.missing request.backgroundPreset then
    match wallpapers.wallpaperResults with
    | result :: results => some { wallpapers.store result with wallpaperResults := results }
    | [] =>
      if wallpapers.worker.phase = .exited then
        some { wallpapers with preview := .composing request }
      else none
  else some { wallpapers with preview := .composing request }

/-! ## Both together -/

/-- A step of one of the workers, where it is at that step. -/
def step : WallpaperStep Frame → Option (Wallpapers Frame)
  | .choose => if wallpapers.worker.phase = .choosing then some wallpapers.choose else none
  | .decode frame =>
    match wallpapers.worker.phase with
    | .decoding index => some (wallpapers.decode index frame)
    | _ => none
  | .request request =>
    if wallpapers.preview = .idle then some { wallpapers with preview := .draining request } else none
  | .drain =>
    match wallpapers.preview with
    | .draining request => some (wallpapers.drain request)
    | _ => none
  | .ask =>
    match wallpapers.preview with
    | .asking request => some (wallpapers.ask request)
    | _ => none
  | .content rendered =>
    match wallpapers.preview with
    | .rendering request wallpaperPending => some
      { wallpapers with
        preview := if !rendered then .idle else if wallpaperPending then .waiting request
          else .composing request }
    | _ => none
  | .receive =>
    match wallpapers.preview with
    | .waiting request => wallpapers.receive request
    | _ => none
  | .compose sent =>
    match wallpapers.preview with
    | .composing _ => some { wallpapers with preview := if sent then .idle else .exited }
    | _ => none
  | .close =>
    if wallpapers.preview = .idle then some { wallpapers with preview := .exited } else none

/-- Both workers at their start; the thread of the wallpaper worker may fail to start. -/
def initial (Frame : Type) (count : ℕ) (started : Bool) : Wallpapers Frame where
  worker := {
    decoded := List.replicate count false
    nextPreload := 0
    phase := if started then .choosing else .exited }
  backgroundFrames := List.replicate count none
  failedBackgrounds := List.replicate count false
  preview := .idle
  wallpaperRequests := []
  wallpaperResults := []
  loads := []
  reports := []
  asked := []

end Wallpapers

/-- The two workers over a number of images. -/
def wallpaperWorkers (Frame : Type) (count : ℕ) (started : Bool) :
    System (Wallpapers Frame) (WallpaperStep Frame) where
  init := fun wallpapers => wallpapers = .initial Frame count started
  step := fun wallpapers label wallpapers' => wallpapers.step label = some wallpapers'

end Blip.Capture
