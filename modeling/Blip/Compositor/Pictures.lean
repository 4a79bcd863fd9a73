import Blip.Capture.CameraOverlay
import Blip.Common.PushLoops
import Mathlib.Data.List.Forall2

/-!
# The compositor

`FrameCompositor` of `crates/blip-compositor`: it imports the pixel buffers that it is given and draws
the items in order, each by the settings that are computed for the shader. What the shader makes of them
is left open, so a picture is told by what is drawn. Numbers are exact; what CoreVideo and Metal answer
is a function of what they are asked.
-/

namespace Blip.Compositor

open Capture (ContentRect BoxShadow gpuContentRect clampChecked)

/-! ## Items -/

abbrev Vec4 := ℚ × ℚ × ℚ × ℚ

/-- `ItemTransform` of the crate. -/
structure ItemTransform extends Capture.ItemTransform where
  cornerRadius : ℚ
  squircle : Bool
  boxShadow : Option BoxShadow

/-- `ItemTransform::new`. -/
def ItemTransform.new (center size : ℚ × ℚ) : ItemTransform where
  center := center
  size := size
  cornerRadius := 0
  squircle := false
  boxShadow := none

inductive CompositorItemContent
  | source (index : ℕ)
  | color (color : Vec4)
  | gradient (start stop : Vec4)
  | checkerboard (first second : Vec4)

structure CompositorItem where
  content : CompositorItemContent
  transform : ItemTransform

/-! ## Pictures -/

/-- The color that a picture is cleared to. -/
inductive ClearColor
  | black
  | transparent

/-- `CompositorSettings` of the shader. -/
structure CompositorSettings where
  contentRect : Vec4
  transform : Capture.ItemTransform
  canvasSize : ℚ × ℚ
  cornerRadius : ℚ
  contentKind : ℕ
  color : Vec4
  boxShadow : BoxShadow

/-- Pixels are those of a frame, or are drawn: layers over a color, each of a texture or of none. -/
inductive Pixels (Frame : Type)
  | frame (frame : Frame)
  | drawn (clear : ClearColor) (dimensions : ℕ × ℕ)
      (layers : List (Option (Pixels Frame) × CompositorSettings))

/-- What the compositor asks a `CVPixelBuffer`. -/
structure PixelBuffer (Frame : Type) where
  pixels : Pixels Frame
  pixelFormat : UInt32
  width : ℕ
  height : ℕ
  planes : List (ℕ × ℕ)

structure CompositorSource (Frame : Type) where
  pixelBuffer : PixelBuffer Frame
  contentRect : Option ContentRect

/-- `BGRA`, `420v` and `420f`. -/
def kCVPixelFormatType_32BGRA : UInt32 := 0x42475241

def kCVPixelFormatType_420YpCbCr8BiPlanarVideoRange : UInt32 := 0x34323076

def kCVPixelFormatType_420YpCbCr8BiPlanarFullRange : UInt32 := 0x34323066

/-! ## Rendering -/

/-- An error, or a panic of `clamp` on an empty range. -/
inductive RenderFailure
  | error (message : String)
  | panicked

/-- The errors of CoreVideo and Metal, if any. -/
structure Gpu (Frame : Type) where
  createOutput : ℕ × ℕ → Option String
  importPlane : PixelBuffer Frame → ℕ → Option String
  poll : ℕ → Option String

/-- What `import_source` and `gpu_content_rect` make of a source. -/
structure SourceTexture (Frame : Type) where
  pixels : Pixels Frame
  contentRect : ContentRect
  contentKind : ℕ

variable {Frame : Type} (gpu : Gpu Frame)

def check (error : Option String) : Except RenderFailure Unit :=
  match error with
  | none => .ok ()
  | some message => .error (.error message)

/-- `import_pixel_buffer_plane`. -/
def importPixelBufferPlane (buffer : PixelBuffer Frame) (dimensions : ℕ × ℕ) (plane : ℕ) :
    Except RenderFailure Unit :=
  if 2 ^ 32 ≤ dimensions.1 then .error (.error "frame width exceeds u32")
  else if 2 ^ 32 ≤ dimensions.2 then .error (.error "frame height exceeds u32")
  else check (gpu.importPlane buffer plane)

/-- `{value:#010x}`. -/
def hex8 (value : UInt32) : String :=
  let digits := Nat.toDigits 16 value.toNat
  "0x" ++ String.ofList (List.replicate (8 - digits.length) '0' ++ digits)

/-- `import_source`: the kind of the content. -/
def importSource (buffer : PixelBuffer Frame) : Except RenderFailure ℕ :=
  if buffer.pixelFormat = kCVPixelFormatType_32BGRA then do
    importPixelBufferPlane gpu buffer (buffer.width, buffer.height) 0
    return 0
  else if buffer.pixelFormat = kCVPixelFormatType_420YpCbCr8BiPlanarVideoRange ∨
      buffer.pixelFormat = kCVPixelFormatType_420YpCbCr8BiPlanarFullRange then
    match buffer.planes with
    | [luma, chroma] => do
      importPixelBufferPlane gpu buffer luma 0
      importPixelBufferPlane gpu buffer chroma 1
      let full := buffer.pixelFormat = kCVPixelFormatType_420YpCbCr8BiPlanarFullRange
      return if buffer.height < 720 then if full then 5 else 4 else if full then 3 else 2
    | _ => .error (.error "NV12 camera frame does not contain two planes")
  else .error (.error s!"unsupported source pixel format {hex8 buffer.pixelFormat}")

/-- The body of the loop over the sources. -/
def importTexture (source : CompositorSource Frame) : Except RenderFailure (SourceTexture Frame) := do
  let contentKind ← importSource gpu source.pixelBuffer
  match gpuContentRect source.contentRect source.pixelBuffer.width source.pixelBuffer.height with
  | .error message => .error (.error message)
  | .ok none => .error .panicked
  | .ok (some contentRect) => return ⟨source.pixelBuffer.pixels, contentRect, contentKind⟩

/-- `clamped_corner_radius`; `none` is the panic of a size below nothing. -/
def clampedCornerRadius (transform : ItemTransform) (canvasSize : ℚ × ℚ) : Option ℚ :=
  let width := canvasSize.1 * transform.size.1
  let height := canvasSize.2 * transform.size.2
  clampChecked 0 (min width height * (1 / 2)) transform.cornerRadius

/-- What a texture, or a color, is drawn from: its rectangle, its color and its kind. -/
structure DrawnContent (Frame : Type) where
  pixels : Option (Pixels Frame)
  contentRect : Vec4
  color : Vec4
  contentKind : ℕ

def SourceTexture.content (texture : SourceTexture Frame) : DrawnContent Frame where
  pixels := some texture.pixels
  contentRect := (texture.contentRect.x, texture.contentRect.y, texture.contentRect.width,
    texture.contentRect.height)
  color := (0, 0, 0, 0)
  contentKind := texture.contentKind

/-- The content of an item, found among the textures of the sources. -/
def itemContent (textures : List (SourceTexture Frame)) :
    CompositorItemContent → Except RenderFailure (DrawnContent Frame)
  | .source index =>
    match textures[index]? with
    | none => .error (.error
        s!"compositor item source index {index} is out of bounds for {textures.length} sources")
    | some texture => .ok texture.content
  | .color color => .ok ⟨none, (0, 0, 1, 1), color, 1⟩
  | .gradient start stop => .ok ⟨none, stop, start, 6⟩
  | .checkerboard first second => .ok ⟨none, second, first, 7⟩

/-- The settings of an item, with the texture that is bound for it. -/
def layer (canvasSize : ℚ × ℚ) (content : DrawnContent Frame) (transform : ItemTransform) :
    Except RenderFailure (Option (Pixels Frame) × CompositorSettings) :=
  match clampedCornerRadius transform canvasSize with
  | none => .error .panicked
  | some cornerRadius =>
    let boxShadow := transform.boxShadow.getD ⟨(0, 0), (0, 0, 0, 0), 0, 0⟩
    .ok (content.pixels,
      { contentRect := content.contentRect
        transform := transform.toItemTransform
        canvasSize
        cornerRadius := cornerRadius * if transform.squircle then -1 else 1
        contentKind := content.contentKind
        color := content.color
        boxShadow := { boxShadow with blurRadius := max boxShadow.blurRadius 0 } })

/-- The body of the loop over the items. -/
def itemLayer (canvasSize : ℚ × ℚ) (textures : List (SourceTexture Frame)) (item : CompositorItem) :
    Except RenderFailure (Option (Pixels Frame) × CompositorSettings) := do
  let content ← itemContent textures item.content
  layer canvasSize content item.transform

/-- The pixel buffer of the pool, drawn. -/
def composed (clear : ClearColor) (dimensions : ℕ × ℕ)
    (layers : List (Option (Pixels Frame) × CompositorSettings)) : PixelBuffer Frame where
  pixels := .drawn clear dimensions layers
  pixelFormat := kCVPixelFormatType_32BGRA
  width := dimensions.1
  height := dimensions.2
  planes := []

/-- `output_pixel_buffer`, and its import. -/
def createOutput (dimensions : ℕ × ℕ) : Except RenderFailure Unit := do
  check (gpu.createOutput dimensions)
  importPixelBufferPlane gpu (composed .black dimensions []) dimensions 0

/-- `render_with_clear_color`. -/
def renderWithClearColor (clear : ClearColor) (sources : List (CompositorSource Frame))
    (items : List CompositorItem) (dimensions : ℕ × ℕ) : Except RenderFailure (PixelBuffer Frame) := do
  createOutput gpu dimensions
  let textures ← sources.mapM (importTexture gpu)
  let layers ← items.mapM (itemLayer (dimensions.1, dimensions.2) textures)
  check (gpu.poll items.length)
  return composed clear dimensions layers

/-- `render`. -/
def render := renderWithClearColor gpu .black

/-- `render_transparent`. -/
def renderTransparent := renderWithClearColor gpu .transparent

/-- `render_with_output_transform`; scales and centers are finite. -/
def renderWithOutputTransform (sources : List (CompositorSource Frame)) (items : List CompositorItem)
    (dimensions : ℕ × ℕ) (transform : Capture.OutputTransform) :
    Except RenderFailure (PixelBuffer Frame) := do
  let combined ← render gpu sources items dimensions
  match Capture.outputItem transform with
  | none => return combined
  | some placed =>
    render gpu [⟨combined, none⟩] [⟨.source 0, .new placed.center placed.size⟩] dimensions

/-! ## Every item by itself -/

/-- The content of an item with its own source. -/
inductive OwnContent (Frame : Type)
  | source (source : CompositorSource Frame)
  | color (color : Vec4)
  | gradient (start stop : Vec4)
  | checkerboard (first second : Vec4)

/-- The content that an item refers to. -/
def resolve (sources : List (CompositorSource Frame)) :
    CompositorItemContent → Option (OwnContent Frame)
  | .source index => (sources[index]?).map .source
  | .color color => some (.color color)
  | .gradient start stop => some (.gradient start stop)
  | .checkerboard first second => some (.checkerboard first second)

def ownContent : OwnContent Frame → Except RenderFailure (DrawnContent Frame)
  | .source source => (importTexture gpu source).map SourceTexture.content
  | .color color => .ok ⟨none, (0, 0, 1, 1), color, 1⟩
  | .gradient start stop => .ok ⟨none, stop, start, 6⟩
  | .checkerboard first second => .ok ⟨none, second, first, 7⟩

/-- An item drawn by itself. -/
def ownLayer (canvasSize : ℚ × ℚ) (item : OwnContent Frame × ItemTransform) :
    Except RenderFailure (Option (Pixels Frame) × CompositorSettings) := do
  let content ← ownContent gpu item.1
  layer canvasSize content item.2

/-- The items drawn in order, each by itself. -/
def renderItems (clear : ClearColor) (items : List (OwnContent Frame × ItemTransform))
    (dimensions : ℕ × ℕ) : Except RenderFailure (PixelBuffer Frame) := do
  createOutput gpu dimensions
  let layers ← items.mapM (ownLayer gpu (dimensions.1, dimensions.2))
  check (gpu.poll items.length)
  return composed clear dimensions layers

/-- An item with what it refers to. -/
def Refers (sources : List (CompositorSource Frame)) (item : CompositorItem)
    (own : OwnContent Frame × ItemTransform) : Prop :=
  resolve sources item.content = some own.1 ∧ item.transform = own.2

section

variable {gpu} {sources : List (CompositorSource Frame)} {items : List CompositorItem}
  {own : List (OwnContent Frame × ItemTransform)}

/-- With the textures of the sources an item is drawn as by itself. -/
theorem itemLayer_eq {textures : List (SourceTexture Frame)} {item : CompositorItem}
    {content : OwnContent Frame × ItemTransform}
    (htextures : List.Forall₂ (fun source texture => importTexture gpu source = .ok texture)
      sources textures)
    (hitem : Refers sources item content) (canvasSize : ℚ × ℚ) :
    itemLayer canvasSize textures item = ownLayer gpu canvasSize content := by
  obtain ⟨hresolve, htransform⟩ := hitem
  have hcontent : itemContent textures item.content = ownContent gpu content.1 := by
    unfold resolve at hresolve
    split at hresolve
    · rename_i index hindex
      obtain ⟨source, hsource, hown⟩ := Option.map_eq_some_iff.1 hresolve
      obtain ⟨hlt, rfl⟩ := List.getElem?_eq_some_iff.1 hsource
      have hlt' : index < textures.length := htextures.length_eq ▸ hlt
      have htexture := htextures.get hlt hlt'
      simp only [List.get_eq_getElem] at htexture
      rw [hindex, ← hown]
      simp only [itemContent, ownContent, List.getElem?_eq_getElem hlt', htexture, Except.map]
    all_goals
      rename_i hkind
      obtain hown := Option.some.inj hresolve
      rw [hkind, ← hown]
      rfl
  unfold itemLayer ownLayer
  rw [hcontent, htransform]

theorem mapM_itemLayer {textures : List (SourceTexture Frame)}
    (htextures : List.Forall₂ (fun source texture => importTexture gpu source = .ok texture)
      sources textures)
    (hitems : List.Forall₂ (Refers sources) items own) (canvasSize : ℚ × ℚ) :
    items.mapM (itemLayer canvasSize textures) = own.mapM (ownLayer gpu canvasSize) := by
  induction hitems with
  | nil => rfl
  | cons hitem _ ih => rw [List.mapM_cons, List.mapM_cons, itemLayer_eq htextures hitem, ih]

/-- A source that an item refers to is imported when the item is drawn by itself. -/
theorem imports_of_drawn {canvasSize : ℚ × ℚ}
    {layers : List (Option (Pixels Frame) × CompositorSettings)}
    (hitems : List.Forall₂ (Refers sources) items own)
    (hlayers : List.Forall₂ (fun item layer => ownLayer gpu canvasSize item = .ok layer) own layers)
    {item : CompositorItem} (hitem : item ∈ items) {index : ℕ} (hindex : item.content = .source index) :
    ∃ source texture, sources[index]? = some source ∧ importTexture gpu source = .ok texture := by
  obtain ⟨place, hplace, rfl⟩ := List.getElem_of_mem hitem
  have hown : place < own.length := hitems.length_eq ▸ hplace
  have hlayer : place < layers.length := hlayers.length_eq ▸ hown
  obtain ⟨hresolve, -⟩ := hitems.get hplace hown
  have hdrawn := hlayers.get hown hlayer
  simp only [List.get_eq_getElem] at hresolve hdrawn
  rw [hindex] at hresolve
  obtain ⟨source, hsource, hcontent⟩ := Option.map_eq_some_iff.1 hresolve
  unfold ownLayer ownContent at hdrawn
  rw [← hcontent] at hdrawn
  dsimp only at hdrawn
  cases himport : importTexture gpu source with
  | error failure =>
    rw [himport] at hdrawn
    cases hdrawn
  | ok texture => exact ⟨source, texture, hsource, himport⟩

/-- Where every source is used, sharing the textures makes no difference to the picture. -/
theorem renderWithClearColor_eq_ok {clear : ClearColor} {dimensions : ℕ × ℕ}
    {picture : PixelBuffer Frame}
    (hitems : List.Forall₂ (Refers sources) items own)
    (hused : ∀ index < sources.length, ∃ item ∈ items, item.content = .source index) :
    renderWithClearColor gpu clear sources items dimensions = .ok picture ↔
      renderItems gpu clear own dimensions = .ok picture := by
  unfold renderWithClearColor renderItems
  rw [hitems.length_eq]
  cases createOutput gpu dimensions with
  | error failure => exact Iff.rfl
  | ok =>
    simp only [bind, Except.bind]
    cases htextures : sources.mapM (importTexture gpu) with
    | ok textures => simp only [mapM_itemLayer (mapM_eq_ok.1 htextures) hitems]
    | error failure =>
      -- a source that cannot be imported is used by an item
      refine ⟨nofun, fun h => ?_⟩
      cases hlayers : own.mapM (ownLayer gpu (dimensions.1, dimensions.2)) with
      | error failure =>
        rw [hlayers] at h
        cases h
      | ok layers =>
        have himports : ∀ source ∈ sources, ∃ texture, importTexture gpu source = .ok texture := by
          intro source hsource
          obtain ⟨index, hindex, rfl⟩ := List.getElem_of_mem hsource
          obtain ⟨item, hitem, hcontent⟩ := hused index hindex
          obtain ⟨source, texture, hget, himport⟩ :=
            imports_of_drawn hitems (mapM_eq_ok.1 hlayers) hitem hcontent
          rw [List.getElem?_eq_getElem hindex, Option.some.injEq] at hget
          exact ⟨texture, hget ▸ himport⟩
        obtain ⟨textures, hall⟩ := mapM_total himports
        rw [hall] at htextures
        cases htextures

end

end Blip.Compositor
