import Blip.Common.Rows
import Blip.Sck.AudioPackets

/-!
# The bytes of a captured frame

`VideoFrame::to_bytes` and `copy_surface_rows` of `crates/blip-sck/src/video_frame.rs`: the rows of every
plane without the padding behind them, one plane after the other. What CoreVideo says about a pixel
buffer is taken as it comes.
-/

namespace Blip.Sck

/-- A plane of an IOSurface with the bytes from its base address on, unless that is null. -/
structure SurfacePlane where
  base : Option (ℕ → UInt8)
  width : ℕ
  height : ℕ
  elementWidth : ℕ
  elementHeight : ℕ
  bytesPerElement : ℕ
  stride : ℕ

/-- The surface as a whole, which is read when it has no planes. -/
structure Surface where
  whole : SurfacePlane
  planes : List SurfacePlane

/-- What `to_bytes` asks a `CVPixelBuffer`. -/
structure PixelBuffer where
  lockStatus : Int32
  surface : Option Surface

/-- `usize::div_ceil`. -/
def divCeil (value divisor : ℕ) : ℕ := (value + divisor - 1) / divisor

namespace SurfacePlane

variable (plane : SurfacePlane)

def rows : ℕ := divCeil plane.height (max plane.elementHeight 1)

def rowLen : ℕ := divCeil plane.width (max plane.elementWidth 1) * plane.bytesPerElement

end SurfacePlane

/-- `<[u8]>::chunks_exact`, which panics when it has no size. -/
def chunksExact (bytes : List UInt8) (size : ℕ) : Call (List (List UInt8)) :=
  if size = 0 then ExceptT.mk none
  else pure ((List.range (bytes.length / size)).map fun index => (bytes.drop (index * size)).take size)

/-- The data of a row. -/
def pushRow (rowLen : ℕ) (output row : List UInt8) : Call (List UInt8) :=
  match slice row 0 rowLen with
  | none => invalidFrame "capture row is shorter than expected"
  | some data => pure (output ++ data)

/-- `copy_surface_rows`. -/
def copySurfaceRows (output : List UInt8) (plane : SurfacePlane) (base : ℕ → UInt8) :
    Call (List UInt8) := do
  let rowLen ← checkedUsize "capture row size overflow" plane.rowLen
  if plane.stride < rowLen then
    invalidFrame "capture row stride is shorter than its pixel data"
  let sourceLen ← checkedUsize "capture buffer size overflow" (plane.stride * plane.rows)
  let source := (List.range sourceLen).map base
  let chunks ← chunksExact source plane.stride
  (chunks.take plane.rows).foldlM (pushRow rowLen) output

/-- A plane is appended, unless it has no base address. -/
def appendPlane (message : String) (output : List UInt8) (plane : SurfacePlane) : Call (List UInt8) :=
  match plane.base with
  | none => invalidFrame message
  | some base => copySurfaceRows output plane base

/-- `VideoFrame::to_bytes`. -/
def toBytes (buffer : PixelBuffer) : Call (List UInt8) := do
  if buffer.lockStatus ≠ 0 then
    invalidFrame s!"failed to lock capture pixel buffer ({buffer.lockStatus})"
  let some surface := buffer.surface
    | invalidFrame "capture pixel buffer is not IOSurface-backed"
  if surface.planes.length = 0 then
    appendPlane "capture has no pixel data" [] surface.whole
  else
    surface.planes.zipIdx.foldlM (fun bytes (plane, index) =>
      appendPlane s!"capture plane {index} has no pixel data" bytes plane) []

/-! ## What is packed -/

/-- The planes that are read, in their order. -/
def Surface.read (surface : Surface) : List SurfacePlane :=
  if surface.planes.length = 0 then [surface.whole] else surface.planes

namespace SurfacePlane

variable (plane : SurfacePlane)

/-- The data of a row. -/
def row (index : ℕ) : List UInt8 :=
  (List.range plane.rowLen).map fun column => plane.base.elim 0 (· (index * plane.stride + column))

/-- The rows without their padding. -/
def packed : List UInt8 := (List.range plane.rows).flatMap plane.row

/-- A plane that can be copied: it has an address, its rows do not overlap and it can be counted. -/
structure Readable : Prop where
  base : plane.base.isSome = true
  stride : 0 < plane.stride
  rowLen : plane.rowLen ≤ plane.stride
  row : plane.rowLen ≤ usizeMax
  size : plane.stride * plane.rows ≤ usizeMax

theorem length_row (index : ℕ) : (plane.row index).length = plane.rowLen := by
  rw [row, List.length_map, List.length_range]

theorem length_packed : plane.packed.length = plane.rows * plane.rowLen :=
  length_flatMap_range plane.length_row plane.rows

/-- A row starts where the rows before it end. -/
theorem slice_packed {index : ℕ} (hindex : index < plane.rows) :
    slice plane.packed (index * plane.rowLen) plane.rowLen = some (plane.row index) := by
  have hle : (index + 1) * plane.rowLen ≤ plane.rows * plane.rowLen :=
    Nat.mul_le_mul_right _ hindex
  rw [Nat.succ_mul] at hle
  have h := slice_eq_some_of_getElem? plane.packed (plane.row index) (index * plane.rowLen)
  rw [plane.length_row, plane.length_packed] at h
  exact h hle fun column hcolumn => getElem?_flatMap_range plane.length_row hindex hcolumn

end SurfacePlane

/-! ## Steps of a call -/

/-- A call goes on exactly with what the call before it returned. -/
theorem Call.bind_eq_pure {α β : Type} {call : Call α} {next : α → Call β} {value : β} :
    (call >>= next : Call β) = pure value ↔
      ∃ first, call = pure first ∧ next first = pure value := by
  constructor
  · intro h
    rcases hcall : call with _ | _ | first
    · rw [hcall] at h
      cases h
    · rw [hcall] at h
      cases h
    · rw [hcall] at h
      exact ⟨first, rfl, h⟩
  · rintro ⟨first, rfl, h⟩
    rw [pure_bind]
    exact h

theorem Call.pure_inj {α : Type} {first second : α} :
    (pure first : Call α) = pure second ↔ first = second :=
  ⟨fun h => Except.ok.inj (Option.some.inj h), fun h => by rw [h]⟩

theorem invalidFrame_ne_pure {α : Type} (message : String) (value : α) :
    (invalidFrame message : Call α) ≠ pure value := nofun

theorem checkedUsize_eq_pure {message : String} {value result : ℕ} :
    checkedUsize message value = pure result ↔ value ≤ usizeMax ∧ result = value := by
  unfold checkedUsize
  split
  · simp_all [Call.pure_inj, eq_comm]
  · simp_all [invalidFrame_ne_pure]

/-- A loop that pushes some items for every good element, and returns only if all are good. -/
theorem foldlM_eq_pure_iff {α : Type} {good : α → Prop} {items : α → List UInt8}
    {step : List UInt8 → α → Call (List UInt8)}
    (hstep : ∀ pushed x result, step pushed x = pure result ↔ good x ∧ result = pushed ++ items x)
    (xs : List α) (pushed result : List UInt8) :
    xs.foldlM step pushed = pure result ↔
      (∀ x ∈ xs, good x) ∧ result = pushed ++ xs.flatMap items := by
  induction xs generalizing pushed with
  | nil =>
    rw [List.foldlM_nil, Call.pure_inj, List.flatMap_nil, List.append_nil]
    simp [eq_comm]
  | cons x xs ih =>
    rw [List.foldlM_cons, Call.bind_eq_pure, List.forall_mem_cons, List.flatMap_cons]
    constructor
    · rintro ⟨first, hfirst, hrest⟩
      obtain ⟨hgood, rfl⟩ := (hstep _ _ _).1 hfirst
      obtain ⟨hall, rfl⟩ := (ih _).1 hrest
      exact ⟨⟨hgood, hall⟩, List.append_assoc _ _ _⟩
    · rintro ⟨⟨hgood, hall⟩, rfl⟩
      exact ⟨_, (hstep _ _ _).2 ⟨hgood, rfl⟩, (ih _).2 ⟨hall, (List.append_assoc _ _ _).symm⟩⟩

/-! ## A plane -/

section

variable {plane : SurfacePlane} {base : ℕ → UInt8}

theorem pushRow_eq_pure {rowLen : ℕ} {output row result : List UInt8} :
    pushRow rowLen output row = pure result ↔
      rowLen ≤ row.length ∧ result = output ++ row.take rowLen := by
  unfold pushRow slice
  rw [Nat.zero_add, List.drop_zero]
  split
  · rename_i h
    rw [ite_eq_right_iff] at h
    have hshort : ¬ rowLen ≤ row.length := fun hle => Option.some_ne_none _ (h hle)
    simp [hshort, invalidFrame_ne_pure]
  · rename_i data h
    rw [Option.ite_none_right_eq_some, Option.some.injEq] at h
    obtain ⟨hle, rfl⟩ := h
    simp [hle, Call.pure_inj, eq_comm]

/-- The memory of a plane. -/
def memory (plane : SurfacePlane) (base : ℕ → UInt8) : List UInt8 :=
  (List.range (plane.stride * plane.rows)).map base

theorem chunk_le {index : ℕ} (hindex : index < plane.rows) :
    index * plane.stride + plane.stride ≤ plane.stride * plane.rows := by
  have hle : (index + 1) * plane.stride ≤ plane.rows * plane.stride := Nat.mul_le_mul_right _ hindex
  rw [Nat.succ_mul, Nat.mul_comm plane.rows] at hle
  exact hle

/-- A chunk of the memory of a plane starts with the data of its row. -/
theorem take_chunk (hbase : plane.base = some base) (hrow : plane.rowLen ≤ plane.stride) {index : ℕ}
    (hindex : index < plane.rows) :
    (((memory plane base).drop (index * plane.stride)).take plane.stride).take plane.rowLen =
      plane.row index := by
  have hle := chunk_le hindex
  rw [List.take_take, Nat.min_eq_left hrow]
  apply List.ext_getElem?
  intro column
  rw [List.getElem?_take, List.getElem?_drop, memory, SurfacePlane.row]
  simp only [hbase, Option.elim_some]
  split
  · rw [List.getElem?_map, List.getElem?_map, List.getElem?_range (by omega),
      List.getElem?_range (by omega)]
    rfl
  · rw [List.getElem?_eq_none]
    rw [List.length_map, List.length_range]
    omega

/-- The chunks of a plane's memory are pushed without their padding. -/
theorem pushRows_eq_pure (hbase : plane.base = some base) (hrow : plane.rowLen ≤ plane.stride)
    (hstride : 0 < plane.stride) {output result : List UInt8} :
    (do let chunks ← chunksExact (memory plane base) plane.stride
        (chunks.take plane.rows).foldlM (pushRow plane.rowLen) output) = pure result ↔
      result = output ++ plane.packed := by
  have hchunk : ∀ index, index < plane.rows → plane.rowLen ≤
      (((memory plane base).drop (index * plane.stride)).take plane.stride).length := by
    intro index hindex
    have hle := chunk_le hindex
    rw [List.length_take, List.length_drop, memory, List.length_map, List.length_range]
    omega
  have hpacked : (List.range plane.rows).flatMap (fun index =>
      (((memory plane base).drop (index * plane.stride)).take plane.stride).take plane.rowLen) =
        plane.packed :=
    List.flatMap_congr fun index hindex => take_chunk hbase hrow (List.mem_range.1 hindex)
  have hpush : ∀ output row result, pushRow plane.rowLen output row = pure result ↔
      plane.rowLen ≤ row.length ∧ result = output ++ row.take plane.rowLen :=
    fun _ _ _ => pushRow_eq_pure
  have hcount : (memory plane base).length / plane.stride = plane.rows := by
    rw [memory, List.length_map, List.length_range, Nat.mul_div_cancel_left _ hstride]
  rw [chunksExact, if_neg (Nat.pos_iff_ne_zero.1 hstride), pure_bind, hcount,
    List.take_of_length_le (by rw [List.length_map, List.length_range]),
    foldlM_eq_pure_iff hpush, List.flatMap_map, hpacked]
  refine and_iff_right fun chunk hmem => ?_
  obtain ⟨index, hindex, rfl⟩ := List.mem_map.1 hmem
  exact hchunk index (List.mem_range.1 hindex)

/-- When a plane is copied, and what is appended. -/
theorem copySurfaceRows_eq_pure (hbase : plane.base = some base) {output result : List UInt8} :
    copySurfaceRows output plane base = pure result ↔
      plane.Readable ∧ result = output ++ plane.packed := by
  unfold copySurfaceRows
  rw [Call.bind_eq_pure]
  constructor
  · rintro ⟨rowLen, hrowLen, h⟩
    obtain ⟨hrow, rfl⟩ := checkedUsize_eq_pure.1 hrowLen
    split at h
    · cases h
    rename_i hstride
    rw [not_lt] at hstride
    dsimp only at h
    rw [Call.bind_eq_pure] at h
    obtain ⟨size, hsize, h⟩ := h
    obtain ⟨hcounted, rfl⟩ := checkedUsize_eq_pure.1 hsize
    have hpos : 0 < plane.stride := by
      by_contra hzero
      rw [not_lt, Nat.le_zero] at hzero
      unfold chunksExact at h
      rw [if_pos hzero] at h
      cases h
    refine ⟨⟨?_, hpos, hstride, hrow, hcounted⟩, (pushRows_eq_pure hbase hstride hpos).1 h⟩
    rw [hbase]
    rfl
  · rintro ⟨hreadable, hresult⟩
    refine ⟨plane.rowLen, checkedUsize_eq_pure.2 ⟨hreadable.row, rfl⟩, ?_⟩
    rw [if_neg (not_lt.2 hreadable.rowLen)]
    dsimp only
    rw [checkedUsize_eq _ hreadable.size, pure_bind]
    exact (pushRows_eq_pure hbase hreadable.rowLen hreadable.stride).2 hresult

theorem appendPlane_eq_pure {message : String} {output result : List UInt8} :
    appendPlane message output plane = pure result ↔
      plane.Readable ∧ result = output ++ plane.packed := by
  unfold appendPlane
  split
  · rename_i hnone
    refine ⟨nofun, fun h => ?_⟩
    have hbase := h.1.base
    rw [hnone] at hbase
    cases hbase
  · rename_i base hbase
    exact copySurfaceRows_eq_pure hbase

end

/-! ## A frame -/

/-- A frame has bytes exactly when its buffer could be locked and each plane can be copied. -/
theorem toBytes_eq_pure_iff {buffer : PixelBuffer} {bytes : List UInt8} :
    toBytes buffer = pure bytes ↔ buffer.lockStatus = 0 ∧ ∃ surface, buffer.surface = some surface ∧
      (∀ plane ∈ surface.read, plane.Readable) ∧ bytes = surface.read.flatMap SurfacePlane.packed := by
  unfold toBytes
  by_cases hlock : buffer.lockStatus = 0
  swap
  · rw [if_pos hlock]
    exact ⟨nofun, fun h => absurd h.1 hlock⟩
  rw [if_neg (not_not.2 hlock)]
  cases hsurface : buffer.surface with
  | none => exact ⟨nofun, fun ⟨_, surface, h, _⟩ => absurd h (Option.some_ne_none _).symm⟩
  | some surface =>
    dsimp only
    have hread : (if surface.planes.length = 0 then
          appendPlane "capture has no pixel data" [] surface.whole
        else surface.planes.zipIdx.foldlM (fun bytes (plane, index) =>
          appendPlane s!"capture plane {index} has no pixel data" bytes plane) []) = pure bytes ↔
        (∀ plane ∈ surface.read, plane.Readable) ∧
          bytes = surface.read.flatMap SurfacePlane.packed := by
      unfold Surface.read
      split
      · rw [appendPlane_eq_pure]
        simp
      · have happend : ∀ bytes (x : SurfacePlane × ℕ) result,
            appendPlane s!"capture plane {x.2} has no pixel data" bytes x.1 = pure result ↔
              x.1.Readable ∧ result = bytes ++ x.1.packed :=
          fun _ _ _ => appendPlane_eq_pure
        rw [foldlM_eq_pure_iff happend, List.nil_append]
        have hplanes : surface.planes = surface.planes.zipIdx.map Prod.fst :=
          List.zipIdx_map_fst 0 _ |>.symm
        conv_rhs => rw [hplanes, List.forall_mem_map, List.flatMap_map]
    rw [hread]
    simp [hlock]

/-- The bytes of the rows of some planes. -/
def packedSize (planes : List SurfacePlane) : ℕ :=
  (planes.map fun plane => plane.rows * plane.rowLen).sum

theorem length_flatMap_packed (planes : List SurfacePlane) :
    (planes.flatMap SurfacePlane.packed).length = packedSize planes := by
  rw [List.length_flatMap, packedSize]
  congr 1
  exact List.map_congr_left fun plane _ => plane.length_packed

/-- `to_bytes` returns exactly for a buffer that can be locked and whose planes can all be copied. The
bytes are the rows of the planes and nothing else, and every row is found again from the shapes of the
planes before it. -/
theorem toBytes_packs (buffer : PixelBuffer) (bytes : List UInt8) :
    (toBytes buffer = pure bytes ↔ buffer.lockStatus = 0 ∧ ∃ surface, buffer.surface = some surface ∧
      (∀ plane ∈ surface.read, plane.Readable) ∧ bytes = surface.read.flatMap SurfacePlane.packed) ∧
    ∀ surface, buffer.surface = some surface → toBytes buffer = pure bytes →
      bytes.length = packedSize surface.read ∧
      ∀ before plane after, surface.read = before ++ plane :: after → ∀ index, index < plane.rows →
        slice bytes (packedSize before + index * plane.rowLen) plane.rowLen =
          some (plane.row index) := by
  refine ⟨toBytes_eq_pure_iff, fun surface hsurface hbytes => ?_⟩
  obtain ⟨_, read, hread, _, rfl⟩ := toBytes_eq_pure_iff.1 hbytes
  obtain rfl : surface = read := Option.some.inj (hsurface.symm.trans hread)
  refine ⟨length_flatMap_packed _, fun before plane after hplanes index hindex => ?_⟩
  obtain ⟨hfits, hrow⟩ := slice_eq_some_iff.1 (plane.slice_packed hindex)
  rw [hplanes, List.flatMap_append, List.flatMap_cons]
  refine slice_eq_some_iff.2 ⟨?_, ?_⟩
  · simp only [List.length_append, length_flatMap_packed]
    omega
  · rw [← length_flatMap_packed before, List.drop_length_add_append,
      List.drop_append_of_le_length (by omega), List.take_append_of_le_length, hrow]
    rw [List.length_drop]
    omega

/-- Two rows of two pixels with a byte behind each, and a plane of one pixel. -/
def twoPlanes : PixelBuffer where
  lockStatus := 0
  surface := some
    { whole := ⟨none, 0, 0, 1, 1, 1, 0⟩
      planes := [⟨some fun index => index.toUInt8, 2, 2, 1, 1, 1, 3⟩,
        ⟨some fun index => (index + 10).toUInt8, 2, 2, 2, 2, 2, 2⟩] }

theorem toBytes_packs_twoPlanes :
    toBytes twoPlanes = pure [0, 1, 3, 4, 10, 11] ∧
      slice [0, 1, 3, 4, 10, 11] (packedSize (twoPlanes.surface.get rfl).planes.dropLast + 0 * 2) 2 =
        some ([10, 11] : List UInt8) :=
  have h := toBytes_packs twoPlanes [0, 1, 3, 4, 10, 11]
  ⟨rfl, (h.2 _ rfl rfl).2 _ ⟨some fun index => (index + 10).toUInt8, 2, 2, 2, 2, 2, 2⟩ [] rfl 0
    (by decide)⟩

end Blip.Sck
