import Blip.Common.System
import Blip.Common.Utf8
import Blip.Ui.NumericText

/-!
# The text fields

A `NumericInput`, which takes any text where it is not numeric, with its selection in bytes, the line
that was painted last, and what the keys, the mouse, the platform and the application do to it. An
operation that slices its content inside a character panics: there it has no result.
-/

namespace Blip.Ui

open String (utf8Len)
open Utf8

/-! ## The painted line -/

/-- A glyph of a shaped line: the byte offset of its text and where it stands. -/
structure Glyph where
  index : ℕ
  x : ℚ

/-- A `ShapedLine`: the text that it shows and its glyphs in order, at characters of the text. -/
structure ShapedLine where
  text : List Char
  glyphs : List Glyph
  width : ℚ
  boundary : ∀ glyph ∈ glyphs, IsBoundary text glyph.index

/-- The loop of `closest_index_for_x` over the glyphs, with the one before. -/
def closestGlyph (x : ℚ) (previous : Glyph) : List Glyph → Option ℕ
  | [] => none
  | glyph :: glyphs =>
    if x ≤ glyph.x then
      some (if glyph.x - x < x - previous.x then glyph.index else previous.index)
    else closestGlyph x glyph glyphs

/-- `closest_index_for_x`. -/
def ShapedLine.closestIndexForX (line : ShapedLine) (x : ℚ) : ℕ :=
  match closestGlyph x ⟨0, 0⟩ line.glyphs with
  | some index => index
  | none =>
    -- the end has no glyph, so a line of one character is split at its middle
    if utf8Len line.text = 1 then if line.width / 2 < x then 1 else 0
    else utf8Len line.text

/-- The text system, which shapes a text into a line of it. -/
structure TextSystem where
  shapeLine : List Char → ShapedLine
  text_shapeLine : ∀ text, (shapeLine text).text = text

/-- The bounds of the text on the screen. -/
structure LineBounds where
  left : ℚ
  top : ℚ
  bottom : ℚ

/-! ## The field -/

/-- A range of byte offsets. -/
structure ByteRange where
  start : ℕ
  stop : ℕ
deriving DecidableEq

/-- A range that the platform hands over, in its own units: where it starts and how long it is. -/
structure PlatformRange where
  location : ℕ
  length : ℕ

/-- `to_range`. -/
def PlatformRange.toRange (range : PlatformRange) : ByteRange where
  start := range.location
  stop := range.location + range.length

structure NumericInput where
  placeholder : List Char
  numeric : Bool
  content : List Char
  selectedRange : ByteRange
  lastLayout : Option ShapedLine
  lastBounds : Option LineBounds

/-- `char::is_whitespace`. -/
def isWhitespace (c : Char) : Bool :=
  let code := c.toNat
  (0x9 ≤ code && code ≤ 0xD) || code == 0x20 || code == 0x85 || code == 0xA0 || code == 0x1680 ||
    (0x2000 ≤ code && code ≤ 0x200A) || code == 0x2028 || code == 0x2029 || code == 0x202F ||
    code == 0x205F || code == 0x3000

/-- `str::trim`. -/
def trim (text : List Char) : List Char :=
  ((text.dropWhile isWhitespace).reverse.dropWhile isWhitespace).reverse

namespace NumericInput

/-- `NumericInput::new`. -/
def new : NumericInput where
  placeholder := []
  numeric := true
  content := ['0']
  selectedRange := ⟨0, 1⟩
  lastLayout := none
  lastBounds := none

/-- `NumericInput::new_text`. -/
def newText (placeholder : List Char) : NumericInput where
  placeholder := placeholder
  numeric := false
  content := []
  selectedRange := ⟨0, 0⟩
  lastLayout := none
  lastBounds := none

variable (input : NumericInput)

/-- The cursor at an offset. -/
def withCursor (offset : ℕ) : NumericInput := { input with selectedRange := ⟨offset, offset⟩ }

/-- `set_text`. -/
def setText (value : List Char) : NumericInput :=
  { input with content := value }.withCursor (utf8Len value)

/-- `set_value`. -/
def setValue (value : F32) (focused : Bool) : NumericInput :=
  if focused then input
  else if input.content ≠ displayRounded value then input.setText (displayRounded value)
  else input

/-- `replace_selection`, and what it leaves of the field. -/
def replaceSelection (text : List Char) : Option NumericInput := do
  let (before, _) ← cut input.content input.selectedRange.start
  let (_, after) ← cut input.content input.selectedRange.stop
  let candidate := before ++ text ++ after
  -- a candidate that is rejected leaves the selection as the caller has set it
  if input.numeric && !isNumericCandidate candidate then return input
  else return { input with content := candidate }.withCursor (input.selectedRange.start + utf8Len text)

/-- `backspace`. -/
def backspace : Option NumericInput :=
  let range := input.selectedRange
  if range.stop ≤ range.start ∧ 0 < range.start then
    -- one byte back, whatever the character there
    { input with selectedRange := ⟨range.start - 1, range.stop⟩ }.replaceSelection []
  else input.replaceSelection []

/-- `delete`. -/
def delete : Option NumericInput :=
  let range := input.selectedRange
  if range.stop ≤ range.start ∧ range.stop < utf8Len input.content then
    { input with selectedRange := ⟨range.start, range.stop + 1⟩ }.replaceSelection []
  else input.replaceSelection []

/-- `left`. -/
def left : NumericInput := input.withCursor (input.selectedRange.start - 1)

/-- `right`. -/
def right : NumericInput := input.withCursor (min (input.selectedRange.stop + 1) (utf8Len input.content))

/-- `select_all`. -/
def selectAll : NumericInput := { input with selectedRange := ⟨0, utf8Len input.content⟩ }

/-- `adjust_value`. -/
def adjustValue (delta : F32) : NumericInput :=
  match parseF32 input.content with
  | none => input
  -- what is displayed is not tested again: it may be `inf`
  | some value => { input with content := displayRounded (value + delta) }.selectAll

/-- `paste`. -/
def paste (clipboard : Option (List Char)) : Option NumericInput :=
  match clipboard with
  | none => some input
  | some text => input.replaceSelection (trim text)

/-- `index_for_mouse_position`. -/
def indexForMousePosition (x y : ℚ) : ℕ :=
  if input.content.isEmpty then 0
  else
    match input.lastBounds, input.lastLayout with
    | some bounds, some line =>
      if y < bounds.top then 0
      else if bounds.bottom < y then utf8Len input.content
      else line.closestIndexForX (x - bounds.left)
    | _, _ => 0

/-- `on_mouse_down`. -/
def onMouseDown (x y : ℚ) : NumericInput :=
  if input.numeric then input.selectAll else input.withCursor (input.indexForMousePosition x y)

/-- `replace_text_in_range`, and `replace_and_mark_text_in_range`. -/
def replaceTextInRange (range : Option PlatformRange) (text : List Char) : Option NumericInput :=
  match range with
  | none => input.replaceSelection text
  | some range => { input with selectedRange := range.toRange }.replaceSelection text

/-- The end of a focus. -/
def blur : NumericInput := input.withCursor input.selectedRange.stop

/-- `prepaint` and `paint`. -/
def paint (system : TextSystem) (bounds : LineBounds) : NumericInput :=
  { input with
    lastLayout := some (system.shapeLine (if input.content.isEmpty then input.placeholder else
      input.content))
    lastBounds := some bounds }

end NumericInput

/-! ## Its operations -/

inductive Edit
  | backspace
  | delete
  | left
  | right
  | selectAll
  | increment
  | decrement
  | paste (clipboard : Option (List Char))
  | onMouseDown (x y : ℚ)
  | replaceTextInRange (range : Option PlatformRange) (text : List Char)
  | setValue (value : F32) (focused : Bool)
  | setText (value : List Char)
  | blur
  | paint (system : TextSystem) (bounds : LineBounds)

def NumericInput.perform (input : NumericInput) : Edit → Option NumericInput
  | .backspace => input.backspace
  | .delete => input.delete
  | .left => some input.left
  | .right => some input.right
  | .selectAll => some input.selectAll
  | .increment => some (input.adjustValue (.ofRat 1))
  | .decrement => some (input.adjustValue (.ofRat (-1)))
  | .paste clipboard => input.paste clipboard
  | .onMouseDown x y => some (input.onMouseDown x y)
  | .replaceTextInRange range text => input.replaceTextInRange range text
  | .setValue value focused => some (input.setValue value focused)
  | .setText value => some (input.setText value)
  | .blur => some input.blur
  | .paint system bounds => some (input.paint system bounds)

/-- A field, numeric or of text. -/
def numericInputSystem : System NumericInput Edit where
  init := fun input => input = .new ∨ ∃ placeholder, input = .newText placeholder
  step := fun input edit input' => input.perform edit = some input'

end Blip.Ui
