import Mathlib.Algebra.Order.Field.Rat
import Mathlib.Data.List.Nodup

/-!
# JSON values and codecs

A JSON value as a parser leaves it, and how values of other types are written as one and read back. A
record is an object whose fields are read by name: a field can be required, or have a default for when
it is absent. `Codec` carries the proof that what is written is read back, so the codec of a record
needs only those of its fields.

`JsonText` is a printer and a parser of texts, of which only their agreement is known.
-/

namespace Blip

/-- A value; numbers written without a fraction or an exponent are integers. -/
inductive Json
  | null
  | bool (value : Bool)
  | int (value : ℤ)
  | num (value : ℚ)
  | str (value : String)
  | arr (items : List Json)
  | obj (fields : List (String × Json))

/-- How a type is written and read; what is written is read back. -/
structure Codec (α : Type) where
  encode : α → Json
  decode : Json → Option α
  decode_encode : ∀ a, decode (encode a) = some a

namespace Codec

attribute [simp] decode_encode

variable {α : Type}

def string : Codec String where
  encode := .str
  decode
    | .str value => some value
    | _ => none
  decode_encode _ := rfl

def rational : Codec ℚ where
  encode := .num
  decode
    | .num value => some value
    | .int value => some value
    | _ => none
  decode_encode _ := rfl

/-- A natural number, within the values a machine type takes. -/
def natural (toNat : α → ℕ) (ofNat? : ℕ → Option α) (h : ∀ a, ofNat? (toNat a) = some a) :
    Codec α where
  encode a := .int (toNat a)
  decode
    | .int (.ofNat value) => ofNat? value
    | _ => none
  decode_encode := h

def uint64 : Codec UInt64 :=
  natural UInt64.toNat (fun n => if n < 2 ^ 64 then some (UInt64.ofNat n) else none) fun a => by
    rw [if_pos a.toNat_lt, UInt64.ofNat_toNat]

def uint32 : Codec UInt32 :=
  natural UInt32.toNat (fun n => if n < 2 ^ 32 then some (UInt32.ofNat n) else none) fun a => by
    rw [if_pos a.toNat_lt, UInt32.ofNat_toNat]

/-- An enumeration, by the names of its values. An object of the one field `name: null` is read too. -/
def enumeration [DecidableEq α] (names : List (α × String))
    (h : ∀ a, (names.find? (·.2 == (names.lookup a).getD "")).map Prod.fst = some a) : Codec α where
  encode a := .str ((names.lookup a).getD "")
  decode
    | .str name | .obj [(name, .null)] => (names.find? (·.2 == name)).map Prod.fst
    | _ => none
  decode_encode := h

/-- An array of two. -/
def pair (codec : Codec α) : Codec (α × α) where
  encode a := .arr [codec.encode a.1, codec.encode a.2]
  decode
    | .arr [left, right] => do pure (← codec.decode left, ← codec.decode right)
    | _ => none
  decode_encode a := by simp

def list (codec : Codec α) : Codec (List α) where
  encode items := .arr (items.map codec.encode)
  decode
    | .arr items => items.mapM codec.decode
    | _ => none
  decode_encode items := by
    induction items with
    | nil => rfl
    | cons a items ih => simp_all

/-- An optional value is written as `null` when there is none. -/
def option (codec : Codec α) (h : ∀ a, codec.encode a ≠ .null) : Codec (Option α) where
  encode
    | none => .null
    | some a => codec.encode a
  decode json :=
    match json with
    | .null => some none
    | json => (codec.decode json).map some
  decode_encode
    | none => rfl
    | some a => by
      have hne := h a
      have heq := codec.decode_encode a
      dsimp only
      generalize codec.encode a = json at hne heq
      cases json with
      | null => exact absurd rfl hne
      | _ => exact congrArg (Option.map some) heq

theorem string_ne_null (a : String) : string.encode a ≠ .null := Json.noConfusion

theorem list_ne_null (codec : Codec α) (items : List α) : (list codec).encode items ≠ .null :=
  Json.noConfusion

/-! ## Records -/

/-- A required field. -/
def required (codec : Codec α) (name : String) (fields : List (String × Json)) : Option α :=
  (fields.lookup name).bind codec.decode

/-- A field with a value for when it is absent. -/
def defaulted (codec : Codec α) (name : String) (default : α) (fields : List (String × Json)) :
    Option α :=
  match fields.lookup name with
  | none => some default
  | some json => codec.decode json

/-- A field before `fields`, which is not written when there is no value. -/
def skipNone (codec : Codec α) (name : String) (value : Option α) (fields : List (String × Json)) :
    List (String × Json) :=
  match value with
  | none => fields
  | some a => (name, codec.encode a) :: fields

section

variable {codec : Codec α} {name name' : String} {a default : α} {json : Json}
  {fields : List (String × Json)}

@[simp] theorem required_cons_self :
    codec.required name ((name, codec.encode a) :: fields) = some a := by
  rw [required, List.lookup_cons_self, Option.bind_some, codec.decode_encode]

theorem lookup_cons_ne (h : name ≠ name') :
    ((name', json) :: fields).lookup name = fields.lookup name := by
  rw [List.lookup_cons, beq_false_of_ne h]

@[simp] theorem required_cons_ne (h : name ≠ name') :
    codec.required name ((name', json) :: fields) = codec.required name fields := by
  rw [required, lookup_cons_ne h, required]

@[simp] theorem defaulted_nil : codec.defaulted name default [] = some default := rfl

@[simp] theorem defaulted_cons_self :
    codec.defaulted name default ((name, codec.encode a) :: fields) = some a := by
  rw [defaulted, List.lookup_cons_self]
  exact codec.decode_encode a

@[simp] theorem defaulted_cons_ne (h : name ≠ name') :
    codec.defaulted name default ((name', json) :: fields) = codec.defaulted name default fields := by
  rw [defaulted, lookup_cons_ne h, defaulted]

/-- A field that is skipped is read as the default, no value. -/
@[simp] theorem defaulted_skipNone_self {hnull : ∀ a, codec.encode a ≠ .null} {value : Option α}
    (h : name ∉ fields.map Prod.fst) :
    (codec.option hnull).defaulted name none (codec.skipNone name value fields) = some value := by
  cases value with
  | some a =>
    show (codec.option hnull).defaulted name none
      ((name, (codec.option hnull).encode (some a)) :: fields) = _
    exact defaulted_cons_self
  | none =>
    have hlookup : fields.lookup name = none := by
      rw [List.lookup_eq_none_iff]
      exact fun field hmem => bne_iff_ne.mpr fun heq => h (heq ▸ List.mem_map_of_mem hmem)
    rw [skipNone, defaulted, hlookup]

@[simp] theorem defaulted_skipNone_ne {β : Type} {codec' : Codec β} {value : Option β}
    (h : name ≠ name') :
    codec.defaulted name default (codec'.skipNone name' value fields) =
      codec.defaulted name default fields := by
  cases value with
  | none => rfl
  | some b => exact defaulted_cons_ne h

@[simp] theorem mem_map_fst_skipNone {β : Type} {codec' : Codec β} {value : Option β} :
    name ∈ (codec'.skipNone name' value fields).map Prod.fst ↔
      name = name' ∧ value.isSome ∨ name ∈ fields.map Prod.fst := by
  cases value <;> simp [skipNone]

theorem skipNone_sublist {β : Type} {codec' : Codec β} {value : Option β} {names : List String}
    (h : (fields.map Prod.fst).Sublist names) :
    ((codec'.skipNone name value fields).map Prod.fst).Sublist (name :: names) := by
  cases value with
  | none => exact h.cons name
  | some b => exact h.cons_cons name

end

/-- A record is read from its fields, by name. A field that occurs twice is an error; fields of other
names are ignored. An array is read as the values of the fields in their order. -/
def readRecord (names : List String) (read : List (String × Json) → Option α) : Json → Option α
  | .obj fields => if ((fields.map Prod.fst).filter (· ∈ names)).Nodup then read fields else none
  | .arr items => if items.length ≤ names.length then read (names.zip items) else none
  | _ => none

theorem readRecord_obj {names : List String} {read : List (String × Json) → Option α}
    {fields : List (String × Json)} (h : (fields.map Prod.fst).Nodup) :
    readRecord names read (.obj fields) = read fields :=
  if_pos (h.filter _)

/-- A variant is read by the name that its tag has, from the fields beside the tag. Of an array, the
first item is the tag. -/
def readTagged (tag : String) (variant : String → Option (Json → Option α)) : Json → Option α
  | .obj fields =>
    match fields.filter (·.1 == tag) with
    | [(_, .str name)] => (variant name).bind fun read => read (.obj (fields.filter (·.1 != tag)))
    | _ => none
  | .arr (.str name :: items) => (variant name).bind fun read => read (.arr items)
  | _ => none

/-- A record, from its fields as they are written and as they are read. -/
def record (names : List String) (fields : α → List (String × Json))
    (read : List (String × Json) → Option α) (hnodup : names.Nodup)
    (hnames : ∀ a, ((fields a).map Prod.fst).Sublist names) (h : ∀ a, read (fields a) = some a) :
    Codec α where
  encode a := .obj (fields a)
  decode := readRecord names read
  decode_encode a := (readRecord_obj ((hnames a).nodup hnodup)).trans (h a)

theorem record_ne_null {names : List String} {fields : α → List (String × Json)}
    {read : List (String × Json) → Option α} {hnodup : names.Nodup}
    {hnames : ∀ a, ((fields a).map Prod.fst).Sublist names} {h : ∀ a, read (fields a) = some a}
    (a : α) : (record names fields read hnodup hnames h).encode a ≠ .null :=
  Json.noConfusion

end Codec

/-! ## Texts -/

/-- A printer and a parser of JSON texts that agree; failures are reported in their own words. A text
is a list of `Byte`s, not every list of which is a text. -/
structure JsonText (Byte : Type) where
  print : Json → List Byte
  isText : List Byte → Bool
  parse : List Byte → Except String Json
  /-- What is said of a value of the wrong form. -/
  mismatch : Json → String
  isText_print : ∀ json, isText (print json)
  parse_print : ∀ json, parse (print json) = .ok json

namespace JsonText

variable {Byte α : Type} (serde : JsonText Byte)

/-- What is read of a text, once its JSON value has the form asked for. -/
def fromText (decode : Json → Option α) (text : List Byte) : Except String α :=
  match serde.parse text with
  | .error message => .error message
  | .ok json =>
    match decode json with
    | none => .error (serde.mismatch json)
    | some a => .ok a

theorem fromText_print {decode : Json → Option α} {json : Json} {a : α} (h : decode json = some a) :
    serde.fromText decode (serde.print json) = .ok a := by
  rw [fromText, serde.parse_print]
  dsimp only
  rw [h]

end JsonText

end Blip
