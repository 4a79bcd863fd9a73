import Mathlib.Data.List.Basic
import Mathlib.Logic.Function.Basic

/-!
# Files, and saves that are cut off

The contents of the files of a directory, and the operations a save performs on them in order. A save
can stop before any of its operations, or inside a write: a write first empties the file and then fills
it, so what it leaves is a proper prefix. A rename happens at once or not at all.

A save that builds its contents elsewhere and ends in a rename leaves the file as it was, wherever it
stops (`left_of_rename`).
-/

namespace Blip

/-- The contents of the files that exist. -/
abbrev Files (Path Byte : Type) : Type := Path → Option (List Byte)

inductive FileOp (Path Byte : Type)
  | write (path : Path) (contents : List Byte)
  | rename (source target : Path)

variable {Path Byte : Type} [DecidableEq Path]

namespace FileOp

/-- The files after an operation. -/
def apply : FileOp Path Byte → Files Path Byte → Files Path Byte
  | write path contents, files => Function.update files path (some contents)
  | rename source target, files =>
    Function.update (Function.update files source none) target (files source)

/-- The operation concerns other files than `path`. -/
def Spares (path : Path) : FileOp Path Byte → Prop
  | write path' _ => path' ≠ path
  | rename source target => source ≠ path ∧ target ≠ path

theorem apply_of_spares {op : FileOp Path Byte} {path : Path} (h : op.Spares path)
    (files : Files Path Byte) : op.apply files path = files path := by
  cases op with
  | write path' contents => exact Function.update_of_ne (Ne.symm h) _ _
  | rename source target =>
    rw [apply, Function.update_of_ne (Ne.symm h.2), Function.update_of_ne (Ne.symm h.1)]

end FileOp

namespace Files

/-- The files after all of a save's operations. -/
def after (files : Files Path Byte) (ops : List (FileOp Path Byte)) : Files Path Byte :=
  ops.foldl (fun files op => op.apply files) files

theorem after_of_spares {ops : List (FileOp Path Byte)} {path : Path}
    (h : ∀ op ∈ ops, op.Spares path) (files : Files Path Byte) :
    files.after ops path = files path := by
  induction ops generalizing files with
  | nil => rfl
  | cons op ops ih =>
    calc (op.apply files).after ops path
        = op.apply files path := ih (fun op' hmem => h op' (List.mem_cons_of_mem _ hmem)) _
      _ = files path := FileOp.apply_of_spares (h op List.mem_cons_self) files

end Files

/-! ## Saves that stop -/

/-- Where a save stops: after `done` of its operations, with the next one not begun or, a write, left
with `part` of its contents. -/
structure Stop (Byte : Type) where
  done : ℕ
  part : Option (List Byte)

namespace Stop

/-- What can be left of an operation that is not completed. -/
def Leaves : FileOp Path Byte → Option (List Byte) → Prop
  | _, none => True
  | .write _ contents, some part => part <+: contents ∧ part ≠ contents
  | .rename _ _, some _ => False

/-- The stop is one of a save with these operations. -/
def Of (stop : Stop Byte) (ops : List (FileOp Path Byte)) : Prop :=
  ∃ op, ops[stop.done]? = some op ∧ Leaves op stop.part

/-- What an operation that is not completed has done to the files. -/
def begun : FileOp Path Byte → Option (List Byte) → Files Path Byte → Files Path Byte
  | .write path _, some part, files => Function.update files path (some part)
  | _, _, files => files

/-- The files a save that stops there leaves. -/
def left (stop : Stop Byte) (ops : List (FileOp Path Byte)) (files : Files Path Byte) :
    Files Path Byte :=
  let done := files.after (ops.take stop.done)
  ops[stop.done]?.elim done fun op => begun op stop.part done

variable {stop : Stop Byte} {ops : List (FileOp Path Byte)} {files : Files Path Byte}

@[simp] theorem begun_none {op : FileOp Path Byte} : begun op none files = files := by
  cases op <;> rfl

theorem begun_of_spares {op : FileOp Path Byte} {path : Path} (h : op.Spares path)
    (part : Option (List Byte)) : begun op part files path = files path := by
  cases part with
  | none => rw [begun_none]
  | some part =>
    cases op with
    | write path' contents => exact Function.update_of_ne (Ne.symm h) _ _
    | rename source target => rfl

/-- A save that ends in a rename to a file its other operations do not concern leaves that file as it
was, wherever it stops. -/
theorem left_of_rename {source target : Path} (h : ∀ op ∈ ops, op.Spares target)
    (hstop : stop.Of (ops ++ [.rename source target])) :
    stop.left (ops ++ [.rename source target]) files target = files target := by
  obtain ⟨op, hop, -⟩ := hstop
  have htake : ∀ op ∈ (ops ++ [FileOp.rename source target]).take stop.done, op.Spares target := by
    intro op hmem
    have hle : stop.done ≤ ops.length := by
      have hlt := (List.getElem?_eq_some_iff.mp hop).1
      rw [List.length_append, List.length_singleton] at hlt
      omega
    rw [List.take_append_of_le_length hle] at hmem
    exact h op (List.mem_of_mem_take hmem)
  have hafter := Files.after_of_spares htake files
  rw [left, hop]
  have hmem := List.mem_of_getElem? hop
  rw [List.mem_append, List.mem_singleton] at hmem
  rcases hmem with hmem | rfl
  · exact (begun_of_spares (h op hmem) _).trans hafter
  · exact hafter

/-- A save of one write: it stops before it touches the file, or leaves a proper prefix. -/
theorem left_write {path : Path} {contents : List Byte}
    (hstop : stop.Of [FileOp.write path contents]) :
    (stop.part = none ∧ stop.left [.write path contents] = id) ∨
      ∃ part, stop.part = some part ∧ part <+: contents ∧ part ≠ contents ∧
        stop.left [.write path contents] = fun files => Function.update files path (some part) := by
  obtain ⟨op, hop, hleaves⟩ := hstop
  obtain ⟨done, part⟩ := stop
  cases done with
  | succ done => exact absurd hop (by simp)
  | zero =>
    obtain rfl : FileOp.write path contents = op := Option.some.inj hop
    cases part with
    | none => exact .inl ⟨rfl, rfl⟩
    | some part => exact .inr ⟨part, rfl, hleaves.1, hleaves.2, rfl⟩

end Stop

end Blip
