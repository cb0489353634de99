import Mathlib.Data.List.Basic
import Mathlib.Tactic.Common

/-!
# Files open for writing

An open file is its contents cut at the file offset.  A write replaces what stands at the offset and moves the offset
behind it; what lies further on stays.
-/

/-- The contents of a file in front of the file offset and behind it. -/
structure OpenFile (α : Type) where
  before : List α
  after : List α

namespace OpenFile

variable {α : Type}

/-- `open` puts the offset at the beginning. -/
def ofContents (contents : List α) : OpenFile α := ⟨[], contents⟩

def contents (f : OpenFile α) : List α := f.before ++ f.after

def write (f : OpenFile α) (data : List α) : OpenFile α := ⟨f.before ++ data, f.after.drop data.length⟩

@[simp] theorem contents_ofContents (contents : List α) : (ofContents contents).contents = contents := by
  simp [ofContents, OpenFile.contents]

@[simp] theorem write_nil (f : OpenFile α) : f.write [] = f := by
  simp [write]

/-- Successive writes are one write. -/
theorem write_write (f : OpenFile α) (xs ys : List α) : (f.write xs).write ys = f.write (xs ++ ys) := by
  simp [write, List.drop_drop]

theorem contents_write_ofContents (old data : List α) :
    ((ofContents old).write data).contents = data ++ old.drop data.length := by
  simp [ofContents, write, contents]

end OpenFile
