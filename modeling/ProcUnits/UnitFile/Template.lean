/-!
Texts of unit files and scripts, made of lines in blocks: what the rendering of section 4.6 of the
specification puts out.

A block without lines leaves no trace and all others are separated by one empty line, so that a
directive that is not there leaves no hole.

* `Template.Item`, `Template`: what a text is put together from;
* `Template.blocks`: the lines in their blocks; `flatten_blocks` says that they are all lines of
  the template in their order;
* `Template.render`: the text.
-/

namespace ProcUnits.UnitFile

/-- One step of putting a text together. -/
inductive Template.Item where
  /-- A new block begins. -/
  | block
  | line (text : String)
  /-- The line `key=value`. -/
  | directive (key value : String)
  /-- The line `key=value`, if there is a value. -/
  | optional (key : String) (value : Option String)
  deriving DecidableEq, Repr

/-- A text as it is put together. -/
abbrev Template := List Template.Item

namespace Template

/-- The line `key=value`. -/
def directiveLine (key value : String) : String := key ++ "=" ++ value

/-- The line that an item adds, if it adds one. -/
def Item.line? : Item → Option String
  | .block => none
  | .line s => some s
  | .directive k v => some (directiveLine k v)
  | .optional k v => v.map (directiveLine k)

/-- Puts a line in front of the first block. -/
def addLine (s : String) : List (List String) → List (List String)
  | [] => [[s]]
  | b :: bs => (s :: b) :: bs

/-- The lines in their blocks, of which there is always one. -/
def allBlocks : Template → List (List String)
  | [] => [[]]
  | .block :: t => [] :: allBlocks t
  | i :: t =>
    match i.line? with
    | some s => addLine s (allBlocks t)
    | none => allBlocks t

/-- The blocks that have lines. -/
def blocks (t : Template) : List (List String) := t.allBlocks.filter fun b => !b.isEmpty

/-- All lines in order. -/
def lines (t : Template) : List String := t.filterMap Item.line?

/-- The text of blocks. -/
def renderBlocks (bs : List (List String)) : String :=
  "\n\n".intercalate (bs.map fun b => "\n".intercalate b) ++ "\n"

/-- The text of a template. -/
def render (t : Template) : String := renderBlocks t.blocks

/-- A line put in front of the first block is the first line. -/
theorem flatten_addLine (s : String) (bs : List (List String)) :
    (addLine s bs).flatten = s :: bs.flatten := by cases bs <;> rfl

/-- No line is lost in the blocks, and none is added. -/
theorem flatten_allBlocks (t : Template) : t.allBlocks.flatten = t.lines := by
  induction t with
  | nil => rfl
  | cons i t ih =>
    cases i with
    | block => exact ih
    | line s => exact (flatten_addLine ..).trans (congrArg _ ih)
    | directive k v => exact (flatten_addLine ..).trans (congrArg _ ih)
    | optional k v =>
      cases v with
      | none => exact ih
      | some v => exact (flatten_addLine ..).trans (congrArg _ ih)

/-- The blocks that have lines hold all lines. -/
theorem flatten_blocks (t : Template) : t.blocks.flatten = t.lines := by
  rw [← flatten_allBlocks]
  unfold blocks
  induction t.allBlocks with
  | nil => rfl
  | cons b bs ih => cases b <;> simp [ih]

end Template

end ProcUnits.UnitFile
