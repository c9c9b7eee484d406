/-!
# Interlaced pictures

The pixels of an interlaced picture come in seven passes, each a coarser picture of its own. The
first pass is the coarsest, and by turns a pass gives the columns and the rows between those that
are already there.
-/

namespace MaterialViewer.Interlace

/-- Where the pixels of a pass stand. -/
structure Pass where
  /-- The column of the first pixel. -/
  left : Nat
  /-- The row of the first pixel. -/
  top : Nat
  /-- The number of columns from one pixel to the next. -/
  across : Nat
  /-- The number of rows from one pixel to the next. -/
  down : Nat

/-- All passes. -/
def passes : List Pass :=
  [⟨0, 0, 8, 8⟩, ⟨4, 0, 8, 8⟩, ⟨0, 4, 4, 8⟩, ⟨2, 0, 4, 4⟩, ⟨0, 2, 2, 4⟩, ⟨1, 0, 2, 2⟩, ⟨0, 1, 1, 2⟩]

/-- The number of steps of a size from `start` that stay below `limit`. -/
def stepsBelow (limit start size : Nat) : Nat := (limit - start + (size - 1)) / size

/-- The width and the height of a pass of a picture. A pass without columns has no rows. -/
def Pass.size (p : Pass) (width height : Nat) : Nat × Nat :=
  let columns := stepsBelow width p.left p.across
  (columns, if columns = 0 then 0 else stepsBelow height p.top p.down)

/-- The elements of two lists by turns; what is left of the longer one comes at the end. -/
def interleave {α : Type} : List α → List α → List α
  | [], bs => bs
  | a :: as, bs => a :: interleave bs as
termination_by as bs => as.length + bs.length

/-- The rows of a picture with the columns between its columns. -/
def interleaveColumns {α : Type} (rows between : List (List α)) : List (List α) :=
  if between.isEmpty then rows else List.zipWith interleave rows between

/-- The rows of a picture, finer by the passes that follow, of which columns come first. -/
def refine {α : Type} (rows : List (List α)) : List (List (List α)) → List (List α)
  | columns :: below :: rest => refine (interleave (interleaveColumns rows columns) below) rest
  | _ => rows

/-- The rows of a picture out of its passes. -/
def merge {α : Type} : List (List (List α)) → List (List α)
  | [] => []
  | coarsest :: rest => refine coarsest rest

theorem length_interleave {α : Type} (as bs : List α) :
    (interleave as bs).length = as.length + bs.length := by
  fun_induction interleave as bs with
  | case1 bs => simp
  | case2 bs a as ih => simp [ih]; omega

end MaterialViewer.Interlace
