import DocHarvest.Comment.Search
import DocHarvest.Syntax.Node

/-!
# Which comment belongs to which declaration

A declaration is documented by the comment group directly above it, or for a field by the one that
closes its line. Both are found from the comments and tokens of a file alone:

* `Index.lead` takes the comments between the token before a node and the node. Those that start on
  the row of that token still belong to it and are dropped. The rest falls into runs without a blank
  row between comments, and the last run leads the node if it ends on the row above it.
* `Index.trail` takes the comments between a node and the token after it. The run that starts on the
  node's last row trails the node, unless more than a semicolon follows on the row where it ends.
-/

namespace DocHarvest.Comment

open DocHarvest.Syntax

/-- The place of a token, and whether it is a semicolon. -/
structure Token where
  span : Span
  semicolon : Bool
deriving DecidableEq, Repr

/-- The comments and the tokens of a file, each in source order. -/
structure Index where
  comments : Array Span
  tokens : Array Token

namespace Index

/-- The comments and tokens of a syntax tree of a source text. -/
def ofSource (source : List Char) (root : Node) : Index where
  comments := ((root.leaves.filter (·.kind = .comment)).map (·.span)).toArray
  tokens :=
    ((root.leaves.filter (·.isWritten source)).map fun n =>
      ⟨n.span, n.span.text source = [';']⟩).toArray

/-- The same for a tree that tells by the kinds of its leaves what their texts are, as the tree of a
parsed file does. -/
def ofTree (root : Node) : Index where
  comments := ((root.leaves.filter (·.kind = .comment)).map (·.span)).toArray
  tokens :=
    ((root.leaves.filter (·.kind.isToken)).map fun n => ⟨n.span, n.kind = .semicolon⟩).toArray

end Index

/-! ## Runs of comments -/

/-- The comments at the front that start no later than the row where the one before ended; `row` is
where the run stands. -/
def lineRunFrom (row : Nat) : List Span → List Span
  | [] => []
  | c :: cs => if c.startRow ≤ row then c :: lineRunFrom c.endRow cs else []

/-- The first comment together with those that follow it without leaving its line. -/
def lineRun : List Span → List Span
  | [] => []
  | c :: cs => lineRunFrom c.startRow (c :: cs)

/-- The maximal runs of comments without a blank row between two of them. -/
def blockRuns : List Span → List (List Span)
  | [] => []
  | c :: cs =>
    match blockRuns cs with
    | (d :: run) :: runs =>
      if d.startRow ≤ c.endRow + 1 then (c :: d :: run) :: runs else [c] :: (d :: run) :: runs
    | runs => [c] :: runs

/-! ## Attribution -/

namespace Index

/-- The last token that ends at or before an offset. -/
def tokenBefore? (index : Index) (offset : Nat) : Option Token :=
  match partitionPoint (·.span.stop ≤ offset) index.tokens with
  | 0 => none
  | n + 1 => index.tokens[n]?

/-- The first token that starts at or after an offset. -/
def tokenAfter? (index : Index) (offset : Nat) : Option Token :=
  index.tokens[partitionPoint (·.span.start < offset) index.tokens]?

/-- The comments between two offsets. -/
def commentsWithin (index : Index) (start stop : Nat) : List Span :=
  let first := partitionPoint (·.start < start) index.comments
  let last := partitionPoint (·.stop ≤ stop) index.comments
  (index.comments.extract first last).toList

/-- The comments above a node that do not close the line of the token before it. -/
def commentsAbove (index : Index) (node : Span) : List Span :=
  match index.tokenBefore? node.start with
  | none => index.commentsWithin 0 node.start
  | some t =>
    let between := index.commentsWithin t.span.stop node.start
    if between.head?.any (·.startRow = t.span.endRow) then between.drop (lineRun between).length
    else between

/-- The comment group that stands directly above a node. -/
def lead (index : Index) (node : Span) : Option (List Span) :=
  match (blockRuns (index.commentsAbove node)).getLast? with
  | none => none
  | some run => if run.getLast?.any (·.endRow + 1 = node.startRow) then some run else none

/-- The comments between a node and the next token. -/
def commentsBelow (index : Index) (node : Span) : List Span :=
  let first := partitionPoint (·.start < node.stop) index.comments
  (index.comments.toList.drop first).takeWhile fun c =>
    (index.tokenAfter? node.stop).all (c.stop ≤ ·.span.start)

/-- The comment group that closes the last line of a node. -/
def trail (index : Index) (node : Span) : Option (List Span) :=
  let after := index.commentsBelow node
  if after.head?.any (·.startRow = node.endRow) then
    let run := lineRun after
    let followed := (index.tokenAfter? node.stop).any fun t =>
      run.getLast?.any (·.endRow = t.span.startRow) && !t.semicolon
    if followed then none else some run
  else none

end Index

end DocHarvest.Comment
