/-
Files.

`FileOps` is what a program can do with files; it may be carried out in any
monad.  A `FileTree` is a directory with what is in it, as a value, and
`FileTree.ops` works on one.
-/
import LintFindings.Error

namespace LintFindings

/-- Reading and writing files by their paths. -/
structure FileOps (m : Type → Type) where
  read : Text → m (Except FileFailure (List UInt8))
  write : Text → List UInt8 → m (Except FileFailure Unit)

/-- What a path leads to. -/
inductive Node where
  | file (bytes : List UInt8)
  | directory
  deriving DecidableEq, Repr

/-- Files and directories, by the parts of the paths that lead to them from the current
directory. -/
structure FileTree where
  nodes : List (List Text × Node)
  deriving DecidableEq, Repr

namespace FileTree

/-- The part that leads to the directory above. -/
def up : Text := ['.', '.']

/-- The parts of a path between its slashes. -/
def parts (path : Text) : List Text := Text.pieces (· == '/') path

/-- Whether there is a directory: the current one, one above it, one that is listed, or one with
something in it. -/
def isDirectory (tree : FileTree) (path : List Text) : Bool :=
  path.all (· == up) || tree.nodes.lookup path == some .directory ||
    tree.nodes.any fun (p, _) => path.isPrefixOf p && p ≠ path

/-- Follows the parts of a path from a directory.  All but the last have to lead to directories;
empty parts and dots stay where they are. -/
def walk (tree : FileTree) : (here : List Text) → List Text → Except FileFailure (List Text)
  | here, [] => .ok here
  | here, part :: rest =>
    if part = [] ∨ part = ['.'] then walk tree here rest
    else if part = up then
      walk tree (if here.all (· == up) then here ++ [up] else here.dropLast) rest
    else
      let next := here ++ [part]
      if rest = [] then .ok next
      else if tree.isDirectory next then walk tree next rest
      else if (tree.nodes.lookup next).isSome then .error .notDirectory
      else .error .notFound

/-- Where a path leads.  One that is empty or starts at the root leads nowhere. -/
def locate (tree : FileTree) (path : Text) : Except FileFailure (List Text) :=
  match path with
  | [] | '/' :: _ => .error .notFound
  | path => tree.walk [] (parts path)

/-- The bytes of a file. -/
def read (tree : FileTree) (path : Text) : Except FileFailure (List UInt8) := do
  let p ← tree.locate path
  match tree.nodes.lookup p with
  | some (.file bytes) => .ok bytes
  | some .directory => .error .isDirectory
  | none => .error (if tree.isDirectory p then .isDirectory else .notFound)

/-- The tree in which a file has other bytes; it is made if its directory is there.  A path with
a slash at its end names no file. -/
def write (tree : FileTree) (path : Text) (bytes : List UInt8) : Except FileFailure FileTree := do
  let p ← tree.locate (path.reverse.dropWhile (· == '/')).reverse
  if path.getLast? = some '/' ∨ tree.isDirectory p then .error .isDirectory
  else .ok ⟨(p, .file bytes) :: tree.nodes.filter fun (q, _) => q ≠ p⟩

/-- Reads and writes the files of a tree. -/
def ops : FileOps (StateM FileTree) where
  read path := fun tree => (tree.read path, tree)
  write path bytes := fun tree =>
    match tree.write path bytes with
    | .ok tree => (.ok (), tree)
    | .error e => (.error e, tree)

end FileTree

end LintFindings
