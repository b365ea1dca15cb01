import Mathlib
import YasbLimitora.Lib.Schedule
import YasbLimitora.Lib.Text

/-!
# Deleting the state directory by handles

`delete_directory` of `_native_state_cleanup.py`: the directory is opened by a handle relative
to its parent, and everything in it relative to the handle of the directory that it is in. A
handle is checked when it is opened, and what shows a reparse point is refused; what is not
refused is marked for deletion by its handle.

Handles are numbered as they are opened. The native calls come to anything; the depth of
directories, and the calls that list one, are bounded by what there is before an exception
of another kind than `OSError` ends it all.

The program works with handles alone because names may change their meaning while it runs: a path
that was checked may lead elsewhere when it is used. An entry is opened by its name relative to the
handle of its directory, which nobody can exchange, without following a reparse point, and is looked
at before anything is done with it.
-/

namespace YasbLimitora

namespace StateCleanup

abbrev Handle := ℕ

/-- `_INFO`, as far as it is used. -/
structure Info where
  index : ℕ × ℕ
  attributes : ℕ
deriving DecidableEq

/-- `_ATTR_REPARSE`. -/
def Info.isReparse (info : Info) : Bool := info.attributes.testBit 10

/-- An entry of a listing. No name is one that cannot be decoded. -/
structure Entry where
  name : Option Text
  attributes : ℕ
deriving DecidableEq

namespace Entry

def isReparse (entry : Entry) : Bool := entry.attributes.testBit 10

def isDirectory (entry : Entry) : Bool := entry.attributes.testBit 4

end Entry

inductive Listing
  | noMore
  | failed
  | entries (l : List Entry)

/-- What `os.path` makes of a path: whether it is absolute, its directory, its last part, and
the normal form of its absolute one. -/
structure TargetPath where
  isAbs : Bool
  dirname : Text
  basename : Text
  normal : Text

/-! ### Native calls -/

inductive CleanupOp
  | openParent (path : Text)
  | openRelative (parent : Handle) (name : Text) (directory : Bool)
  | query (handle : Handle)
  | finalPath (handle : Handle)
  | queryDirectory (handle : Handle) (first : Bool)
  | delete (handle : Handle)
  | close (handle : Handle)

def CleanupOp.Resp : CleanupOp → Type
  | .openParent _ => Option Handle
  | .openRelative _ _ _ => Option Handle
  | .query _ => Option Info
  | .finalPath _ => Option Text
  | .queryDirectory _ _ => Listing
  | .delete _ => Bool
  | .close _ => Unit

inductive Raised
  | osError
  | other
deriving DecidableEq

abbrev Deleting (α : Type) := ExceptT Raised (Prog CleanupOp CleanupOp.Resp) α

def call (o : CleanupOp) : Deleting o.Resp := ExceptT.mk do return .ok (← Prog.perform o)

/-- A body, and in the `finally` of it a handle closed. -/
def closing {α : Type} (handle : Handle) (body : Deleting α) : Deleting α := ExceptT.mk do
  let result ← body.run
  let _ ← Prog.perform (CleanupOp.close handle)
  return result

/-! ### Handles -/

/-- `_checked`. A handle that is refused is closed. -/
def checked (handle : Handle) : Deleting Info := do
  let info : Option Info ← call (.query handle)
  match info with
  | none => do
    let _ ← call (.close handle)
    throw .osError
  | some info =>
    if info.isReparse then do
      let _ ← call (.close handle)
      throw .osError
    else return info

/-- `_final`. -/
def final (handle : Handle) : Deleting Text := do
  let path : Option Text ← call (.finalPath handle)
  match path with
  | none => throw .osError
  | some path => return path

/-- What was opened is checked. -/
def checkedOpen (handle : Option Handle) : Deleting Handle :=
  match handle with
  | none => throw .osError
  | some handle => do
    let _ ← checked handle
    return handle

/-- `_open_parent`. -/
def openParent (path : Text) : Deleting Handle := do
  let handle : Option Handle ← call (.openParent path)
  checkedOpen handle

/-- `_identity`. -/
def identity (handle : Handle) : Deleting Info := checked handle

/-- `_open_relative`. -/
def openRelative (parent : Handle) (name : Text) (directory : Bool) : Deleting Handle := do
  let handle : Option Handle ← call (.openRelative parent name directory)
  checkedOpen handle

/-- `_delete`. -/
def delete (handle : Handle) : Deleting Unit := do
  let deleted : Bool ← call (.delete handle)
  if deleted then return () else throw .osError

/-! ### The tree -/

/-- The names that a listing has besides the entries. -/
def isDots (name : Text) : Bool := name = Text.ofString "." ∨ name = Text.ofString ".."

/-- A name that would lead elsewhere. -/
def hasSeparator (name : Text) : Bool := .ch '\\' ∈ name ∨ .ch '/' ∈ name

/-- What is in a child, if it is a directory. -/
def descend (tree : Handle → Deleting Unit) (child : Handle) (directory : Bool) : Deleting Unit :=
  if directory then tree child else return ()

/-- The body of the loop of `_tree`. -/
def deleteChild (tree : Handle → Deleting Unit) (handle : Handle) (name : Text) (directory : Bool) :
    Deleting Unit := do
  let child ← openRelative handle name directory
  closing child do
    descend tree child directory
    delete child

/-- The loop of `_tree`, over the entries of one listing as `_names` yields them. -/
def deleteEntries (tree : Handle → Deleting Unit) (handle : Handle) : List Entry → Deleting Unit
  | [] => return ()
  | entry :: rest =>
    match entry.name with
    | none => throw .other
    | some name =>
      if isDots name then deleteEntries tree handle rest
      else if entry.isReparse || hasSeparator name then throw .osError
      else do
        deleteChild tree handle name entry.isDirectory
        deleteEntries tree handle rest

/-- The loop of `_tree`, over the listings that `_names` asks for. -/
def deleteListings (tree : Handle → Deleting Unit) (handle : Handle) : ℕ → Bool → Deleting Unit
  | 0, _ => throw .other
  | listings + 1, first => do
    let listing : Listing ← call (.queryDirectory handle first)
    match listing with
    | .noMore => return ()
    | .failed => throw .osError
    | .entries entries => do
      deleteEntries tree handle entries
      deleteListings tree handle listings false

/-- `_tree`. -/
def tree (listings : ℕ) : ℕ → Handle → Deleting Unit
  | 0, _ => throw .other
  | depth + 1, handle => deleteListings (tree listings depth) handle listings true

/-! ### The directory -/

/-- The root is what the path says. -/
def verifyRoot (path : TargetPath) (root : Handle) : Deleting Unit := do
  let final ← final root
  if final ≠ path.normal then throw .osError else return ()

/-- The root is still what the parent has under its name. -/
def compareProbe (path : TargetPath) (parent root : Handle) : Deleting Unit := do
  let probe ← openRelative parent path.basename true
  closing probe do
    let first ← identity probe
    let second ← identity root
    if first ≠ second then throw .osError else return ()

/-- What is done with the root. -/
def deleteRoot (listings depth : ℕ) (path : TargetPath) (parent root : Handle) : Deleting Bool := do
  verifyRoot path root
  compareProbe path parent root
  tree listings depth root
  delete root
  return true

/-- The body of the `try` of `delete_directory`, with the `finally`. -/
def deleteOpened (listings depth : ℕ) (path : TargetPath) : Deleting Bool := do
  let parent ← openParent path.dirname
  closing parent do
    let root ← openRelative parent path.basename true
    closing root (deleteRoot listings depth path parent root)

/-- `delete_directory`. -/
def deleteDirectory (listings depth : ℕ) (path : TargetPath) : Deleting Bool :=
  if !path.isAbs || path.basename = [] then return false
  else ExceptT.mk do
    match ← (deleteOpened listings depth path).run with
    | .error .osError => return .ok false
    | result => return result

end StateCleanup

end YasbLimitora
