import BatchFlow.Engine.Error
import BatchFlow.OrderedMap

/-!
# The file store

A file is a path holding rows.  Datasets and stage outputs are directories of
part files; a path lies under a directory when it begins with the directory and
a slash.
-/

namespace BatchFlow

/-- Files by path. -/
structure FileStore where
  files : OrderedMap String (List Row)
deriving Inhabited

namespace FileStore

/-- The store without files. -/
def empty : FileStore :=
  ⟨∅⟩

/-- A number in at least five digits. -/
def fiveDigits (index : Nat) : String :=
  let digits := Nat.toDigits 10 index
  String.ofList (List.replicate (5 - digits.length) '0' ++ digits)

/-- The path of a part file of a directory. -/
def partPath (directory : String) (index : Nat) : String :=
  directory ++ "/part-" ++ fiveDigits index

/-- Whether a path begins with another text. -/
def beginsWith (path beginning : String) : Bool :=
  beginning.toList.isPrefixOf path.toList

/-- The number of files. -/
def size (store : FileStore) : Nat :=
  store.files.size

/-- Write a file; a previous one is replaced. -/
def write (store : FileStore) (path : String) (rows : List Row) : FileStore :=
  ⟨store.files.insert path rows⟩

/-- Write a list of part files into a directory.  Their paths differ, so any order
will do; from the last part on, a new path stands before most of those written. -/
def putParts (store : FileStore) (directory : String) (parts : List (List Row)) :
    FileStore :=
  parts.zipIdx.foldr (fun (rows, index) store => store.write (partPath directory index) rows)
    store

/-- Read a file. -/
def read (store : FileStore) (path : String) : Except RunError (List Row) :=
  match store.files.get? path with
  | some rows => .ok rows
  | none => .error (.pathNotFound path)

/-- The files that make up a directory, in the order of their paths: the path
itself if it is a file, else the run of files under it. -/
def filesOf (store : FileStore) (directory : String) : List (String × List Row) :=
  match store.files.get? directory with
  | some rows => [(directory, rows)]
  | none =>
      let beginning := directory ++ "/"
      (store.files.entries.dropWhile fun file => compare file.1 beginning == .lt).takeWhile
        fun file => beginsWith file.1 beginning

/-- The paths of the files that make up a directory. -/
def list (store : FileStore) (directory : String) : List String :=
  (store.filesOf directory).map Prod.fst

/-- The rows of some files, one file after another. -/
def readFiles (store : FileStore) (paths : List String) : Except RunError (List Row) :=
  (paths.mapM store.read).map List.flatten

/-- The rows of a directory in the order of its files. -/
def readDirectory (store : FileStore) (directory : String) : Except RunError (List Row) :=
  .ok ((store.filesOf directory).flatMap Prod.snd)

/-- Remove a path and everything under it. -/
def clear (store : FileStore) (directory : String) : FileStore :=
  ⟨store.files.filter fun path _ =>
    path != directory && !beginsWith path (directory ++ "/")⟩

/-- The number of files of a directory, if it has any. -/
def fileCount? (store : FileStore) (directory : String) : Option UInt32 :=
  match store.list directory with
  | [] => none
  | paths => some (UInt32.ofNat paths.length)

end FileStore

end BatchFlow
