import Bilisp.Text.Quoted

/-!
# Files

A path is a root, if any, and the names on the way; repeated slashes and single points do not count. A disk
holds the files that a run may find, at places from which every step up is taken out that can be. A place is a
directory if it is known as one, if it lies on the way to a file, or if it is reached by steps up alone.
-/

namespace Bilisp

/-- A path of files and directories. -/
structure FilePath where
  root : Text
  names : List Text
deriving Repr, DecidableEq

namespace FilePath

/-- The path that a text writes. Exactly two slashes in front are a root of their own. -/
def ofText (t : Text) : FilePath :=
  let slashes := (t.takeWhile (· == '/')).length
  { root := if slashes = 0 then [] else if slashes = 2 then "//" else "/"
    names := (t.splitOn '/').filter fun name => !name.isEmpty && name != ['.'] }

/-- The written form of a path. -/
def text (p : FilePath) : Text :=
  if p.root.isEmpty && p.names.isEmpty then "." else p.root ++ Text.join "/" p.names

/-- The directory that holds the file of a path. -/
def parent (p : FilePath) : FilePath := { p with names := p.names.dropLast }

/-- The path of a name in a directory. -/
def child (p : FilePath) (name : Text) : FilePath := { p with names := p.names ++ [name] }

/-- The place that one more name leads to. -/
def enter (place : FilePath) (name : Text) : FilePath :=
  if name = "..".toList then
    match place.names.getLast? with
    | none => if place.root.isEmpty then place.child name else place
    | some last => if last = "..".toList then place.child name else place.parent
  else place.child name

/-- The places that a path leads through, the last one included. -/
def places (p : FilePath) : List FilePath :=
  ((p.names.foldl (fun passed name => passed ++ [(passed.getLast?.getD ⟨p.root, []⟩).enter name]) []))

end FilePath

/-- Why a file cannot be opened. -/
inductive FileFault where
  | missing
  | isDirectory
  | notDirectory
  | nameTooLong
  | nulInside
deriving Repr, DecidableEq

/-- The sentence that tells why the file of a path cannot be opened. -/
def FileFault.message (path : FilePath) : FileFault → Text
  | .missing => "[Errno 2] No such file or directory: " ++ path.text.quoted
  | .isDirectory => "[Errno 21] Is a directory: " ++ path.text.quoted
  | .notDirectory => "[Errno 20] Not a directory: " ++ path.text.quoted
  | .nameTooLong => "[Errno 36] File name too long: " ++ path.text.quoted
  | .nulInside => "embedded null byte"

/-- The files and further directories that are known, by their places. -/
structure Disk where
  files : List (FilePath × ByteArray)
  directories : List FilePath

namespace Disk

/-- Nothing is known. -/
def empty : Disk := ⟨[], []⟩

/-- Adds a directory with those on the way to it. -/
def addDirectory (disk : Disk) (path : FilePath) : Disk :=
  { disk with directories := path.places ++ disk.directories }

/-- Adds a file with the directories on the way to it. -/
def addFile (disk : Disk) (path : FilePath) (content : ByteArray) : Disk :=
  let place := path.places.getLast?.getD path
  { files := (place, content) :: disk.files
    directories := path.places.dropLast ++ disk.directories }

/-- The content of the file at a place. -/
def content? (disk : Disk) (place : FilePath) : Option ByteArray :=
  (disk.files.find? fun file => file.1 = place).map Prod.snd

/-- Whether a place is a directory. Steps up alone always lead to one. -/
def isDirectory (disk : Disk) (place : FilePath) : Bool :=
  place.names.all (· == "..".toList) || disk.directories.contains place

/-- The place that names lead to from a directory. Only the last name may be new, and none may take more than
255 bytes. -/
def follow (disk : Disk) (here : FilePath) : List Text → Except FileFault FilePath
  | [] => .ok here
  | name :: rest =>
    let place := here.enter name
    if 255 < name.byteCount then .error .nameTooLong
    else if rest.isEmpty || disk.isDirectory place then follow disk place rest
    else .error (if (disk.content? place).isSome then .notDirectory else .missing)

/-- The place of a path, which holds no null character and takes fewer than 4096 bytes. -/
def locate (disk : Disk) (path : FilePath) : Except FileFault FilePath :=
  if path.text.contains '\x00' then .error .nulInside
  else if 4095 < path.text.byteCount then .error .nameTooLong
  else disk.follow ⟨path.root, []⟩ path.names

/-- The content of the file of a path. -/
def read (disk : Disk) (path : FilePath) : Except FileFault ByteArray := do
  let place ← disk.locate path
  match disk.content? place with
  | some content => return content
  | none => throw (if disk.isDirectory place then .isDirectory else .missing)

/-- The place at which the file of a path can be written. -/
def writable (disk : Disk) (path : FilePath) : Except FileFault FilePath := do
  let place ← disk.locate path
  if disk.isDirectory place then throw .isDirectory
  return place

end Disk

end Bilisp
