import StackMutants.Files.Basic

/-!
# Files.Directory — a flat directory held in memory

The directory holds files and no directories.  Paths are taken relative to it; the directories above it
are flat as well, and their files are kept under a name that says how far up they are.  Failures are told
in the words of the operating system.
-/

namespace StackMutants

/-- Files by name, each name once. -/
structure Directory where
  files : List (String × ByteArray)

namespace Directory

def missing : String := "No such file or directory (os error 2)"

def notADirectory : String := "Not a directory (os error 20)"

def isADirectory : String := "Is a directory (os error 21)"

def nameTooLong : String := "File name too long (os error 36)"

def zeroInName : String := "file name contained an unexpected NUL byte"

def file? (d : Directory) (name : String) : Option ByteArray := d.files.lookup name

def put (d : Directory) (name : String) (content : ByteArray) : Directory :=
  if (d.file? name).isSome then
    ⟨d.files.map fun f => if f.1 == name then (name, content) else f⟩
  else ⟨d.files ++ [(name, content)]⟩

/-- Where a path leads to. -/
inductive Target where
  /-- A name for a file in the directory that names with `base` in front of them are in.  With `closed`, a
  slash follows it, so that only a directory will do. -/
  | name (base name : String) (closed : Bool)
  | directory
  /-- The device that is always empty. -/
  | nothing
  | fault (reason : String)

/-- Whether the name has more bytes than a name may have. -/
def isTooLong (name : String) : Bool := 255 < name.utf8ByteSize

/-- Follows the parts of a path from the directory that names with `base` in front of them are in. -/
def walk (d : Directory) (base : String) : List String → Target
  | [] => .directory
  | part :: parts =>
    if part = "" || part = "." then walk d base parts
    else if part = ".." then walk d (if base = "/" then base else "../" ++ base) parts
    else if parts.all (· == "") then .name base part (!parts.isEmpty)
    else if isTooLong part then .fault nameTooLong
    else if (d.file? (base ++ part)).isSome then .fault notADirectory
    else .fault missing

/-- Where a path leads to, which may not be longer than 4095 bytes. -/
def target (d : Directory) (path : String) : Target :=
  if path.toList.contains '\x00' then .fault zeroInName
  else if path = "" then .fault missing
  else if 4096 ≤ path.utf8ByteSize then .fault nameTooLong
  else if path = "/dev/null" then .nothing
  else walk d (if path.startsWith "/" then "/" else "") (path.splitOn "/")

def read (d : Directory) (path : String) : Except String ByteArray :=
  match d.target path with
  | .directory => .error isADirectory
  | .nothing => .ok .empty
  | .fault reason => .error reason
  | .name base name closed =>
    if isTooLong name then .error nameTooLong
    else
      match d.file? (base ++ name) with
      | none => .error missing
      | some content => if closed then .error notADirectory else .ok content

/-- Replaces a file or creates one; a path that ends in a slash is taken for a directory unseen. -/
def write (d : Directory) (path : String) (text : String) : Except String Directory :=
  match d.target path with
  | .directory => .error isADirectory
  | .nothing => .ok d
  | .fault reason => .error reason
  | .name base name closed =>
    if closed then .error isADirectory
    else if isTooLong name then .error nameTooLong
    else .ok (d.put (base ++ name) text.toUTF8)

/-- The directory as a file system. -/
def system : Files (StateM Directory) where
  read path := do pure ((← get).read path)
  write path text := do
    match (← get).write path text with
    | .error reason => pure (.error reason)
    | .ok d => do
      set d
      pure (.ok ())

end Directory

end StackMutants
