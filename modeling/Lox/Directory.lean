/-
# The files that a command can read

A directory is given by its files, each with its path from the directory and
its bytes.  Paths that share a first part share a subdirectory.  A path is
looked up part by part; empty parts and single points stay where they are and
double points go back, but only out of a directory that is there.  Of what lies
around the directory nothing is known but that it is made of directories.

What is found is the bytes of a file or the reason why there are none.  A file
can also be started afresh in the directory, unless a subdirectory has its
name.
-/

namespace Lox

/-- What came of reading a file. -/
inductive FileContent where
  | bytes (content : List UInt8)
  /-- The file could not be opened. -/
  | notOpened (reason : String)
  /-- What was opened could not be read. -/
  | notRead (reason : String)

/-- The files of a directory: the parts of the path and the content of
each. -/
abbrev Directory := List (List String × List UInt8)

namespace Directory

/-- The parts of a path. -/
def parts (path : String) : List String :=
  path.toList.splitOn '/' |>.map String.ofList

/-- The content of the file at a path of plain parts. -/
def file? (directory : Directory) (path : List String) : Option (List UInt8) :=
  (directory.find? (·.1 = path)).map Prod.snd

/-- Whether a path of plain parts is a directory. -/
def isDirectory (directory : Directory) (path : List String) : Bool :=
  path.isEmpty || directory.any fun entry => path.isPrefixOf entry.1 && entry.1 ≠ path

/-- The reason why nothing is found at a path. -/
def noSuchFile : FileContent := .notOpened "No such file or directory (os error 2)"

/-- The reason why a file has nothing below it. -/
def noDirectory : FileContent := .notOpened "Not a directory (os error 20)"

/-- The reason why a directory can be neither read nor written like a file. -/
def directoryReason : String := "Is a directory (os error 21)"

/-- What comes of reading a directory. -/
def isADirectory : FileContent := .notRead directoryReason

/-- The reason why nothing has the name. -/
def nameTooLong : FileContent := .notOpened "File name too long (os error 36)"

/-- The number of bytes that a part of a path may have. -/
def longestPart : Nat := 255

/-- The number of bytes that a path may have. -/
def longestPath : Nat := 4095

/-- Whether a part of a path stays in the directory or goes back. -/
def staysOrGoesBack (part : String) : Bool :=
  part = "" || part = "." || part = ".."

/-- Follows the parts of a path from a place around the directory on. -/
def followAround (parts : List String) : FileContent :=
  match parts.find? (fun part => !staysOrGoesBack part) with
  | none => isADirectory
  | some part => if longestPart < part.utf8ByteSize then nameTooLong else noSuchFile

/-- Follows the parts of a path from a place on. -/
def follow (directory : Directory) (place : List String) : List String → FileContent
  | [] =>
    match directory.file? place with
    | some content => .bytes content
    | none => if directory.isDirectory place then isADirectory else noSuchFile
  | part :: rest =>
    if directory.isDirectory place then
      if part = "" || part = "." then follow directory place rest
      else if part = ".." then
        if place.isEmpty then followAround rest else follow directory place.dropLast rest
      else if longestPart < part.utf8ByteSize then nameTooLong
      else follow directory (place ++ [part]) rest
    else if (directory.file? place).isSome then noDirectory
    else noSuchFile

/-- Reads the file at a path. -/
def read (directory : Directory) (path : String) : FileContent :=
  if path.isEmpty then noSuchFile
  else if longestPath < path.utf8ByteSize then nameTooLong
  else if path.startsWith "/" then followAround (parts path)
  else follow directory [] (parts path)

/-- Starts a file of the directory afresh: it is there and empty.  The error is
the reason why it cannot be. -/
def startFile (directory : Directory) (name : String) : Except String Directory :=
  if directory.isDirectory [name] then .error directoryReason
  else .ok (([name], []) :: directory.filter fun entry => entry.1 ≠ [name])

end Directory

end Lox
