/-
# Reading files

What a path leads to is asked of a function from paths, so that a file system can be
given as its files. A path is looked up one name after the other. What comes before a
name has to be a directory; `.` and the empty name stay in it, and `..` goes up.

| path | begins in |
| --- | --- |
| `/…` | the root directory, above which there is only itself |
| any other | the working directory, above which there are directories of unknown content |
-/

import SearchMarkup.Text.Basic

namespace SearchMarkup

/-- Why nothing could be read. -/
inductive ReadFault where
  | notFound
  | isDirectory
  | notDirectory
  | nameTooLong
  | notText
  | other (message : String)
  deriving DecidableEq, Repr

namespace ReadFault

def message : ReadFault → String
  | .notFound => "No such file or directory (os error 2)"
  | .isDirectory => "Is a directory (os error 21)"
  | .notDirectory => "Not a directory (os error 20)"
  | .nameTooLong => "File name too long (os error 36)"
  | .notText => "stream did not contain valid UTF-8"
  | .other message => message

end ReadFault

/-- What each path leads to. -/
abbrev Files := String → Except ReadFault ByteArray

/-- The text of bytes in UTF-8. -/
def decodeText (bytes : ByteArray) : Except ReadFault Text :=
  match String.fromUTF8? bytes with
  | none => .error .notText
  | some s => .ok s.toList

/-- A directory: the files below it, by the names on the way to them, and the names of
directories that may be empty. -/
structure Directory where
  files : List (List String × ByteArray)
  directories : List (List String)
  /-- Whether it is the directory above itself. -/
  isRoot : Bool

namespace Directory

/-- How many bytes a name has at most. -/
def nameSize : Nat := 255

/-- Whether some names lead to a directory. -/
def isDirectory (d : Directory) (names : List String) : Bool :=
  names.isEmpty || d.directories.contains names
    || d.files.any fun f => names.isPrefixOf f.1 && f.1 != names

/-- The file that some names lead to. -/
def file? (d : Directory) (names : List String) : Option ByteArray :=
  (d.files.find? fun f => f.1 == names).map Prod.snd

/-- Follows names through the unknown directories above, where no other name leads on. -/
def followAbove : List String → Except ReadFault ByteArray
  | [] => .error .isDirectory
  | name :: rest =>
    if name = "" ∨ name = "." ∨ name = ".." then followAbove rest
    else .error (if nameSize < name.utf8ByteSize then .nameTooLong else .notFound)

/-- Follows names from a place below the directory, given as the names on the way to it. -/
def follow (d : Directory) (here : List String) : List String → Except ReadFault ByteArray
  | [] =>
    if d.isDirectory here then .error .isDirectory
    else
      match d.file? here with
      | some bytes => .ok bytes
      | none => .error .notFound
  | name :: rest =>
    if !d.isDirectory here then
      .error (if (d.file? here).isSome then .notDirectory else .notFound)
    else if name = "" ∨ name = "." then d.follow here rest
    else if name = ".." then
      if here.isEmpty && !d.isRoot then followAbove rest else d.follow here.dropLast rest
    else if nameSize < name.utf8ByteSize then .error .nameTooLong
    else d.follow (here ++ [name]) rest

end Directory

/-- The files that paths lead to. -/
structure FileSystem where
  root : Directory
  working : Directory

namespace FileSystem

/-- How many bytes a path has at most. -/
def pathSize : Nat := 4095

/-- What a path leads to. -/
def read (s : FileSystem) : Files := fun path =>
  if pathSize < path.utf8ByteSize then .error .nameTooLong
  else (if path.startsWith "/" then s.root else s.working).follow [] (path.splitOn "/")

end FileSystem
end SearchMarkup
