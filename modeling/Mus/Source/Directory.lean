import Mus.Source.Utf8
import Mus.Text.Quoted

/-! Finding a source file. -/
namespace Mus.Source

inductive FileFault where
  | notFound
  | isDirectory
  | notDirectory
  | nameTooLong
  | nulCharacter
  | other (text : String)
  | undecodable (fault : DecodeFault)
  deriving DecidableEq, Repr

def FileFault.message (path : String) : FileFault → String
  | .notFound => "[Errno 2] No such file or directory: " ++ Text.quoted path
  | .isDirectory => "[Errno 21] Is a directory: " ++ Text.quoted path
  | .notDirectory => "[Errno 20] Not a directory: " ++ Text.quoted path
  | .nameTooLong => "[Errno 36] File name too long: " ++ Text.quoted path
  | .nulCharacter => "embedded null byte"
  | .other text => text
  | .undecodable fault => fault.message

/-- What stands under a path: the bytes of a file, or a directory. -/
inductive Entry where
  | file (bytes : List Nat)
  | directory
  deriving DecidableEq, Repr

/-- The entries of a directory by path. -/
abbrev Directory := List (String × Entry)

/-- The names on a path; empty names and those of the directory itself are
skipped. -/
def pathNames (path : String) : List String :=
  (path.splitOn "/").filter fun name => name != "" && name != "."

/-- Does a path say that it leads to a directory? -/
def endsInSlash (path : String) : Bool :=
  path.toList.getLast? == some '/'

namespace Directory

/-- The entry of exactly these names. A directory also is what other entries lie
below. -/
def entry? (directory : Directory) (names : List String) : Option Entry :=
  if names = [] then some .directory
  else
    match directory.find? fun entry => pathNames entry.1 == names with
    | some (_, entry) => some entry
    | none =>
        if directory.any fun entry => names.isPrefixOf (pathNames entry.1) then some .directory
        else none

/-- Follows the names of a path from a directory on. -/
def walk (directory : Directory) (done : List String) : List String → Except FileFault Entry
  | [] =>
      match directory.entry? done with
      | some entry => .ok entry
      | none => .error .notFound
  | name :: rest =>
      match directory.entry? done with
      | none => .error .notFound
      | some (.file _) => .error .notDirectory
      | some .directory =>
          if 255 < name.utf8ByteSize then .error .nameTooLong
          else if name = ".." then directory.walk done.dropLast rest
          else directory.walk (done ++ [name]) rest

def read (directory : Directory) (path : String) : Except FileFault (List Nat) :=
  if path.toList.contains '\x00' then .error .nulCharacter
  else if path = "" then .error .notFound
  else if 4096 ≤ path.utf8ByteSize then .error .nameTooLong
  else if path.toList.head? = some '/' then
    if pathNames path = [] then .error .isDirectory else .error .notFound
  else
    match directory.walk [] (pathNames path) with
    | .error fault => .error fault
    | .ok .directory => .error .isDirectory
    | .ok (.file bytes) => if endsInSlash path then .error .notDirectory else .ok bytes

end Directory

def textOfBytes (bytes : List Nat) : Except FileFault String :=
  match decode bytes with
  | .ok cs => .ok (String.ofList (unifyLineEnds cs))
  | .error fault => .error (.undecodable fault)

end Mus.Source
