import ChipEight.Text.Quoted

/-!
The files that a session can read, as a value: files and folders below the
working folder. A path is a root, if it has one, and its components; empty
components and single dots say nothing and are dropped, double dots stay. It is
followed component by component, and each component before the last has to be a
folder. Above the working folder nothing is known but the folders themselves.
-/

namespace ChipEight

structure Path where
  root : String
  parts : List String
  deriving DecidableEq

namespace Path

/-- The root of a path text: exactly two slashes are a root of their own, any
other number of slashes is one. -/
def rootOf (text : String) : String :=
  match (text.toList.takeWhile (· = '/')).length with
  | 0 => ""
  | 2 => "//"
  | _ => "/"

def ofText (text : String) : Path where
  root := rootOf text
  parts := (text.splitOn "/").filter fun part => part ≠ "" ∧ part ≠ "."

def text (p : Path) : String :=
  if p.root = "" ∧ p.parts = [] then "." else p.root ++ "/".intercalate p.parts

def name (p : Path) : String := p.parts.getLast?.getD ""

end Path

inductive FileError where
  | notFound
  | notFolder
  | isFolder
  | nameTooLong
  | nullCharacter
  deriving DecidableEq

namespace FileError

def numbered (code : Nat) (text path : String) : String :=
  "[Errno " ++ Text.decimal code ++ "] " ++ text ++ ": " ++ Text.quoted path

def message (e : FileError) (path : String) : String :=
  match e with
  | notFound => numbered 2 "No such file or directory" path
  | notFolder => numbered 20 "Not a directory" path
  | isFolder => numbered 21 "Is a directory" path
  | nameTooLong => numbered 36 "File name too long" path
  | nullCharacter => "embedded null byte"

end FileError

/-- Files with their contents, and folders, by their components. -/
structure FileTree where
  files : List (List String × List UInt8)
  folders : List (List String)
  deriving DecidableEq

inductive FileEntry where
  | file (data : List UInt8)
  | folder
  | nothing
  deriving DecidableEq

/-- A folder on the way: one of the tree, or one outside of it. -/
inductive Place where
  | inside (parts : List String)
  | outside
  deriving DecidableEq

namespace FileTree

def nameLimit : Nat := 255

def pathLimit : Nat := 4095

/-- Is there a folder with these components? The folders above an entry are
there with it. -/
def hasFolder (t : FileTree) (parts : List String) : Bool :=
  parts.isEmpty || t.folders.any (parts.isPrefixOf ·) ||
    t.files.any fun (path, _) => parts.isPrefixOf path && parts ≠ path

def entry (t : FileTree) (parts : List String) : FileEntry :=
  match t.files.lookup parts with
  | some data => .file data
  | none => if t.hasFolder parts then .folder else .nothing

def parent : Place → Place
  | .inside [] => .outside
  | .inside parts => .inside parts.dropLast
  | .outside => .outside

def follow (t : FileTree) (here : Place) : List String → Except FileError (List UInt8)
  | [] => .error .isFolder
  | part :: rest =>
    if part = ".." then t.follow (parent here) rest
    else if nameLimit < part.utf8ByteSize then .error .nameTooLong
    else
      match here with
      | .outside => .error .notFound
      | .inside parts =>
        match t.entry (parts ++ [part]) with
        | .nothing => .error .notFound
        | .folder => t.follow (.inside (parts ++ [part])) rest
        | .file data => if rest.isEmpty then .ok data else .error .notFolder

def read (t : FileTree) (path : Path) : Except FileError (List UInt8) :=
  if path.text.toList.contains (Char.ofNat 0) then .error .nullCharacter
  else if pathLimit < path.text.utf8ByteSize then .error .nameTooLong
  else t.follow (if path.root = "" then .inside [] else .outside) path.parts

end FileTree

end ChipEight
