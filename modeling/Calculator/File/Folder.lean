import Calculator.File.World

/-!
# Files held in memory

A folder of named texts. Slashes in a name stand for folders inside.
-/

namespace Calculator

structure Folder where
  files : List (List String × String)

namespace Folder

def ofFiles (files : List (String × String)) : Folder :=
  ⟨files.map fun (name, content) => ((Path.ofText name).parts, content)⟩

def content? (folder : Folder) (place : List String) : Option String := folder.files.lookup place

def isFolder (folder : Folder) (place : List String) : Bool :=
  place.isEmpty || folder.files.any fun (name, _) => place.isPrefixOf name && place ≠ name

def holds (folder : Folder) (place : List String) : Bool :=
  (folder.content? place).isSome || folder.isFolder place

/-- Bytes in the longest name of a file, and in the longest path. -/
def longestName : Nat := 255

def longestPath : Nat := 4095

/-- Goes along a path. Nothing outside of the folder is known but more folders. -/
def walk (folder : Folder) (here : List String) :
    List String → Except FileProblem (List String)
  | [] => .ok here
  | part :: parts =>
    if !folder.isFolder here then .error .notDirectory
    else if part = ".." then
      if here.isEmpty then .error (if parts.all (· = "..") then .isDirectory else .missing)
      else walk folder here.dropLast parts
    else if longestName < part.utf8ByteSize then .error .nameTooLong
    else
      let next := here ++ [part]
      if folder.holds next then walk folder next parts else .error .missing

def read (folder : Folder) (path : Path) : Except FileProblem String := do
  if path.text.toList.contains '\x00' then .error .nullInPath
  if longestPath < path.text.utf8ByteSize then .error .nameTooLong
  if path.root ≠ "" then .error (if path.parts.isEmpty then .isDirectory else .missing)
  let place ← folder.walk [] path.parts
  match folder.content? place with
  | some content => return content
  | none => .error .isDirectory

end Folder

end Calculator
