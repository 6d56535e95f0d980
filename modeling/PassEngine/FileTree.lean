import PassEngine.Fault

/-!
# File trees

A file tree is a directory with all that is below it. Paths are followed one component at a
time. What lies outside the tree can be walked through but holds no file.
-/

namespace PassEngine

/-- Directories and files below a directory, each by the list of its components. -/
structure FileTree where
  directories : List (List String)
  files : List (List String × ByteArray)

namespace FileTree

inductive Place where
  /-- A directory of the tree, by its components, the last one first. -/
  | directory (reversed : List String)
  | file (content : ByteArray)
  /-- A directory above the tree. -/
  | outside

/-- The components of a path, some of which may be empty. -/
def components (path : String) : List String := path.splitOn "/"

def maxComponent : Nat := 255

def maxPath : Nat := 4095

def enter (tree : FileTree) (reversed : List String) (name : String) : Except FileFault Place :=
  let path := (name :: reversed).reverse
  if maxComponent < name.utf8ByteSize then .error .nameTooLong
  else if tree.directories.contains path then .ok (.directory (name :: reversed))
  else
    match tree.files.find? (·.1 == path) with
    | some (_, content) => .ok (.file content)
    | none => .error .missing

/-- Follow one component. A file has nothing in it, not even itself. -/
def follow (tree : FileTree) (place : Place) (component : String) : Except FileFault Place :=
  match place with
  | .file _ => .error .notDirectory
  | .outside =>
      if component = "" || component = "." || component = ".." then .ok .outside
      else if maxComponent < component.utf8ByteSize then .error .nameTooLong
      else .error .missing
  | .directory reversed =>
      if component = "" || component = "." then .ok (.directory reversed)
      else if component = ".." then
        match reversed with
        | [] => .ok .outside
        | _ :: above => .ok (.directory above)
      else tree.enter reversed component

def walk (tree : FileTree) : Place → List String → Except FileFault Place
  | place, [] => .ok place
  | place, component :: rest =>
      match tree.follow place component with
      | .error fault => .error fault
      | .ok place => tree.walk place rest

def contentAt (tree : FileTree) (path : String) : Except FileFault ByteArray :=
  if path.toList.contains '\x00' then .error .nulInName
  else if path = "" then .error .missing
  else if maxPath < path.utf8ByteSize then .error .nameTooLong
  else
    let start : Place := if path.front = '/' then .outside else .directory []
    match tree.walk start (components path) with
    | .error fault => .error fault
    | .ok (.file content) => .ok content
    | .ok _ => .error .isDirectory

end FileTree

end PassEngine
