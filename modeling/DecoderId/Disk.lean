import DecoderId.Fault

/-!
# Paths and files

Where images are read from. A path is shown without what does not matter in it: `.`
components, and slashes that are doubled or at the end. `..` stays, because the
directory in front of it has to exist.
-/

namespace DecoderId

/-- A path: whether and how it starts at the root, and its components. -/
structure Path where
  root : String
  components : List Text
deriving DecidableEq

namespace Path

/-- The path that a text denotes. Two slashes in front are a root of their own. -/
def ofString (s : String) : Path :=
  let t := Text.ofString s
  let slashes := (t.takeWhile (· = 0x2F)).length
  { root := if slashes = 0 then "" else if slashes = 2 then "//" else "/"
    components := (Text.splitOn 0x2F t).filter fun c => c ≠ [] ∧ c ≠ [0x2E] }

/-- The path as it is shown. -/
def toString (p : Path) : String :=
  if p.root.isEmpty ∧ p.components.isEmpty then "."
  else p.root ++ "/".intercalate (p.components.map Text.toString)

end Path

/-- How the octets of a file are found. -/
abbrev Disk := Path → Except FileFault (List Nat)

/-! ## Files in memory -/

/-- The files of a directory by their components, and its empty directories. -/
structure FileTree where
  files : List (List Text × List Nat) := []
  directories : List (List Text) := []

namespace FileTree

/-- What stands at a place of the tree. -/
inductive Entry where
  | file (octets : List Nat)
  | directory
  | nothing

/-- What stands at these components. A directory is there if anything is in it. -/
def entry (t : FileTree) (components : List Text) : Entry :=
  match t.files.find? (·.1 = components) with
  | some (_, octets) => .file octets
  | none =>
    if (t.files.map (·.1) ++ t.directories).any (components.isPrefixOf ·) ∨ components = [] then .directory
    else .nothing

/-- The longest name that a file may have, in octets. -/
def maxNameLength : Nat := 255

/-- The longest path that can be looked up, in octets. -/
def maxPathLength : Nat := 4095

/-- Goes from a place in the tree along components; `none` is a directory outside of it,
in which nothing but the way up is known. -/
def walk (t : FileTree) (shown : String) : Option (List Text) → List Text → Except FileFault (List Nat)
  | none, [] => .error (.isDirectory shown)
  | none, c :: rest =>
    if c = [0x2E, 0x2E] then walk t shown none rest
    else if maxNameLength < c.toString.utf8ByteSize then .error (.nameTooLong shown)
    else .error (.notFound shown)
  | some place, [] =>
    match t.entry place with
    | .file octets => .ok octets
    | .directory => .error (.isDirectory shown)
    | .nothing => .error (.notFound shown)
  | some place, c :: rest =>
    match t.entry place with
    | .nothing => .error (.notFound shown)
    | .file _ => .error (.notADirectory shown)
    | .directory =>
      if c = [0x2E, 0x2E] then walk t shown (if place = [] then none else some place.dropLast) rest
      else if maxNameLength < c.toString.utf8ByteSize then .error (.nameTooLong shown)
      else walk t shown (some (place ++ [c])) rest

/-- The tree as a disk. A path that is too long is refused before anything is looked up. -/
def disk (t : FileTree) : Disk := fun p =>
  if p.components.any (·.contains 0) then .error .nullInName
  else if maxPathLength < p.toString.utf8ByteSize then .error (.nameTooLong p.toString)
  else t.walk p.toString (if p.root.isEmpty then some [] else none) p.components

end FileTree

end DecoderId
