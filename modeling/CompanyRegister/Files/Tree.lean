import CompanyRegister.Files.Pathname
import CompanyRegister.Store.Image

/-!
# Directory trees

A tree of directories and files as a value: what a path leads to, reading, writing and making
directories. Each operation says for which reason it fails, and a failed write leaves the tree as it
was.

`Access` is what a command needs of files; a tree gives one kind of access (`Tree.access`).
-/

namespace CompanyRegister.Files

open Store

/-- The names on the way from the root. -/
abbrev Location := List (List Char)

/-- What there is at a location. -/
inductive Node
  | directory
  | file (content : Image.Bytes)

/-- A tree of directories and files, with the directory where relative paths begin. -/
structure Tree where
  nodes : List (Location × Node) := []
  home : Location := []

namespace Tree

/-- What there is at a location. The root is always a directory. -/
def node? (t : Tree) : Location → Option Node
  | [] => some .directory
  | l => t.nodes.lookup l

def put (t : Tree) (l : Location) (n : Node) : Tree :=
  { t with nodes := (l, n) :: t.nodes.filter fun e => e.1 != l }

/-- The longest name, in bytes. -/
def maxNameBytes : Nat := 255

/-- Go on from a directory by one part of a path. -/
def step (t : Tree) (l : Location) (part : Part) : Except Reason Location :=
  match t.node? l with
  | none => .error .missing
  | some .directory =>
    match part with
    | .up => .ok l.dropLast
    | .name s => if maxNameBytes < Text.byteCount s then .error .nameTooLong else .ok (l ++ [s])
  | some _ => .error .notDirectory

/-- Where parts of a path lead from a directory. Nothing needs to be there. -/
def walk (t : Tree) (start : Location) (parts : List Part) : Except Reason Location :=
  parts.foldlM t.step start

def start (t : Tree) (p : Pathname) : Location := if p.isAbsolute then [] else t.home

/-- Refuse a path that no system call takes. -/
def checkPath (p : Pathname) : Except Reason Unit :=
  if p.text.contains '\x00' then .error .nulInPath
  else if p.text = [] then .error .missing
  else .ok ()

/-- Where a path leads. -/
def locate (t : Tree) (p : Pathname) : Except Reason Location := do
  checkPath p
  t.walk (t.start p) p.parts

def directory? (t : Tree) (p : Pathname) : Option Location :=
  match t.locate p with
  | .ok l =>
    match t.node? l with
    | some .directory => some l
    | _ => none
  | .error _ => none

/-! ### Files -/

/-- The text that bytes spell. -/
def textOf (content : ByteArray) : Except Reason String :=
  match String.fromUTF8? content with
  | some s => .ok s
  | none => .error .notText

def read (t : Tree) (p : Pathname) : Except Reason String := do
  let l ← t.locate p
  match t.node? l with
  | none => throw .missing
  | some .directory => throw .isDirectory
  | some (.file content) =>
    if p.endsAsDirectory then throw .notDirectory else textOf content.toByteArray

/-- Write a text to a file, new or not. -/
def write (t : Tree) (p : Pathname) (text : String) : Except Reason Tree := do
  let l ← t.locate p
  if p.endsAsDirectory then throw .isDirectory
  match t.node? l with
  | some .directory => throw .isDirectory
  | _ => return t.put l (.file text.toUTF8.toList)

/-! ### Directories -/

def makeDirectory (t : Tree) (start : Location) (parts : List Part) : Except Reason Tree := do
  let l ← t.walk start parts
  match t.node? l with
  | some _ => throw .exists
  | none => return t.put l .directory

/-- Whether parts of a path lead to a directory. -/
def isDirectory (t : Tree) (start : Location) (parts : List Part) : Bool :=
  match t.walk start parts with
  | .ok l =>
    match t.node? l with
    | some .directory => true
    | _ => false
  | .error _ => false

/-- Make a directory unless it is there. -/
def ensureDirectory (t : Tree) (start : Location) (parts : List Part) : Except Reason Tree :=
  match t.makeDirectory start parts with
  | .ok t => .ok t
  | .error r => if t.isDirectory start parts then .ok t else .error r

/-- Make a directory unless it is there. Where it cannot be made because the way to it is missing,
that is made first; `depth` is how many parts may be missing. -/
def ensureWay (start : Location) : Nat → Tree → List Part → Except Reason Tree
  | 0, t, parts => t.ensureDirectory start parts
  | depth + 1, t, parts =>
    match t.makeDirectory start parts with
    | .ok t => .ok t
    | .error .missing => do (← ensureWay start depth t parts.dropLast).ensureDirectory start parts
    | .error r => if t.isDirectory start parts then .ok t else .error r

/-- Make a directory and all directories on the way to it. -/
def makeDirectories (t : Tree) (p : Pathname) : Except Reason Tree := do
  checkPath p
  ensureWay (t.start p) p.parts.length t p.parts

/-! ### Databases -/

/-- The content of a file that is there or can be made, and where it stands. -/
def contentFor? (t : Tree) (p : Pathname) : Option (Location × Image.Bytes) :=
  match t.locate p with
  | .error _ => none
  | .ok l =>
    match t.node? l with
    | some .directory => none
    | some (.file content) => if p.endsAsDirectory then none else some (l, content)
    | none => if p.endsAsDirectory then none else some (l, [])

/-- Open the database in a file, and make it if it is not there. -/
def openDatabase (t : Tree) (p : Pathname) : Outcome Store.Fault Unit × Tree :=
  match t.contentFor? p with
  | none => (Database.refuseOpening "file" (.cannotOpen p.toString), t)
  | some (l, content) =>
    let (o, new?) := Image.openFile content
    (o, match new? with
      | some new => t.put l (.file new)
      | none => t)

end Tree

/-! ### Access -/

/-- What commands do with files. -/
structure Access (m : Type → Type) where
  read : Pathname → m (Except Reason String)
  write : Pathname → String → m (Except Reason Unit)
  makeDirectories : Pathname → m (Except Reason Unit)
  openDatabase : Pathname → m (Outcome Store.Fault Unit)

/-- A change of the tree, which stays as it was when the change fails. -/
def Tree.change (f : Tree → Except Reason Tree) : StateM Tree (Except Reason Unit) := fun t =>
  match f t with
  | .ok t => (.ok (), t)
  | .error r => (.error r, t)

/-- Access to the files of a tree. -/
def Tree.access : Access (StateM Tree) where
  read p t := (t.read p, t)
  write p text := change fun t => t.write p text
  makeDirectories p := change fun t => t.makeDirectories p
  openDatabase p t := t.openDatabase p

end CompanyRegister.Files
