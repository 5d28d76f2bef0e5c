/-!
# Files and folders

A `Directory` is a file system as a process sees it, from its working directory. Under
a `FileName`, the names that lead from the root to it, there is an `Entry`: a file, a
folder, or a link to another path. Files are numbered, and a file may have several
names. The process may read, write and search some of them and others not (`Access`).

* `Directory.locate` — follows a path, component by component.
* `Directory.read` — the text of a file.
* `Directory.write` — replaces a file's content or makes the file.

Paths follow the rules of POSIX: empty components and `.` lead nowhere, `..` leads
up, a trailing slash asks for a folder, a component has at most 255 bytes and a path
fewer than 4096, and at most 40 links are followed on the way. A path that does not
start at the root starts at the working directory, so a file can be reached in many
ways, by its full path, through a folder's parent, through a link, or under another
name of its own.
-/

namespace ArithTree

/-- Why a file could not be read or written. -/
inductive FileError where
  | noEntry
  | denied
  | notFolder
  | isFolder
  | nameTooLong
  | tooManyLinks
  | invalidText
deriving DecidableEq

/-- The error in words. -/
def FileError.message : FileError → String
  | .noEntry => "No such file or directory (os error 2)"
  | .denied => "Permission denied (os error 13)"
  | .notFolder => "Not a directory (os error 20)"
  | .isFolder => "Is a directory (os error 21)"
  | .nameTooLong => "File name too long (os error 36)"
  | .tooManyLinks => "Too many levels of symbolic links (os error 40)"
  | .invalidText => "stream did not contain valid UTF-8"

/-- What the process may do with a file or a folder. -/
structure Access where
  read : Bool
  /-- May a file get a new content, or a folder a new name in it? -/
  write : Bool
  /-- May the names in a folder be looked up? -/
  search : Bool
deriving DecidableEq

/-- Everything. -/
def Access.full : Access := ⟨true, true, true⟩

/-- A file, apart from its names. -/
structure File where
  content : ByteArray
  access : Access

/-- What a name stands for. -/
inductive Entry where
  /-- The file of this number. -/
  | file (number : Nat)
  | folder (access : Access)
  /-- A link to a path, which starts at the folder that the link is in. -/
  | link (path : String)
deriving DecidableEq

/-- Where a file or folder is: the names that lead to it from the root. There is no
link among the folders on the way. -/
structure FileName where
  names : List String
deriving DecidableEq

namespace FileName

/-- The root of the file system. -/
def root : FileName := ⟨[]⟩

/-- What `name` stands for in the folder `folder`. -/
def child (folder : FileName) (name : String) : FileName :=
  ⟨folder.names ++ [name]⟩

/-- The folder that a name is in. The root is in itself. -/
def parent (name : FileName) : FileName :=
  ⟨name.names.dropLast⟩

end FileName

/-- A file system and a place in it. -/
structure Directory where
  /-- The working directory. -/
  here : FileName
  /-- The names, each with what it stands for. -/
  entries : List (FileName × Entry)
  /-- The files, by their numbers. -/
  files : Nat → File
  /-- What the process may do with the files that it makes. -/
  newFile : Access

/-- What a path leads to. -/
inductive Target where
  | folder (name : FileName)
  | file (number : Nat)
  /-- A name that is free, in a folder that exists. -/
  | vacant (name : FileName)
deriving DecidableEq

/-- What one component of a path leads to. -/
inductive Move where
  /-- A folder, from which the path goes on. -/
  | enter (folder : FileName)
  /-- A link to a path. -/
  | link (path : String)
  | stop (target : Target)

/-- What a path is followed for. -/
inductive Purpose where
  | read
  | write
deriving DecidableEq

/-- A path, taken apart. -/
structure Path where
  /-- Does it start at the root of the file system? -/
  rooted : Bool
  /-- Its components, without the empty ones. -/
  components : List String
  /-- Does it end in a slash? -/
  trailing : Bool

namespace Path

/-- The longest component, in bytes. -/
def nameLimit : Nat := 255

/-- The first length of a path, in bytes, that is too long. -/
def lengthLimit : Nat := 4096

/-- The number of links that are followed on the way. -/
def linkLimit : Nat := 40

/-- Takes a path apart at its slashes. -/
def ofString (path : String) : Path where
  rooted := path.toList.head? == some '/'
  components :=
    ((path.toList.splitOnP (· == '/')).filter (fun part => !part.isEmpty)).map String.ofList
  trailing := path.toList.getLast? == some '/'

/-- Where a path starts that was met in the folder `folder`. -/
def origin (path : Path) (folder : FileName) : FileName :=
  if path.rooted then .root else folder

end Path

namespace Directory

/-- What a name stands for, if anything. -/
def lookup (directory : Directory) (name : FileName) : Option Entry :=
  directory.entries.lookup name

/-- What the process may do with a folder. -/
def access (directory : Directory) (folder : FileName) : Except FileError Access :=
  match directory.lookup folder with
  | some (.folder access) => .ok access
  | some _ => .error .notFolder
  | none => .error .noEntry

/-- Looks a component up in a folder. Unless it is the last one, it has to lead to a
folder, or to a link; the last one has to if a slash follows it. -/
def move (directory : Directory) (purpose : Purpose) (trailing : Bool) (folder : FileName)
    (component : String) (last : Bool) : Except FileError Move :=
  match directory.access folder with
  | .error error => .error error
  | .ok access =>
    if !access.search then .error .denied
    else if component = "." then .ok (.enter folder)
    else if component = ".." then .ok (.enter folder.parent)
    else if last ∧ trailing ∧ purpose = .write then .error .isFolder
    else if Path.nameLimit < component.utf8ByteSize then .error .nameTooLong
    else
      let name := folder.child component
      match directory.lookup name with
      | some (.folder _) => .ok (.enter name)
      | some (.link path) => if path.isEmpty then .error .noEntry else .ok (.link path)
      | some (.file number) =>
        if last && !trailing then .ok (.stop (.file number)) else .error .notFolder
      | none => if last && !trailing then .ok (.stop (.vacant name)) else .error .noEntry

/-- Follows components from a folder, and leaves the links to `onLink`. A link is
replaced by the components of its path, and if it comes last, a slash at the end of
that path counts. -/
def walk (directory : Directory) (purpose : Purpose)
    (onLink : Bool → FileName → List String → Except FileError Target) (trailing : Bool)
    (folder : FileName) : List String → Except FileError Target
  | [] => .ok (.folder folder)
  | component :: rest =>
    match directory.move purpose trailing folder component rest.isEmpty with
    | .error error => .error error
    | .ok (.enter folder) => directory.walk purpose onLink trailing folder rest
    | .ok (.link path) =>
      let parts := Path.ofString path
      onLink (trailing || rest.isEmpty && parts.trailing) (parts.origin folder)
        (parts.components ++ rest)
    | .ok (.stop target) => .ok target

/-- Follows components from a folder, and links too, up to a number of them. -/
def follow (directory : Directory) (purpose : Purpose) :
    Nat → Bool → FileName → List String → Except FileError Target
  | 0 => directory.walk purpose fun _ _ _ => .error .tooManyLinks
  | links + 1 => directory.walk purpose (directory.follow purpose links)

/-- What a path leads to. The empty path leads nowhere. -/
def locate (directory : Directory) (purpose : Purpose) (path : String) : Except FileError Target :=
  if path.isEmpty then .error .noEntry
  else if Path.lengthLimit ≤ path.utf8ByteSize then .error .nameTooLong
  else
    let parts := Path.ofString path
    directory.follow purpose Path.linkLimit parts.trailing (parts.origin directory.here)
      parts.components

/-- The text of the file that a path leads to. -/
def read (directory : Directory) (path : String) : Except FileError String :=
  match directory.locate .read path with
  | .error error => .error error
  | .ok (.vacant _) => .error .noEntry
  | .ok (.folder name) =>
    match directory.access name with
    | .error error => .error error
    | .ok access => .error (if access.read then .isFolder else .denied)
  | .ok (.file number) =>
    let file := directory.files number
    if !file.access.read then .error .denied
    else
      match String.fromUTF8? file.content with
      | some text => .ok text
      | none => .error .invalidText

/-- Gives a file a new content. It keeps its names. -/
def overwrite (directory : Directory) (number : Nat) (content : ByteArray) : Directory :=
  { directory with
    files := fun other =>
      if other = number then { directory.files number with content := content }
      else directory.files other }

/-- A number that no name stands for. -/
def fresh (directory : Directory) : Nat :=
  directory.entries.foldr (fun (_, entry) bound =>
    match entry with
    | .file number => max (number + 1) bound
    | .folder _ | .link _ => bound) 0

/-- Makes a file under a free name. -/
def create (directory : Directory) (name : FileName) (content : ByteArray) : Directory :=
  { directory with
    entries := directory.entries ++ [(name, .file directory.fresh)]
    files := fun other =>
      if other = directory.fresh then ⟨content, directory.newFile⟩ else directory.files other }

/-- Gives the file that a path leads to a new content, and makes it first if its name
is free. -/
def write (directory : Directory) (path content : String) : Except FileError Directory :=
  match directory.locate .write path with
  | .error error => .error error
  | .ok (.folder _) => .error .isFolder
  | .ok (.file number) =>
    if !(directory.files number).access.write then .error .denied
    else .ok (directory.overwrite number content.toUTF8)
  | .ok (.vacant name) =>
    match directory.access name.parent with
    | .error error => .error error
    | .ok access =>
      if !access.write then .error .denied else .ok (directory.create name content.toUTF8)

/-- The files below the working directory, each with its path. -/
def listing (directory : Directory) : List (String × ByteArray) :=
  directory.entries.filterMap fun (name, entry) =>
    match entry with
    | .folder _ | .link _ => none
    | .file number =>
      if directory.here.names.isPrefixOf name.names then
        some (String.intercalate "/" (name.names.drop directory.here.names.length),
          (directory.files number).content)
      else none

end Directory

end ArithTree
