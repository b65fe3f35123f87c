import TinyLang.File
import TinyLang.Text.Lines

namespace TinyLang.CommandLine

structure FileAccess (m : Type → Type) where
  read (path : String) : m FileContent
  write (path : String) (content : ByteArray) : m (Except FileError Unit)

/-- Files in a state, of which a writing leaves another one. Where paths lead, and what is left when
a writing fails, is for each system to say. -/
structure FileSystem (σ : Type) where
  read (files : σ) (path : String) : FileContent
  write (files : σ) (path : String) (content : ByteArray) : Except FileError Unit × σ

def FileSystem.access {σ : Type} (system : FileSystem σ) : FileAccess (StateM σ) where
  read path := fun files => (system.read files path, files)
  write path content := fun files => system.write files path content

structure Folder where
  files : List (String × ByteArray) := []

namespace Folder

/-- Where a path leads. Of what is outside the folder nothing is known but that there are
directories, none of which has a file that can be read. -/
inductive Place where
  | directory
  | inside (name : String)
  | outside (name : String)
deriving DecidableEq

def nameLimit : Nat := 255

def pathLimit : Nat := 4095

def checkName (name : String) : Except FileError Unit :=
  if name.utf8ByteSize ≤ nameLimit then .ok () else .error .nameTooLong

def find? (folder : Folder) (name : String) : Option ByteArray := folder.files.lookup name

def steps (path : String) : List String :=
  ((Text.pieces '/' path.toList).filter (· ≠ [])).map String.ofList

def wantsDirectory (path : String) : Bool := path.toList.getLast? = some '/'

def followOutside : List String → Except FileError Place
  | [] => .ok .directory
  | name :: rest =>
    if name = "." ∨ name = ".." then followOutside rest
    else if rest.isEmpty then .ok (.outside name)
    else do
      checkName name
      throw .missing

def follow (folder : Folder) : List String → Except FileError Place
  | [] => .ok .directory
  | name :: rest =>
    if name = "." then folder.follow rest
    else if name = ".." then followOutside rest
    else if rest.isEmpty then .ok (.inside name)
    else do
      checkName name
      throw (if (folder.find? name).isSome then .notDirectory else .missing)

def resolve (folder : Folder) (path : String) : Except FileError Place :=
  if path.isEmpty then .error .missing
  else if pathLimit < path.utf8ByteSize then .error .nameTooLong
  else if path.toList.head? = some '/' then followOutside (steps path)
  else folder.follow (steps path)

def read (folder : Folder) (path : String) : FileContent := do
  match ← folder.resolve path with
  | .directory => throw .isDirectory
  | .outside name =>
    checkName name
    throw .missing
  | .inside name =>
    checkName name
    let some bytes := folder.find? name | throw .missing
    if wantsDirectory path then throw .notDirectory
    return bytes

def write (folder : Folder) (path : String) (content : ByteArray) : Except FileError Folder := do
  let place ← folder.resolve path
  if wantsDirectory path then throw .isDirectory
  match place with
  | .directory => throw .isDirectory
  | .outside name =>
    checkName name
    return folder
  | .inside name =>
    checkName name
    return ⟨(name, content) :: folder.files.filter (·.1 ≠ name)⟩

/-- The system of folders. A writing that fails leaves the folder as it is. -/
def system : FileSystem Folder where
  read := read
  write folder path content :=
    match folder.write path content with
    | .error error => (.error error, folder)
    | .ok after => (.ok (), after)

theorem system_write_eq_ok_iff {folder after : Folder} {path : String} {content : ByteArray} :
    system.write folder path content = (.ok (), after) ↔ folder.write path content = .ok after := by
  simp only [system]
  cases folder.write path content with
  | error error => simp
  | ok after' => simp

theorem files_write {folder after : Folder} {path name : String} {content : ByteArray}
    (leads : folder.resolve path = .ok (.inside name))
    (h : folder.write path content = .ok after) :
    after.files = (name, content) :: folder.files.filter (·.1 ≠ name) := by
  rw [write, leads] at h
  simp only [bind, Except.bind] at h
  split at h
  · cases h
  · split at h
    · cases h
    · cases h
      rfl

theorem find?_write {folder after : Folder} {path name : String} {content : ByteArray}
    (leads : folder.resolve path = .ok (.inside name))
    (h : folder.write path content = .ok after) : after.find? name = some content := by
  rw [find?, files_write leads h, List.lookup_cons_self]

theorem lookup_filter_of_ne {name other : String} (hne : other ≠ name)
    (files : List (String × ByteArray)) :
    (files.filter (·.1 ≠ name)).lookup other = files.lookup other := by
  induction files with
  | nil => rfl
  | cons file files ih =>
    obtain ⟨key, bytes⟩ := file
    by_cases hkey : key = name
    · subst hkey
      rw [List.filter_cons_of_neg (by simp), ih, List.lookup_cons, beq_false_of_ne hne]
    · rw [List.filter_cons_of_pos (by simpa using hkey), List.lookup_cons, List.lookup_cons, ih]

/-- The other files stay as they are. -/
theorem find?_write_of_ne {folder after : Folder} {path name other : String} {content : ByteArray}
    (leads : folder.resolve path = .ok (.inside name))
    (h : folder.write path content = .ok after) (hne : other ≠ name) :
    after.find? other = folder.find? other := by
  rw [find?, files_write leads h, List.lookup_cons, beq_false_of_ne hne]
  exact lookup_filter_of_ne hne folder.files

end Folder

end TinyLang.CommandLine
