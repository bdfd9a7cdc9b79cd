import Chip8.Bank
import Chip8.Storage.Path

/-!
# Files

What programs are read from is what the system answers when the file at a path is to be read: its
bytes, or why it cannot be read. Any answers are possible, since links, devices and permissions are
the system's own business.

A tree of directories and plain files answers as follows. A path is walked name by name, from the
root of the tree or from the current directory. A name can be looked up only in a directory, and
only if it is not too long; a walk that starts with too long a path does not start at all.

## Main definitions

* `FileSystem`: what is answered at each path
* `FileTree`: directories and plain files, and which of the directories is the current one
* `FileTree.read`: the content of the file at a path
* `FileTree.Leads`: what names lead to

## Main statements

* `FileTree.read_eq_ok_iff`: what is read is the content of the plain file that a path leads to
-/

namespace Chip8

/-- Why a file cannot be read. -/
inductive ReadError where
  | notFound
  | isDirectory
  | notDirectory
  | nameTooLong
  /-- Anything else, in the system's own words. -/
  | other (message : String)
  deriving DecidableEq, Repr

namespace ReadError

/-- The reason in words. -/
def message : ReadError → String
  | notFound => "No such file or directory"
  | isDirectory => "Is a directory"
  | notDirectory => "Not a directory"
  | nameTooLong => "File name too long"
  | other message => message

/-- The reason that the system gives in words. -/
def ofMessage (message : String) : ReadError :=
  ([notFound, isDirectory, notDirectory, nameTooLong].find? (·.message = message)).getD
    (other message)

theorem message_ofMessage (message : String) : (ofMessage message).message = message := by
  rw [ofMessage]
  cases hknown : [notFound, isDirectory, notDirectory, nameTooLong].find? (·.message = message) with
  | none => rfl
  | some why =>
    have hwhy := List.find?_some hknown
    exact of_decide_eq_true hwhy

end ReadError

/-- The files that there are, by what reading the file at a path gives. -/
structure FileSystem where
  content : Path → Except ReadError (List Byte)

/-- The contents of a named place. -/
inductive FileEntry where
  | directory
  | file (content : List Byte)
  deriving DecidableEq

/-- Directories and plain files, by the names that lead to them from the root. The directories on
the way to an entry are there without an entry of their own. -/
structure FileTree where
  entries : List (List String × FileEntry) := []
  /-- The names that lead from the root to the current directory. -/
  current : List String := []

namespace FileTree

/-- The most bytes a name may have. -/
def maxNameBytes : Nat := 255

/-- The most bytes a whole path may have. -/
def maxPathBytes : Nat := 4095

/-- The entry at a place. The current directory is there in any case, and so are those above it. -/
def entryAt? (t : FileTree) (place : List String) : Option FileEntry :=
  if place.isPrefixOf t.current then some .directory
  else match t.entries.find? (·.1 = place) with
    | some (_, entry) => some entry
    | none => if t.entries.any (fun (names, _) => place.isPrefixOf names) then
      some .directory else none

/-- The place that a name leads to from a directory. Above the root is the root itself. -/
def child (t : FileTree) (place : List String) (name : String) : Except ReadError (List String) :=
  if name = ".." then .ok place.dropLast
  else if maxNameBytes < name.utf8ByteSize then .error .nameTooLong
  else if (t.entryAt? (place ++ [name])).isSome then .ok (place ++ [name])
  else .error .notFound

/-- The place that names lead to. -/
def walk (t : FileTree) (place : List String) : List String → Except ReadError (List String)
  | [] => .ok place
  | name :: names =>
    match t.entryAt? place with
    | some .directory => do walk t (← child t place name) names
    | _ => .error .notDirectory

/-- Where the walk along a path starts. -/
def start (t : FileTree) (path : Path) : List String := if path.root = "" then t.current else []

/-- The content of the file at a path. -/
def read (t : FileTree) (path : Path) : Except ReadError (List Byte) :=
  if maxPathBytes < path.toString.utf8ByteSize then .error .nameTooLong
  else do
    match t.entryAt? (← t.walk (t.start path) path.names) with
    | some (.file content) => .ok content
    | _ => .error .isDirectory

/-- The files of the tree, as programs find them. -/
def system (t : FileTree) : FileSystem := ⟨t.read⟩

/-! ## What a path leads to -/

/-- Names lead from a place to another: each is looked up in the directory that those before it led
to, and two dots lead to the directory above. -/
inductive Leads (t : FileTree) : List String → List String → List String → Prop
  | here (place : List String) : Leads t place [] place
  | up {place names target : List String} (hdirectory : t.entryAt? place = some .directory)
      (hrest : Leads t place.dropLast names target) : Leads t place (".." :: names) target
  | down {place names target : List String} {name : String}
      (hdirectory : t.entryAt? place = some .directory) (hname : name ≠ "..")
      (hshort : name.utf8ByteSize ≤ maxNameBytes) (hthere : (t.entryAt? (place ++ [name])).isSome)
      (hrest : Leads t (place ++ [name]) names target) : Leads t place (name :: names) target

variable {t : FileTree} {place target : List String} {name : String} {names : List String}

theorem child_up : t.child place ".." = .ok place.dropLast := rfl

theorem child_eq_ok_iff (hname : name ≠ "..") :
    t.child place name = .ok target ↔
      name.utf8ByteSize ≤ maxNameBytes ∧ (t.entryAt? (place ++ [name])).isSome ∧
        place ++ [name] = target := by
  rw [child, if_neg hname]
  by_cases hlong : maxNameBytes < name.utf8ByteSize
  · simp [hlong, Nat.not_le.2 hlong]
  · rw [if_neg hlong]
    by_cases hthere : (t.entryAt? (place ++ [name])).isSome
    · simp [hthere, Nat.not_lt.1 hlong]
    · simp [hthere]

theorem walk_cons (hdirectory : t.entryAt? place = some .directory) :
    t.walk place (name :: names) = t.child place name >>= fun next => t.walk next names := by
  simp only [walk, hdirectory]

theorem leads_of_walk (h : t.walk place names = .ok target) : Leads t place names target := by
  induction names generalizing place with
  | nil =>
    cases h
    exact .here _
  | cons name names ih =>
    by_cases hdirectory : t.entryAt? place = some .directory
    · rw [walk_cons hdirectory] at h
      by_cases hname : name = ".."
      · subst hname
        exact .up hdirectory (ih h)
      · cases hchild : t.child place name with
        | error why =>
          rw [hchild] at h
          cases h
        | ok next =>
          rw [hchild] at h
          obtain ⟨hshort, hthere, rfl⟩ := (child_eq_ok_iff hname).1 hchild
          exact .down hdirectory hname hshort hthere (ih h)
    · simp only [walk] at h
      cases h

theorem Leads.walk (h : Leads t place names target) : t.walk place names = .ok target := by
  induction h with
  | here place => rfl
  | up hdirectory hrest ih =>
    rw [walk_cons hdirectory, child_up]
    exact ih
  | down hdirectory hname hshort hthere hrest ih =>
    rw [walk_cons hdirectory, (child_eq_ok_iff hname).2 ⟨hshort, hthere, rfl⟩]
    exact ih

/-- **What is read is the content of the plain file that a path leads to**, from the root or from
the current directory. -/
theorem read_eq_ok_iff {path : Path} {content : List Byte} :
    t.read path = .ok content ↔
      path.toString.utf8ByteSize ≤ maxPathBytes ∧
        ∃ target, Leads t (t.start path) path.names target ∧
          t.entryAt? target = some (.file content) := by
  rw [read]
  by_cases hlong : maxPathBytes < path.toString.utf8ByteSize
  · simp [hlong, Nat.not_le.2 hlong]
  · rw [if_neg hlong, and_iff_right (Nat.not_lt.1 hlong)]
    constructor
    · intro h
      cases hwalk : t.walk (t.start path) path.names with
      | error why =>
        rw [hwalk] at h
        cases h
      | ok target =>
        rw [hwalk] at h
        simp only [bind, Except.bind] at h
        split at h
        next heq =>
          cases h
          exact ⟨target, leads_of_walk hwalk, heq⟩
        next => cases h
    · rintro ⟨target, hleads, hentry⟩
      simp only [hleads.walk, bind, Except.bind, hentry]

/-- A program beside the current directory is found from the root and by way of the directory
above. -/
example :
    let t : FileTree :=
      { entries := [(["roms", "pong.ch8"], .file [0x12, 0x00])], current := ["home"] }
    t.read (Path.ofString "/roms/pong.ch8") = .ok [0x12, 0x00] ∧
      t.read (Path.ofString "../roms/pong.ch8") = .ok [0x12, 0x00] := by
  constructor <;> cbv

end FileTree

end Chip8
