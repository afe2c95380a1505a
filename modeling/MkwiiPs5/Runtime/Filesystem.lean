import Mathlib.Data.List.Basic
import Mathlib.Data.Nat.Notation
import MkwiiPs5.Overlay

/-!
# Canonical paths

`realpath` of `filesystem_ps5.cpp`: a path is checked one component after another, each in the
directory that the ones before it lead to. A file system says what its directories list; it does
not change during a call.
-/

namespace Runtime.Filesystem

inductive Errno
  | EINVAL
  | ENOENT
  | EOPNOTSUPP
  | ENAMETOOLONG
  | ENOTDIR
  | ENOMEM
  | EIO
  | native (code : ℕ)
  deriving DecidableEq

/-- `d_type`. -/
inductive EntryType
  | unknown
  | directory
  | link
  | other (code : ℕ)
  deriving DecidableEq

abbrev Path := List Char

/-- What `readdir` gives, and what it sets `errno` to where it ends. -/
structure Directory where
  entries : List (Path × EntryType)
  errno : Option Errno

structure FileSystem where
  /-- `opendir`, with what it sets `errno` to where it fails. -/
  opendir : Path → Except (Option Errno) Directory
  /-- `stat`: its `errno` where it fails. -/
  stat : Path → Option Errno
  pathMax : ℕ

variable (fs : FileSystem)

def entryType (parent name : Path) : Except Errno EntryType :=
  match fs.opendir parent with
  | .error errno => .error (errno.getD Errno.EIO)
  | .ok dir =>
    match dir.entries.find? fun entry => name = entry.1 with
    | some entry => .ok entry.2
    | none => .error (dir.errno.getD .ENOENT)

/-- `find_last_of('/')`. -/
def lastSlash (path : Path) : ℕ := path.length - 1 - path.reverse.idxOf '/'

/-- The parent of a path; that of the root is the root. -/
def parentOf (path : Path) : Path := path.take (if lastSlash path = 0 then 1 else lastSlash path)

def extend (result component : Path) : Path :=
  if result.length ≠ 1 then result ++ '/' :: component else result ++ component

/-- The next component of a path after some slashes, and what follows it. -/
def nextComponent (cursor : Path) : Option (Path × Path) :=
  match cursor.dropWhile (· = '/') with
  | [] => none
  | c :: rest => some (c :: rest.takeWhile (· ≠ '/'), rest.dropWhile (· ≠ '/'))

theorem nextComponent_length {cursor component next : Path}
    (h : nextComponent cursor = some (component, next)) : next.length < cursor.length := by
  have hslashes := (List.dropWhile_sublist (· = '/') (l := cursor)).length_le
  rw [nextComponent] at h
  split at h
  · cases h
  · next c rest heq =>
    rw [heq, List.length_cons] at hslashes
    obtain ⟨_, rfl⟩ := Prod.mk.inj (Option.some.inj h)
    have hrest := (List.dropWhile_sublist (· ≠ '/') (l := rest)).length_le
    omega

/-- The loop of `checked_absolute`: the result so far, the type of its last component, and what is
left of the input. -/
def walk (result : Path) (type : EntryType) (cursor : Path) : Except Errno Path :=
  if cursor = [] then .ok result
  else if type ≠ .directory then .error .ENOTDIR
  else
    match h : nextComponent cursor with
    | none => .ok result
    | some (component, next) =>
      have := nextComponent_length h
      if component = ".".toList then walk result type next
      else if component = "..".toList then walk (parentOf result) type next
      else
        match entryType fs result component with
        | .error error => .error error
        | .ok type =>
          if type = .link ∨ type = .unknown then .error .EOPNOTSUPP
          else walk (extend result component) type next
termination_by cursor.length

def checkedAbsolute (input : Option Path) : Except Errno Path :=
  match input with
  | none => .error .EINVAL
  | some [] => .error .ENOENT
  | some (c :: rest) =>
    if c ≠ '/' then .error .EOPNOTSUPP
    else if fs.pathMax ≤ (c :: rest).length then .error .ENAMETOOLONG
    else walk fs ['/'] .directory (c :: rest)

/-- What the allocations of a call do: an exception that one of them throws, and `malloc`. -/
structure Allocations where
  exception : Option Errno
  malloc : Bool

/-- What `realpath` returns, as the string or the `errno`, and the buffer of the caller. -/
structure Resolved where
  returned : Except Errno Path
  buffer : Option (ℕ → Char)

def realpath (allocations : Allocations) (path : Option Path) (buffer : Option (ℕ → Char)) :
    Resolved :=
  match allocations.exception with
  | some error => ⟨.error error, buffer⟩
  | none =>
    match checkedAbsolute fs path with
    | .error error => ⟨.error error, buffer⟩
    | .ok absolute =>
      match fs.stat absolute with
      | some error => ⟨.error error, buffer⟩
      | none =>
        match buffer with
        | none => if allocations.malloc then ⟨.ok absolute, none⟩ else ⟨.error .ENOMEM, none⟩
        | some bytes => ⟨.ok absolute, some (Overlay.write bytes 0 (absolute ++ ['\x00']))⟩

end Runtime.Filesystem
