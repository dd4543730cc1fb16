import LLPFilesystem.FtpServer

/-!
# A file system of directories

The least file system that the server can walk in: directories without files, each
the list of the names that lead to it. It has no links, so a path is resolved name by
name, and `..` drops the last name.
-/

namespace Ftp

open Text

/-- A directory, by the names that lead to it. -/
abbrev Directory := List (List UInt8)

/-- The names in a path. -/
def components (path : List UInt8) : List (List UInt8) :=
  (path.splitOnP (· == 47)).filter fun name => name ≠ [] ∧ name ≠ ascii "."

/-- Where some names lead, from a directory. -/
def walk (d : Directory) (names : List (List UInt8)) : Directory :=
  names.foldl (fun d name => if name = ascii ".." then d.dropLast else d ++ [name]) d

/-- **The file system of directories.** -/
def directories : Posix (List Directory) Directory where
  locate _ d path :=
    if path = [] then none
    else some (walk (if path.head? = some 47 then [] else d) (components path))
  getcwd _ d := some (if d = [] then ascii "/" else d.flatMap fun name => 47 :: name)
  enter dirs d := d = [] ∨ d ∈ dirs
  mkdir dirs d :=
    if d ≠ [] ∧ d ∉ dirs ∧ (d.dropLast = [] ∨ d.dropLast ∈ dirs) then some (d :: dirs) else none
  rmdir dirs d :=
    if d ∈ dirs ∧ ∀ e ∈ dirs, e = d ∨ ¬ d <+: e then some (dirs.filter (· ≠ d)) else none
  create _ _ := none
  append dirs _ _ := dirs
  opens dirs d := d = [] ∨ d ∈ dirs
  read _ _ := none
  entries dirs d :=
    some ((dirs.filter fun e => e ≠ [] ∧ e.dropLast = d).map fun e => e.getLastD [])
  stat dirs d :=
    if d = [] ∨ d ∈ dirs then some ⟨true, 493, 2, 0, 4096, 0⟩ else none
  date _ := []

/-- A server started in `/srv`, which holds the directory `/srv/a`; it has four
descriptors open. -/
def freshServer : Process (List Directory) Directory where
  files := [[ascii "srv"], [ascii "srv", ascii "a"]]
  cwd := [ascii "srv"]
  fds := {0, 1, 2, 3}
  listening := ∅

/-- The kernel that grants everything. -/
def granting : Answers where
  socket _ := true
  bind := true
  listen := true
  getsockname := true
  ip := ascii "127.0.0.1"
  port := 4096
  accept _ := true
  fopen _ := true
  opendir _ := true
  incoming := []
  fwrite _ := bufferSize
  flush _ := bufferSize
  write _ := bufferSize
  fclose := bufferSize
  fread _ := bufferSize
  send _ := some bufferSize

example : directories.locate [] [ascii "srv"] (ascii "../etc//x/.")
    = some [ascii "etc", ascii "x"] := by decide

end Ftp
