import LLPFilesystem.FtpNames
import LLPFilesystem.FtpDirectories
import LLPFilesystem.Paths

/-!
# What a name denotes to the directory commands

`MKD` and `RMD` put the path of the working directory and a slash before their argument;
`CWD` hands its argument to `chdir` as it is. For a relative argument that is the same
path. An absolute one is resolved from the root by `CWD` and from the working directory
by the others. So after `MKD` has made a directory, `RMD` with the same argument removes
it, and `CWD` enters it exactly if the argument is relative or leads to the same place
from both (`names_agree_iff`).
-/

namespace Ftp

open Text Paths

variable {φ ι : Type} {k : Posix φ ι} {a : Answers} {s t u : Session φ ι} {f g : φ}
  {d e i root : ι} {follow : φ → ι → List UInt8 → Option ι} {p x response : List UInt8}

/-- **Paths as they should be**, for some files and a working directory: they are
resolved name by name, the path of the working directory is absolute and leads to it, and
a directory that has been made is found where its path led, can be entered and, being
empty, removed, while the working directory is where it was. -/
structure Posix.PathsAt (k : Posix φ ι) (root : ι) (follow : φ → ι → List UInt8 → Option ι)
    (f : φ) (d : ι) : Prop where
  locate : ∀ g e path, k.locate g e path = resolve (follow g) root e path
  absolute : ∀ {p}, k.getcwd f d = some p → p.head? = some 47
  getcwd : ∀ {p}, k.getcwd f d = some p → lead (follow f) root (names p) = some d
  mkdir_locate : ∀ {g i e path}, k.mkdir f i = some g → k.locate f e path = some i →
    k.locate g e path = some i
  mkdir_getcwd : ∀ {g i p}, k.mkdir f i = some g → k.getcwd f d = some p →
    k.getcwd g d = some p ∧ lead (follow g) root (names p) = some d
  mkdir_enter : ∀ {g i}, k.mkdir f i = some g →
    k.enter g i = true ∧ (k.enter f d = true → k.enter g d = true)
  mkdir_rmdir : ∀ {g i}, k.mkdir f i = some g → (k.rmdir g i).isSome

/-- **An argument**: 1 to 99 bytes without white space. -/
structure IsArgument (x : List UInt8) : Prop where
  ne_nil : x ≠ []
  length_le : x.length ≤ 99
  nul : 0 ∉ x
  space : ∀ c ∈ x, isSpace c = false

/-- **The name denotes the directory**: `CWD` enters it, and `RMD` removes it. -/
def Denotes (k : Posix φ ι) (a : Answers) (s : Session φ ι) (x : List UInt8) (i : ι) : Prop :=
  (newReplies s (step k a s (line "CWD" x)).1 = [ascii "250 Directory changed\r\n"]
      ∧ (step k a s (line "CWD" x)).1.cwd = i)
    ∧ newReplies s (step k a s (line "RMD" x)).1 = [ascii "250 Directory deleted\r\n"]
      ∧ (step k a s (line "RMD" x)).1.touched = s.touched ++ [i]
      ∧ k.rmdir s.files i = some (step k a s (line "RMD" x)).1.files

/-! ## The lines -/

theorem newReplies_reply (h : t.replies = s.replies) :
    newReplies s (t.reply response) = [response] := by
  show List.drop s.replies.length (t.replies ++ [response]) = [response]
  rw [h, List.drop_left]

/-- The word behind the verb is the argument. -/
theorem argument_line {verb : String} (hverb : 0 ∉ ascii verb) (hx : IsArgument x) :
    argument (line verb x) (ascii verb).length = x := by
  rw [argument, cstr_line hverb hx.nul, line, List.drop_left]
  exact word_cons hx.ne_nil hx.space (by decide)

theorem commandOf_mkd (hx : IsArgument x) : commandOf (line "MKD" x) = .mkd x :=
  congrArg Command.mkd (argument_line (by decide) hx)

theorem commandOf_rmd (hx : IsArgument x) : commandOf (line "RMD" x) = .rmd x :=
  congrArg Command.rmd (argument_line (by decide) hx)

theorem commandOf_cwd (hx : IsArgument x) : commandOf (line "CWD" x) = .cwd x :=
  congrArg Command.cwd (argument_line (by decide) hx)

theorem step_mkd (hx : IsArgument x) :
    (step k a s (line "MKD" x)).1 = mkd k x (s.log (.mkd x)) := by
  rw [step_line (by decide) (by decide) hx.length_le hx.nul (commandOf_mkd hx)
    (Nat.lt_succ_of_le hx.length_le)]
  rfl

theorem step_rmd (hx : IsArgument x) :
    (step k a s (line "RMD" x)).1 = rmd k x (s.log (.rmd x)) := by
  rw [step_line (by decide) (by decide) hx.length_le hx.nul (commandOf_rmd hx)
    (Nat.lt_succ_of_le hx.length_le)]
  rfl

theorem step_cwd (hx : IsArgument x) :
    (step k a s (line "CWD" x)).1 = cwd k x (s.log (.cwd x)) := by
  rw [step_line (by decide) (by decide) hx.length_le hx.nul (commandOf_cwd hx)
    (Nat.lt_succ_of_le hx.length_le)]
  rfl

/-! ## The commands -/

/-- The path behind the working directory. -/
theorem append_slash (p x : List UInt8) : p ++ ascii "/" ++ x = p ++ 47 :: x := by
  rw [List.append_assoc]
  rfl

/-- What `getcwd` leaves, if the path fits its buffer. -/
theorem currentDirectory_of_some (hp : k.getcwd s.files s.cwd = some p)
    (hlen : p.length < bufferSize) : currentDirectory k s = p := by
  unfold currentDirectory
  rw [hp]
  exact if_pos hlen

/-- **Entering the working directory**, by its path. -/
theorem changeDirectory_current (hlocate : k.locate s.files s.cwd p = some s.cwd)
    (henter : k.enter s.files s.cwd = true) : changeDirectory k p s = some s := by
  unfold changeDirectory
  rw [hlocate]
  exact if_pos henter

/-- **Making a directory**: it is made where the path leads, or nothing happens. -/
theorem createDirectory_cases (k : Posix φ ι) (p : List UInt8) (s : Session φ ι) :
    (∃ t, createDirectory k p s = (t, false) ∧ t.replies = s.replies)
      ∨ ∃ i g, k.locate s.files s.cwd p = some i ∧ k.mkdir s.files i = some g
        ∧ createDirectory k p s = ({ s.touch i with files := g }, true) := by
  unfold createDirectory
  cases hi : k.locate s.files s.cwd p with
  | none => exact .inl ⟨s, rfl, rfl⟩
  | some i =>
    dsimp only
    cases hg : k.mkdir s.files i with
    | none => exact .inl ⟨s.touch i, rfl, rfl⟩
    | some g => exact .inr ⟨i, g, rfl, hg, rfl⟩

/-- **`MKD` that is granted**: the path of the working directory fits its buffer, and the
directory is made where the path behind it leads. -/
theorem mkd_granted (hk : k.PathsAt root follow s.files s.cwd)
    (h : newReplies s (mkd k x s) = [ascii "257 Directory created\r\n"]) :
    ∃ p i g, k.getcwd s.files s.cwd = some p ∧ p.length < bufferSize
      ∧ k.enter s.files s.cwd = true ∧ k.locate s.files s.cwd (p ++ 47 :: x) = some i
      ∧ k.mkdir s.files i = some g
      ∧ mkd k x s
        = ({ s.touch i with files := g } : Session φ ι).reply
          (ascii "257 Directory created\r\n") := by
  have hrefused : ∀ t : Session φ ι, t.replies = s.replies →
      mkd k x s ≠ t.reply (ascii "550 Failed to create directory\r\n") := by
    intro t ht heq
    rw [heq, newReplies_reply ht] at h
    exact absurd h (by decide)
  by_cases hcur : ∃ p, k.getcwd s.files s.cwd = some p ∧ p.length < bufferSize
  · obtain ⟨p, hp, hlen⟩ := hcur
    have hlocate : k.locate s.files s.cwd p = some s.cwd := by
      rw [hk.locate, resolve_absolute (hk.absolute hp)]
      exact hk.getcwd hp
    unfold mkd at hrefused ⊢
    rw [currentDirectory_of_some hp hlen, append_slash] at hrefused ⊢
    by_cases henter : k.enter s.files s.cwd = true
    · rw [changeDirectory_current hlocate henter] at hrefused ⊢
      dsimp only at hrefused ⊢
      rcases createDirectory_cases k (p ++ 47 :: x) s with ⟨t, ht, hreplies⟩ | ⟨i, g, hi, hg, ht⟩
      · rw [ht] at hrefused
        exact absurd rfl (hrefused t hreplies)
      · exact ⟨p, i, g, hp, hlen, henter, hi, hg, by rw [ht]⟩
    · have hchange : changeDirectory k p s = none := by
        unfold changeDirectory
        rw [hlocate]
        exact if_neg henter
      rw [hchange] at hrefused
      exact absurd rfl (hrefused s rfl)
  · have hcurrent : currentDirectory k s = [] := by
      unfold currentDirectory
      cases hp : k.getcwd s.files s.cwd with
      | none => rfl
      | some p => exact if_neg fun hlen => hcur ⟨p, hp, hlen⟩
    have hchange : changeDirectory k [] s = none := by
      unfold changeDirectory
      rw [hk.locate, resolve, if_pos rfl]
    unfold mkd at hrefused
    rw [hcurrent, hchange] at hrefused
    exact absurd rfl (hrefused s rfl)

/-- **`RMD` removes** what the path behind the working directory leads to. -/
theorem rmd_granted (hp : k.getcwd s.files s.cwd = some p) (hlen : p.length < bufferSize)
    (hlocate : k.locate s.files s.cwd p = some s.cwd) (henter : k.enter s.files s.cwd = true)
    (hi : k.locate s.files s.cwd (p ++ 47 :: x) = some i) (hg : k.rmdir s.files i = some g) :
    rmd k x s
      = ({ s.touch i with files := g } : Session φ ι).reply
        (ascii "250 Directory deleted\r\n") := by
  have hremove : removeDirectory k (p ++ 47 :: x) s = ({ s.touch i with files := g }, true) := by
    unfold removeDirectory
    rw [hi]
    dsimp only
    rw [hg]
  unfold rmd
  rw [currentDirectory_of_some hp hlen, append_slash, changeDirectory_current hlocate henter]
  dsimp only
  rw [hremove]

/-- **`CWD` enters a directory** exactly if its argument leads there, and there it may
go. -/
theorem cwd_enters_iff (henter : k.enter s.files i = true) :
    (newReplies s (cwd k x s) = [ascii "250 Directory changed\r\n"] ∧ (cwd k x s).cwd = i)
      ↔ k.locate s.files s.cwd x = some i := by
  constructor
  · rintro ⟨hreplies, hcwd⟩
    unfold cwd changeDirectory at hreplies hcwd
    cases hj : k.locate s.files s.cwd x with
    | none =>
      rw [hj] at hreplies
      rw [newReplies_reply rfl] at hreplies
      exact absurd hreplies (by decide)
    | some j =>
      rw [hj] at hreplies hcwd
      dsimp only at hreplies hcwd
      split at hreplies
      · next t ht =>
        split at ht
        · obtain rfl := Option.some.inj ht
          next hyes =>
          rw [if_pos hyes] at hcwd
          exact congrArg some hcwd
        · exact nomatch ht
      · rw [newReplies_reply rfl] at hreplies
        exact absurd hreplies (by decide)
  · intro hi
    unfold cwd changeDirectory
    rw [hi]
    dsimp only
    rw [if_pos henter]
    exact ⟨newReplies_reply rfl, rfl⟩

/-- **When the directory commands agree on a name.** If `MKD` makes a directory, the same
argument denotes it to `CWD` and `RMD` exactly if it is relative, or its names lead from
the root to where they lead from the working directory. -/
theorem names_agree_iff (hk : k.PathsAt root follow s.files s.cwd) (hx : IsArgument x)
    (h : newReplies s (step k a s (line "MKD" x)).1 = [ascii "257 Directory created\r\n"]) :
    ∃ i, (step k a s (line "MKD" x)).1.touched = s.touched ++ [i]
      ∧ k.mkdir s.files i = some (step k a s (line "MKD" x)).1.files
      ∧ (Denotes k a (step k a s (line "MKD" x)).1 x i
        ↔ x.head? ≠ some 47
          ∨ lead (follow (step k a s (line "MKD" x)).1.files) root (names x)
            = lead (follow (step k a s (line "MKD" x)).1.files) s.cwd (names x)) := by
  rw [step_mkd hx] at h ⊢
  obtain ⟨p, i, g, hp, hlen, henter, hi, hg, hmkd⟩ :=
    mkd_granted (s := s.log (.mkd x)) hk h
  rw [hmkd]
  refine ⟨i, rfl, hg, ?_⟩
  set u : Session φ ι := ({ (s.log (.mkd x)).touch i with files := g } : Session φ ι).reply
    (ascii "257 Directory created\r\n") with hu
  -- the directory is where the names lead from the working directory
  obtain ⟨hp', hlead⟩ := hk.mkdir_getcwd hg hp
  have hi' : k.locate g s.cwd (p ++ 47 :: x) = some i := hk.mkdir_locate hg hi
  have hnames : lead (follow g) s.cwd (names x) = some i := by
    rw [← hi', hk.locate, resolve_join (hk.absolute hp) hlead]
  obtain ⟨hnew, hstay⟩ := hk.mkdir_enter hg
  -- so it is removed
  obtain ⟨g', hg'⟩ := Option.isSome_iff_exists.mp (hk.mkdir_rmdir hg)
  have hcurrent : k.locate g s.cwd p = some s.cwd := by
    rw [hk.locate, resolve_absolute (hk.absolute hp)]
    exact hlead
  have hrmd : rmd k x (u.log (.rmd x)) = _ :=
    rmd_granted (s := u.log (.rmd x)) hp' hlen hcurrent (hstay henter) hi' hg'
  have hremoved : newReplies u (step k a u (line "RMD" x)).1
        = [ascii "250 Directory deleted\r\n"]
      ∧ (step k a u (line "RMD" x)).1.touched = u.touched ++ [i]
      ∧ k.rmdir u.files i = some (step k a u (line "RMD" x)).1.files := by
    rw [step_rmd hx, hrmd]
    exact ⟨newReplies_reply rfl, rfl, hg'⟩
  have hentered : Denotes k a u x i ↔ k.locate g s.cwd x = some i := by
    unfold Denotes
    rw [and_iff_left hremoved, step_cwd hx]
    exact cwd_enters_iff (s := u.log (.cwd x)) hnew
  rw [hentered, hk.locate]
  show _ ↔ x.head? ≠ some 47 ∨ lead (follow g) root (names x) = lead (follow g) s.cwd (names x)
  by_cases habs : x.head? = some 47
  · rw [resolve_absolute habs, hnames]
    exact ⟨.inr, fun hor => hor.resolve_left (not_not_intro habs)⟩
  · rw [resolve_relative hx.ne_nil habs, hnames]
    exact ⟨fun _ => .inl habs, fun _ => rfl⟩

/-! ## The file system of directories -/

/-- Where a name leads: a dot stays, two dots go back. -/
def enterName (d : Directory) (name : List UInt8) : Option Directory :=
  some (if name = ascii "." then d else if name = ascii ".." then d.dropLast else d ++ [name])

theorem lead_enterName (d : Directory) (l : List (List UInt8)) :
    lead enterName d l = some (walk d (l.filter (· ≠ ascii "."))) := by
  induction l generalizing d with
  | nil => rfl
  | cons name l ih =>
    show lead enterName _ l = _
    rw [ih]
    by_cases hdot : name = ascii "."
    · simp [hdot]
    · simp [hdot, walk]

theorem locate_directories (dirs : List Directory) (d : Directory) (path : List UInt8) :
    directories.locate dirs d path = resolve enterName [] d path := by
  show (if path = [] then none else some (walk _ (components path))) = _
  unfold resolve
  have hcomponents : components path = (names path).filter (· ≠ ascii ".") := by
    unfold components names
    rw [List.filter_filter]
    exact List.filter_congr fun name _ => by simp [Bool.and_comm]
  rw [lead_enterName, hcomponents]

theorem mkdir_directories {dirs g : List Directory} {d : Directory}
    (h : directories.mkdir dirs d = some g) : d ≠ [] ∧ d ∉ dirs ∧ g = d :: dirs := by
  unfold directories at h
  dsimp only at h
  split at h
  · next hnew => exact ⟨hnew.1, hnew.2.1, (Option.some.inj h).symm⟩
  · exact nomatch h

/-- A fresh server, once a client is there. -/
def served : Session (List Directory) Directory := start freshServer

theorem pathsAt_served :
    directories.PathsAt [] (fun _ => enterName) served.files served.cwd where
  locate := locate_directories
  absolute h := by
    obtain rfl := Option.some.inj h
    decide
  getcwd h := by
    obtain rfl := Option.some.inj h
    decide
  mkdir_locate _ h := h
  mkdir_getcwd _ h := by
    obtain rfl := Option.some.inj h
    exact ⟨rfl, by decide⟩
  mkdir_enter h := by
    obtain ⟨-, -, rfl⟩ := mkdir_directories h
    exact ⟨by simp [directories], fun _ => by simp [directories, served, start, freshServer]⟩
  mkdir_rmdir {_ i} h := by
    obtain ⟨hne, hnew, rfl⟩ := mkdir_directories h
    -- with a directory there are those above it, so nothing is in a new one
    have hclosed : ∀ e ∈ served.files, ∀ j ∈ e.inits, j = [] ∨ j ∈ served.files := by decide
    have hempty : ∀ e ∈ i :: served.files, e = i ∨ ¬ i <+: e := by
      intro e he
      refine (List.mem_cons.mp he).imp_right fun he hprefix => ?_
      exact (hclosed e he i ((List.mem_inits i e).mpr hprefix)).elim hne hnew
    show (ite _ _ _ : Option (List Directory)).isSome = true
    rw [if_pos ⟨List.mem_cons_self, hempty⟩]
    rfl

theorem names_agree_b :
    ∃ i, (step directories granting served (line "MKD" (ascii "b"))).1.touched
        = served.touched ++ [i]
      ∧ directories.mkdir served.files i
        = some (step directories granting served (line "MKD" (ascii "b"))).1.files
      ∧ (Denotes directories granting
          (step directories granting served (line "MKD" (ascii "b"))).1 (ascii "b") i
        ↔ (ascii "b").head? ≠ some 47
          ∨ lead enterName [] (names (ascii "b"))
            = lead enterName served.cwd (names (ascii "b"))) :=
  names_agree_iff pathsAt_served ⟨by decide, by decide, by decide, noSpace_of_all (by decide)⟩
    (by decide)

/-- In `/srv`, `MKD /x` makes the directory `/srv/x`, and `CWD /x` does not find it. -/
theorem absolute_not_entered :
    let t := (step directories granting served (line "MKD" (ascii "/x"))).1
    IsArgument (ascii "/x")
    ∧ newReplies served t = [ascii "257 Directory created\r\n"]
    ∧ t.touched = [[ascii "srv", ascii "x"]]
    ∧ newReplies t (step directories granting t (line "CWD" (ascii "/x"))).1
      = [ascii "550 Failed to change directory\r\n"]
    ∧ ¬ Denotes directories granting t (ascii "/x") [ascii "srv", ascii "x"] := by
  refine ⟨⟨by decide, by decide, by decide, noSpace_of_all (by decide)⟩, by decide, by decide,
    by decide, ?_⟩
  exact fun h => absurd h.1.1 (by decide)

end Ftp
