import LLPFilesystem.FtpTransfers

/-!
# The names of files

`STOR` and `RETR` scan a word behind the verb, and a word ends at the first white space.
A name with a space in it is cut there, and a name of spaces is no name at all. So the
commands act on the name in the line exactly if it holds no white space (`actsOn_iff`).
Then a run that stores something under two names gets it back under each, unless the
names lead to the same file (`Run.kept_iff`).
-/

namespace Ftp

open Text Pieces

variable {φ ι : Type} {k : Posix φ ι} {a a₁ a₂ : Answers} {s t s₁ s₂ : Session φ ι}
  {name n₁ n₂ : List UInt8} {i j : ι}

/-- **A file name**: 1 to 99 bytes, without the ones that end a line or a string. -/
structure IsFileName (name : List UInt8) : Prop where
  ne_nil : name ≠ []
  length_le : name.length ≤ 99
  cr : 13 ∉ name
  lf : 10 ∉ name
  nul : 0 ∉ name

/-- The line of a command with an argument. -/
def line (verb : String) (name : List UInt8) : List UInt8 :=
  ascii verb ++ 32 :: (name ++ [13, 10])

/-- **`STOR` and `RETR` act on the name**: it is the rest of the line behind the verb and
one space. -/
def ActsOn (name : List UInt8) : Prop :=
  commandOf (line "STOR" name) = .stor name ∧ commandOf (line "RETR" name) = .retr name

/-- **A transfer completes**, with the name that its command acts on. -/
def Completes (k : Posix φ ι) (a : Answers) (s : Session φ ι) (received : List UInt8) : Prop :=
  Accepts a s ∧
    match commandOf received with
    | .stor filename => StoresAll k filename a s
    | .retr filename => SendsAll k filename a s
    | _ => False

/-- **A run that stores two files and gets them back**: something is stored under the
first name and then something under the second, and then each is asked for. All transfers
complete, and between them nothing changes the files or moves the working directory. -/
structure Run (k : Posix φ ι) (n₁ n₂ : List UInt8) where
  a₁ : Answers
  s₁ : Session φ ι
  stored₁ : Completes k a₁ s₁ (line "STOR" n₁)
  a₂ : Answers
  s₂ : Session φ ι
  files₂ : s₂.files = (step k a₁ s₁ (line "STOR" n₁)).1.files
  cwd₂ : s₂.cwd = s₁.cwd
  stored₂ : Completes k a₂ s₂ (line "STOR" n₂)
  a₃ : Answers
  s₃ : Session φ ι
  files₃ : s₃.files = (step k a₂ s₂ (line "STOR" n₂)).1.files
  cwd₃ : s₃.cwd = s₁.cwd
  sent₁ : Completes k a₃ s₃ (line "RETR" n₁)
  a₄ : Answers
  s₄ : Session φ ι
  files₄ : s₄.files = s₃.files
  cwd₄ : s₄.cwd = s₁.cwd
  sent₂ : Completes k a₄ s₄ (line "RETR" n₂)

namespace Run

/-- What is stored under the first name. -/
def contents₁ (r : Run k n₁ n₂) : List UInt8 := (chunks r.a₁.incoming).flatten

/-- What is stored under the second name. -/
def contents₂ (r : Run k n₁ n₂) : List UInt8 := (chunks r.a₂.incoming).flatten

/-- **Each name gets back what was stored under it.** -/
def Kept (r : Run k n₁ n₂) : Prop :=
  newlySent r.s₃ (step k r.a₃ r.s₃ (line "RETR" n₁)).1 = r.contents₁
    ∧ newlySent r.s₄ (step k r.a₄ r.s₄ (line "RETR" n₂)).1 = r.contents₂

/-- **The names lead to the same file** when the second one is stored. -/
def SameFile (r : Run k n₁ n₂) : Prop :=
  k.locate r.s₂.files r.s₂.cwd n₁ = k.locate r.s₂.files r.s₂.cwd n₂

end Run

/-! ## The name in a line -/

/-- A line is a string as it is. -/
theorem cstr_line {verb : String} (hverb : 0 ∉ ascii verb) (h : 0 ∉ name) :
    cstr (line verb name) = line verb name :=
  cstr_of_notMem (by simp [line, h, hverb])

theorem commandOf_stor (h : 0 ∉ name) :
    commandOf (line "STOR" name) = .stor (word (32 :: (name ++ [13, 10]))) := by
  have hcommand : commandOf (line "STOR" name) = .stor (argument (line "STOR" name) 4) := rfl
  rw [hcommand, argument, cstr_line (by decide) h]
  rfl

theorem commandOf_retr (h : 0 ∉ name) :
    commandOf (line "RETR" name) = .retr (word (32 :: (name ++ [13, 10]))) := by
  have hcommand : commandOf (line "RETR" name) = .retr (argument (line "RETR" name) 4) := rfl
  rw [hcommand, argument, cstr_line (by decide) h]
  rfl

/-- **The commands act on a name** exactly if it holds no white space. -/
theorem actsOn_iff (h : IsFileName name) : ActsOn name ↔ ∀ c ∈ name, isSpace c = false := by
  unfold ActsOn
  rw [commandOf_stor h.nul, commandOf_retr h.nul, Command.stor.injEq, Command.retr.injEq, and_self]
  constructor
  · intro hword c hc
    exact isSpace_of_mem_word (hword ▸ hc)
  · intro hspace
    exact word_cons h.ne_nil hspace (by decide)

/-- A line with a name is executed. -/
theorem step_line {verb : String} {c : Command} (hlen : (ascii verb).length ≤ 4)
    (hverb : 0 ∉ ascii verb) (hname : name.length ≤ 99) (hnul : 0 ∉ name)
    (hc : commandOf (line verb name) = c) (hfits : c.Fits) :
    step k a s (line verb name) = execute k a (s.log c) c := by
  have hline : (line verb name).length = (ascii verb).length + (name.length + 3) := by
    rw [line, List.length_append, List.length_cons, List.length_append]
    rfl
  have hshort : (line verb name).length < bufferSize := by
    rw [hline]
    exact Nat.lt_of_le_of_lt (Nat.add_le_add hlen (Nat.add_le_add_right hname 3)) (by decide)
  have hpos : cstr (line verb name) ≠ [] := by
    rw [cstr_line hverb hnul]
    exact List.append_ne_nil_of_right_ne_nil _ (List.cons_ne_nil _ _)
  rw [step, if_neg (fun hfull => absurd hshort (Nat.not_lt_of_le hfull.1)), if_neg hpos, hc,
    if_pos hfits]

/-! ## Storing and getting back -/

/-- **What has been stored is there**, where the name leads; other files are as they
were. -/
theorem step_stor (hk : k.Files) (hname : IsFileName name) (hacts : ActsOn name)
    (h : Completes k a s (line "STOR" name)) :
    ∃ i, k.locate s.files s.cwd name = some i
      ∧ k.read (step k a s (line "STOR" name)).1.files i = some (chunks a.incoming).flatten
      ∧ (∀ j, j ≠ i → k.read (step k a s (line "STOR" name)).1.files j = k.read s.files j)
      ∧ ∀ d path j, k.locate s.files d path = some j →
        k.locate (step k a s (line "STOR" name)).1.files d path = some j := by
  unfold Completes at h
  rw [hacts.1] at h
  obtain ⟨haccept, hall⟩ := h
  rw [step_line (by decide) (by decide) hname.length_le hname.nul hacts.1
    (Nat.lt_succ_of_le hname.length_le)]
  -- noting the command changes nothing that a transfer looks at
  have haccept' : Accepts a (s.log (.stor name)) := haccept
  obtain ⟨-, i, hi, hfopen, hcreate, hread⟩ :=
    (stored_iff (s := s.log (.stor name)) hk haccept').mpr hall
  obtain ⟨g, hg⟩ := Option.isSome_iff_exists.mp hcreate
  refine ⟨i, hi, hread, fun j hj => ?_, fun d path j hj => ?_⟩
  · show k.read (stor k name a (s.log _)).1.files j = _
    rw [stor_files haccept' hi hfopen hg, read_receiveLoop_of_ne hk hj,
      hk.read_create_of_ne hg hj]
    rfl
  · show k.locate (stor k name a (s.log _)).1.files d path = _
    rw [stor_files haccept' hi hfopen hg, locate_receiveLoop hk]
    exact hk.locate_create hg hj

/-- **What is got back is what the file holds.** -/
theorem step_retr (hname : IsFileName name) (hacts : ActsOn name)
    (h : Completes k a s (line "RETR" name)) {content : List UInt8}
    (hi : k.locate s.files s.cwd name = some i) (hread : k.read s.files i = some content) :
    newlySent s (step k a s (line "RETR" name)).1 = content := by
  unfold Completes at h
  rw [hacts.2] at h
  obtain ⟨haccept, hall⟩ := h
  rw [step_line (by decide) (by decide) hname.length_le hname.nul hacts.2
    (Nat.lt_succ_of_le hname.length_le)]
  obtain ⟨j, content', hj, -, -, hread', hsent⟩ :=
    (sent_iff (s := s.log (.retr name)) haccept).mpr hall
  obtain rfl := Option.some.inj (hi.symm.trans hj)
  exact hsent.trans (Option.some.inj (hread'.symm.trans hread))

/-- **Names that are acted on keep their contents**, unless they lead to the same file
and something else is stored there. -/
theorem Run.kept_iff (hk : k.Files) (h₁ : IsFileName n₁) (h₂ : IsFileName n₂)
    (hacts₁ : ActsOn n₁) (hacts₂ : ActsOn n₂) (r : Run k n₁ n₂) :
    r.Kept ↔ (r.SameFile → r.contents₁ = r.contents₂) := by
  obtain ⟨i, hi, hread₁, -, hlocate₁⟩ := step_stor hk h₁ hacts₁ r.stored₁
  obtain ⟨j, hj, hread₂, hother₂, hlocate₂⟩ := step_stor hk h₂ hacts₂ r.stored₂
  -- each name leads to its file to the end of the run
  have hi₂ : k.locate r.s₂.files r.s₂.cwd n₁ = some i := by
    rw [r.files₂, r.cwd₂]
    exact hlocate₁ _ _ _ hi
  have hi₃ : k.locate r.s₃.files r.s₃.cwd n₁ = some i := by
    rw [r.files₃, r.cwd₃, ← r.cwd₂]
    exact hlocate₂ _ _ _ hi₂
  have hj₄ : k.locate r.s₄.files r.s₄.cwd n₂ = some j := by
    rw [r.files₄, r.files₃, r.cwd₄, ← r.cwd₂]
    exact hlocate₂ _ _ _ hj
  have hsecond : newlySent r.s₄ (step k r.a₄ r.s₄ (line "RETR" n₂)).1 = r.contents₂ := by
    refine step_retr h₂ hacts₂ r.sent₂ hj₄ ?_
    rw [r.files₄, r.files₃]
    exact hread₂
  have hsame : r.SameFile ↔ i = j := by
    unfold Run.SameFile
    rw [hi₂, hj, Option.some.injEq]
  unfold Run.Kept
  rw [and_iff_left hsecond, hsame]
  by_cases hij : i = j
  · subst hij
    have hfirst : newlySent r.s₃ (step k r.a₃ r.s₃ (line "RETR" n₁)).1 = r.contents₂ := by
      refine step_retr h₁ hacts₁ r.sent₁ hi₃ ?_
      rw [r.files₃]
      exact hread₂
    rw [hfirst]
    exact ⟨fun h _ => h.symm, fun h => (h rfl).symm⟩
  · have hfirst : newlySent r.s₃ (step k r.a₃ r.s₃ (line "RETR" n₁)).1 = r.contents₁ := by
      refine step_retr h₁ hacts₁ r.sent₁ hi₃ ?_
      rw [r.files₃, hother₂ i hij, r.files₂]
      exact hread₁
    exact iff_of_true hfirst fun heq => absurd heq hij

/-- **When names never share a file.** For two file names and every run that stores
something under each: `STOR` and `RETR` act on exactly these names, and each gets back
what was stored under it, exactly if neither holds white space, and, unless the same bytes
were stored, they lead to different files when the second one is stored. -/
theorem names_kept_apart_iff (hk : k.Files) (h₁ : IsFileName n₁) (h₂ : IsFileName n₂)
    (r : Run k n₁ n₂) :
    (ActsOn n₁ ∧ ActsOn n₂ ∧ r.Kept)
      ↔ (∀ c ∈ n₁, isSpace c = false) ∧ (∀ c ∈ n₂, isSpace c = false)
        ∧ (r.SameFile → r.contents₁ = r.contents₂) := by
  rw [← actsOn_iff h₁, ← actsOn_iff h₂]
  refine and_congr_right fun hacts₁ => and_congr_right fun hacts₂ => ?_
  exact r.kept_iff hk h₁ h₂ hacts₁ hacts₂

/-! ## Two names with spaces -/

theorem isFileName_of {name : List UInt8}
    (h : name ≠ [] ∧ name.length ≤ 99 ∧ 13 ∉ name ∧ 10 ∉ name ∧ 0 ∉ name) : IsFileName name :=
  ⟨h.1, h.2.1, h.2.2.1, h.2.2.2.1, h.2.2.2.2⟩

/-- Whether a name holds no white space. -/
theorem noSpace_of_all {name : List UInt8} (h : name.all (fun c => !isSpace c) = true) :
    ∀ c ∈ name, isSpace c = false := fun c hc => by
  simpa using List.all_eq_true.mp h c hc

/-- The session with the data socket, on some files. -/
def readyOn (f : List UInt8 → Option (List UInt8)) :
    Session (List UInt8 → Option (List UInt8)) (List UInt8) := { ready with files := f }

theorem accepts_readyOn (f : List UInt8 → Option (List UInt8)) (bytes : List UInt8) :
    Accepts (delivering bytes) (readyOn f) := ⟨4, rfl, Finset.mem_singleton_self 4, rfl⟩

/-- Three bytes that are stored in the flat file system. -/
theorem completes_stor {bytes received w : List UInt8} (f : List UInt8 → Option (List UInt8))
    (hlen : bytes.length = 3) (hc : commandOf received = .stor w) (hw : w ≠ []) :
    Completes flat (delivering bytes) (readyOn f) received := by
  unfold Completes
  rw [hc]
  obtain ⟨b, c, d, rfl⟩ := List.length_eq_three.mp hlen
  have hfits : 3 ≤ bufferSize := by decide
  exact ⟨accepts_readyOn f _, w, if_neg hw, rfl, rfl, rfl, hfits, hfits, Nat.zero_le _⟩

/-- Three bytes that are got back. -/
theorem completes_retr {bytes received w : List UInt8} {f : List UInt8 → Option (List UInt8)}
    (hlen : bytes.length = 3) (hc : commandOf received = .retr w) (hw : w ≠ [])
    (hf : f w = some bytes) : Completes flat granting (readyOn f) received := by
  unfold Completes
  rw [hc]
  obtain ⟨b, c, d, rfl⟩ := List.length_eq_three.mp hlen
  refine ⟨⟨4, rfl, Finset.mem_singleton_self 4, rfl⟩, w, [b, c, d], if_neg hw, rfl, ?_, hf, ?_, ?_⟩
  · show (f w).isSome = true
    rw [hf]
    rfl
  · intro n hn
    exact absurd (show bufferSize = 0 from hn) (by decide)
  · intro n piece hpiece
    have hmem : piece ∈ [[b, c, d]] := List.mem_of_getElem? hpiece
    obtain rfl := List.mem_singleton.mp hmem
    exact ⟨bufferSize, rfl, (by decide : 3 ≤ bufferSize)⟩

/-- What is in the files behind two transfers that store. -/
def storedTwice (n₁ n₂ : List UInt8) : List UInt8 → Option (List UInt8) :=
  (step flat (delivering (ascii "xyz"))
    (readyOn (step flat (delivering (ascii "abc")) ready (line "STOR" n₁)).1.files)
    (line "STOR" n₂)).1.files

/-- **A run on the flat file system**: `abc` is stored under one name and `xyz` under the
other, which the commands take for `w₁` and `w₂`. -/
def flatRun (n₁ n₂ w₁ w₂ : List UInt8) (hw : w₁ ≠ [] ∧ w₂ ≠ [])
    (hstor : commandOf (line "STOR" n₁) = .stor w₁ ∧ commandOf (line "STOR" n₂) = .stor w₂)
    (hretr : commandOf (line "RETR" n₁) = .retr w₁ ∧ commandOf (line "RETR" n₂) = .retr w₂)
    (hfiles : ∀ w ∈ [w₁, w₂], ∃ bytes, storedTwice n₁ n₂ w = some bytes ∧ bytes.length = 3) :
    Run flat n₁ n₂ where
  a₁ := delivering (ascii "abc")
  s₁ := ready
  stored₁ := completes_stor (fun _ => none) rfl hstor.1 hw.1
  a₂ := delivering (ascii "xyz")
  s₂ := readyOn (step flat (delivering (ascii "abc")) ready (line "STOR" n₁)).1.files
  files₂ := rfl
  cwd₂ := rfl
  stored₂ := completes_stor _ rfl hstor.2 hw.2
  a₃ := granting
  s₃ := readyOn (storedTwice n₁ n₂)
  files₃ := rfl
  cwd₃ := rfl
  sent₁ := by
    obtain ⟨bytes, hread, hlen⟩ := hfiles w₁ (by simp)
    exact completes_retr hlen hretr.1 hw.1 hread
  a₄ := granting
  s₄ := readyOn (storedTwice n₁ n₂)
  files₄ := rfl
  cwd₄ := rfl
  sent₂ := by
    obtain ⟨bytes, hread, hlen⟩ := hfiles w₂ (by simp)
    exact completes_retr hlen hretr.2 hw.2 hread

/-- In the flat file system different names lead to different files. -/
theorem flatRun_not_sameFile {r : Run flat n₁ n₂} (h₁ : n₁ ≠ []) (h₂ : n₂ ≠ []) (h : n₁ ≠ n₂) :
    ¬ r.SameFile := by
  intro hsame
  change (if n₁ = [] then none else some n₁) = if n₂ = [] then none else some n₂ at hsame
  rw [if_neg h₁, if_neg h₂] at hsame
  exact h (Option.some.inj hsame)

/-- What is stored as `a` and as `b` is got back. -/
theorem names_kept_apart_ab :
    ActsOn (ascii "a") ∧ ActsOn (ascii "b")
      ∧ (flatRun (ascii "a") (ascii "b") (ascii "a") (ascii "b") (by decide) (by decide)
        (by decide) (by decide)).Kept :=
  (names_kept_apart_iff files_flat (isFileName_of (by decide)) (isFileName_of (by decide)) _).mpr
    ⟨noSpace_of_all (by decide), noSpace_of_all (by decide), fun hsame =>
      absurd hsame (flatRun_not_sameFile (by decide) (by decide) (by decide))⟩

/-- **Two names that share a file.** What is stored under `my a` is lost when something is
stored under `my b`: both commands act on the name `my`. -/
theorem spaces_share_file :
    let r := flatRun (ascii "my a") (ascii "my b") (ascii "my") (ascii "my") (by decide)
      (by decide) (by decide) (by decide)
    IsFileName (ascii "my a") ∧ IsFileName (ascii "my b") ∧ ¬ r.SameFile
      ∧ r.contents₁ = ascii "abc"
      ∧ newlySent r.s₃ (step flat r.a₃ r.s₃ (line "RETR" (ascii "my a"))).1 = ascii "xyz"
      ∧ ¬ (ActsOn (ascii "my a") ∧ ActsOn (ascii "my b") ∧ r.Kept) := by
  refine ⟨isFileName_of (by decide), isFileName_of (by decide),
    flatRun_not_sameFile (by decide) (by decide) (by decide), by decide, by decide, fun h => ?_⟩
  exact absurd h.1.1 (by decide)

end Ftp
